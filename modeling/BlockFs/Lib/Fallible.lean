import Mathlib.Init

/-!
How the bind of a computation that may fail evaluates, and when it succeeds.
-/

namespace Except

variable {ε α β : Type}

@[simp] theorem ok_bind (a : α) (f : α → Except ε β) : (Except.ok a >>= f) = f a := rfl

@[simp] theorem error_bind (e : ε) (f : α → Except ε β) : (Except.error e >>= f) = .error e := rfl

/-- A bind succeeds when its first part does and the second succeeds on the result. -/
theorem bind_eq_ok {x : Except ε α} {f : α → Except ε β} {b : β} :
    (x >>= f) = .ok b ↔ ∃ a, x = .ok a ∧ f a = .ok b := by
  cases x with
  | error e => simp
  | ok a => simp

/-- A bind fails when its first part does or the second fails on the result. -/
theorem bind_eq_error {x : Except ε α} {f : α → Except ε β} {e : ε} :
    (x >>= f) = .error e ↔ x = .error e ∨ ∃ a, x = .ok a ∧ f a = .error e := by
  cases x with
  | error e' => simp
  | ok a => simp

/-- A traversal fails at one of the elements. -/
theorem mapM_eq_error {f : α → Except ε β} {l : List α} {e : ε} (stops : l.mapM f = .error e) :
    ∃ a ∈ l, f a = .error e := by
  induction l with
  | nil => simp [pure, Except.pure] at stops
  | cons a l ih =>
    rw [List.mapM_cons] at stops
    rcases bind_eq_error.mp stops with first | ⟨b, _, rest⟩
    · exact ⟨a, by simp, first⟩
    · rcases bind_eq_error.mp rest with later | ⟨bs, _, done⟩
      · obtain ⟨c, member, fails⟩ := ih later
        exact ⟨c, by simp [member], fails⟩
      · simp [pure, Except.pure] at done

theorem mapM_cons_eq_ok {f : α → Except ε β} {a : α} {l : List α} {bs : List β} :
    (a :: l).mapM f = .ok bs ↔ ∃ b later, f a = .ok b ∧ l.mapM f = .ok later ∧ bs = b :: later := by
  rw [List.mapM_cons]
  constructor
  · intro done
    obtain ⟨b, first, rest⟩ := bind_eq_ok.mp done
    obtain ⟨later, found, last⟩ := bind_eq_ok.mp rest
    exact ⟨b, later, first, found, (ok.inj last).symm⟩
  · rintro ⟨b, later, first, found, rfl⟩
    rw [first, ok_bind, found]
    rfl

/-- A traversal returns what it finds at the elements. -/
theorem mem_of_mapM {f : α → Except ε β} {l : List α} {bs : List β} (done : l.mapM f = .ok bs)
    {b : β} : b ∈ bs ↔ ∃ a ∈ l, f a = .ok b := by
  induction l generalizing bs with
  | nil =>
    obtain rfl := ok.inj done
    simp
  | cons a l ih =>
    obtain ⟨c, later, first, rest, rfl⟩ := mapM_cons_eq_ok.mp done
    simp [ih rest, first, eq_comm]

/-- A traversal succeeds when it does at every element. -/
theorem mapM_isOk {f : α → Except ε β} {l : List α} :
    (∃ bs, l.mapM f = .ok bs) ↔ ∀ a ∈ l, ∃ b, f a = .ok b := by
  induction l with
  | nil => simp [pure, Except.pure]
  | cons a l ih =>
    simp only [mapM_cons_eq_ok, List.forall_mem_cons, ← ih]
    constructor
    · rintro ⟨_, b, later, first, rest, _⟩
      exact ⟨⟨b, first⟩, later, rest⟩
    · rintro ⟨⟨b, first⟩, later, rest⟩
      exact ⟨_, b, later, first, rest, rfl⟩

/-- What a view shows of the results, when it shows of each what another shows of its element. -/
theorem map_of_mapM {γ : Type} {f : α → Except ε β} {l : List α} {bs : List β} {g : β → γ} {h : α → γ}
    (done : l.mapM f = .ok bs) (agree : ∀ a ∈ l, ∀ b, f a = .ok b → g b = h a) :
    bs.map g = l.map h := by
  induction l generalizing bs with
  | nil =>
    obtain rfl := ok.inj done
    rfl
  | cons a l ih =>
    obtain ⟨b, later, first, rest, rfl⟩ := mapM_cons_eq_ok.mp done
    rw [List.map_cons, List.map_cons, agree a List.mem_cons_self b first,
      ih rest fun c member => agree c (List.mem_cons_of_mem a member)]

end Except
