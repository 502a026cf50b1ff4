import Mathlib.Data.List.Nodup

/-!
A traversal of a list whose rounds may refuse their element: the rule by which its invariants are
proved, and when it gets to the end.
-/

namespace Visits

variable {α σ : Type*} {round : σ → α → σ → Prop}

/-- The rounds for the elements of a list, one after the other, lead from one state to another. -/
inductive Visited (round : σ → α → σ → Prop) : σ → List α → σ → Prop
  | done (s) : Visited round s [] s
  | next {s t u a rest} (first : round s a t) (later : Visited round t rest u) :
    Visited round s (a :: rest) u

theorem Visited.nil_iff {s t : σ} : Visited round s [] t ↔ s = t := by
  constructor
  · rintro ⟨⟩
    rfl
  · rintro rfl
    exact .done s

theorem Visited.cons_iff {s u : σ} {a : α} {rest : List α} :
    Visited round s (a :: rest) u ↔ ∃ t, round s a t ∧ Visited round t rest u := by
  constructor
  · rintro (_ | ⟨first, later⟩)
    exact ⟨_, first, later⟩
  · rintro ⟨t, first, later⟩
    exact .next first later

section Rule
variable {whole : List α} (holds : List α → σ → Prop)
  (keeps : ∀ pre a post s t, whole = pre ++ a :: post → holds pre s → round s a t → holds (pre ++ [a]) t)
include keeps

theorem Visited.rule_from {pre rest : List α} {s t : σ} (split : whole = pre ++ rest) (start : holds pre s)
    (visited : Visited round s rest t) : holds whole t := by
  induction visited generalizing pre with
  | done s =>
    rw [List.append_nil] at split
    exact split ▸ start
  | @next s t u a rest first _ ih =>
    have split' : whole = (pre ++ [a]) ++ rest := by rw [split, List.append_cons]
    exact ih split' (keeps pre a rest s t split start first)

/-- What holds of the elements behind and is brought up to date by every round holds of all elements
at the end. -/
theorem Visited.rule {s t : σ} (start : holds [] s) (visited : Visited round s whole t) : holds whole t :=
  visited.rule_from holds keeps (List.nil_append whole).symm start

variable {accepts : List α → α → Prop}
  (decides : ∀ pre a post s, whole = pre ++ a :: post → holds pre s → ((∃ t, round s a t) ↔ accepts pre a))
include decides

theorem exists_visited_from {pre rest : List α} {s : σ} (split : whole = pre ++ rest) (start : holds pre s) :
    (∃ t, Visited round s rest t) ↔
      ∀ before a after, rest = before ++ a :: after → accepts (pre ++ before) a := by
  induction rest generalizing pre s with
  | nil =>
    constructor
    · intro _ before a after none
      simp at none
    · intro _
      exact ⟨s, .done s⟩
  | cons a rest ih =>
    have split' : whole = (pre ++ [a]) ++ rest := by rw [split, List.append_cons]
    have here := decides pre a rest s split start
    constructor
    · rintro ⟨u, visited⟩ before b after cut
      obtain ⟨t, first, later⟩ := Visited.cons_iff.mp visited
      cases before with
      | nil =>
        obtain ⟨rfl, _⟩ := List.cons.inj cut
        rw [List.append_nil]
        exact here.mp ⟨t, first⟩
      | cons c before =>
        obtain ⟨rfl, behind⟩ := List.cons.inj cut
        rw [List.append_cons]
        exact (ih split' (keeps pre a rest s t split start first)).mp ⟨u, later⟩ before b after behind
    · intro all
      have first := all [] a rest rfl
      rw [List.append_nil] at first
      obtain ⟨t, first⟩ := here.mpr first
      have later := (ih split' (keeps pre a rest s t split start first)).mpr fun before b after cut => by
        have accepted := all (a :: before) b after (by rw [cut, List.cons_append])
        rwa [List.append_cons] at accepted
      obtain ⟨u, later⟩ := later
      exact ⟨u, .next first later⟩

/-- A traversal gets to the end when each of its elements is accepted after those before it. -/
theorem exists_visited_iff {s : σ} (start : holds [] s) :
    (∃ t, Visited round s whole t) ↔ ∀ pre a post, whole = pre ++ a :: post → accepts pre a := by
  have visits := exists_visited_from holds keeps decides (List.nil_append whole).symm start
  simp only [List.nil_append] at visits
  exact visits

end Rule

/-- A verdict on every element alone. -/
theorem forall_split_mem {p : α → Prop} {whole : List α} :
    (∀ pre a post, whole = pre ++ a :: post → p a) ↔ ∀ a ∈ whole, p a := by
  constructor
  · intro all a member
    obtain ⟨pre, post, split⟩ := List.append_of_mem member
    exact all pre a post split
  · intro all pre a post split
    exact all a (by rw [split]; simp)

/-- A verdict on an element and on the pairs it makes with those before it. -/
theorem forall_split_iff {p : α → Prop} {r : α → α → Prop} {whole : List α} :
    (∀ pre a post, whole = pre ++ a :: post → p a ∧ ∀ b ∈ pre, r b a) ↔
      (∀ a ∈ whole, p a) ∧ whole.Pairwise r := by
  induction whole with
  | nil => simp
  | cons a rest ih =>
    constructor
    · intro all
      have later := ih.mp fun pre b post cut => by
        obtain ⟨alone, pairs⟩ := all (a :: pre) b post (by rw [cut, List.cons_append])
        exact ⟨alone, fun c member => pairs c (List.mem_cons_of_mem a member)⟩
      refine ⟨?_, List.pairwise_cons.mpr ⟨fun b member => ?_, later.2⟩⟩
      · exact List.forall_mem_cons.mpr ⟨(all [] a rest rfl).1, later.1⟩
      · obtain ⟨pre, post, rfl⟩ := List.append_of_mem member
        exact (all (a :: pre) b post (List.cons_append ..)).2 a List.mem_cons_self
    · rintro ⟨alone, pairs⟩ pre b post cut
      refine ⟨alone b (by rw [cut]; simp), fun c member => ?_⟩
      rw [cut] at pairs
      exact (List.pairwise_append.mp pairs).2.2 c member b List.mem_cons_self

/-- An element of a list without duplicates comes before what follows it only. -/
theorem notMem_of_split {pre post whole : List α} {a : α} (nodup : whole.Nodup)
    (split : whole = pre ++ a :: post) : a ∉ pre ∧ a ∉ post := by
  rw [split] at nodup
  have apart := List.nodup_middle.mp nodup
  exact not_or.mp fun member => (List.nodup_cons.mp apart).1 (List.mem_append.mpr member)

end Visits
