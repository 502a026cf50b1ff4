import BlockFs.Lib.Reaches
import Mathlib.Data.Finset.Max
import Mathlib.Data.Fintype.Defs
import Mathlib.Logic.Function.Basic

/-!
Threads that run programs of nested critical sections over non-recursive mutexes, and the rule that
an acquisition order rules out deadlock. The order may have inversions, pairs of mutexes that are
taken in both orders, as long as no two threads ever cross on such a pair.
-/

namespace Locking

variable {Mutex Tid : Type*}

/-- What a piece of code does to the mutexes. Branches and loop bounds are left open, so every path
of the code is a path of its program. -/
inductive Prog (Mutex : Type*) where
  | skip
  | seq (p q : Prog Mutex)
  | choice (p q : Prog Mutex)
  | loop (p : Prog Mutex)
  | guarded (m : Mutex) (body : Prog Mutex)

/-- Code that is followed by the rest of its program, or left out with it by an early return. -/
def Prog.opt (p : Prog Mutex) : Prog Mutex := .choice .skip p

/-- The statements of a block, in order. -/
def Prog.block : List (Prog Mutex) → Prog Mutex
  | [] => .skip
  | [p] => p
  | p :: ps => .seq p (.block ps)

/-- What a thread still has to do: run a program, or leave a critical section. -/
inductive Item (Mutex : Type*) where
  | run (p : Prog Mutex)
  | release (m : Mutex)

abbrev Stack (Mutex : Type*) := List (Item Mutex)

/-- The mutexes a thread holds are those it still has to release. -/
def held : Stack Mutex → List Mutex
  | [] => []
  | .run _ :: k => held k
  | .release m :: k => m :: held k

/-- The critical section a thread is about to enter. -/
def entering : Stack Mutex → Option (Mutex × Prog Mutex)
  | .run (.guarded m body) :: _ => some (m, body)
  | _ => none

/-- The mutex a thread has to acquire before it can go on. -/
def awaits (k : Stack Mutex) : Option Mutex := (entering k).map Prod.fst

/-- One step of a thread; `pick` decides a branch and whether a loop goes round again. -/
def advance (pick : Bool) : Stack Mutex → Option (Stack Mutex)
  | [] => none
  | .release _ :: k => some k
  | .run .skip :: k => some k
  | .run (.seq p q) :: k => some (.run p :: .run q :: k)
  | .run (.choice p q) :: k => some (.run (if pick then q else p) :: k)
  | .run (.loop p) :: k => some (if pick then .run p :: .run (.loop p) :: k else k)
  | .run (.guarded m body) :: k => some (.run body :: .release m :: k)

/-- A mutex can be acquired when no thread, the caller included, holds it. -/
def Free (s : Tid → Stack Mutex) (m : Mutex) : Prop := ∀ t, m ∉ held (s t)

/-- A step of one thread. A thread that awaits a mutex that is not free cannot step. -/
def Step [DecidableEq Tid] (s : Tid → Stack Mutex) (event : Tid × Bool) (s' : Tid → Stack Mutex) :
    Prop :=
  (∀ m, awaits (s event.1) = some m → Free s m) ∧
    ∃ k, advance event.2 (s event.1) = some k ∧ s' = Function.update s event.1 k

/-- A set of threads each of which awaits a mutex that another thread of the set holds. -/
def Deadlocked (s : Tid → Stack Mutex) : Prop :=
  ∃ threads : Set Tid, threads.Nonempty ∧
    ∀ t ∈ threads, ∃ m, awaits (s t) = some m ∧ ∃ t' ∈ threads, t' ≠ t ∧ m ∈ held (s t')

/-- A thread that is about to acquire a mutex it holds. -/
def SelfAcquires (s : Tid → Stack Mutex) : Prop := ∃ t m, awaits (s t) = some m ∧ m ∈ held (s t)

/-- The mutexes a program may acquire. -/
def Prog.takes : Prog Mutex → List Mutex
  | .skip => []
  | .seq p q => p.takes ++ q.takes
  | .choice p q => p.takes ++ q.takes
  | .loop p => p.takes
  | .guarded m body => m :: body.takes

/-- The thread holds `h` and may acquire `m` before it releases `h`. -/
def MayTake (h m : Mutex) : Stack Mutex → Prop
  | [] => False
  | .run p :: k => (m ∈ p.takes ∧ h ∈ held k) ∨ MayTake h m k
  | .release _ :: k => MayTake h m k

instance decidableMayTake [DecidableEq Mutex] (h m : Mutex) : (k : Stack Mutex) → Decidable (MayTake h m k)
  | [] => inferInstanceAs (Decidable False)
  | .run p :: k =>
    letI := decidableMayTake h m k
    inferInstanceAs (Decidable ((m ∈ p.takes ∧ h ∈ held k) ∨ MayTake h m k))
  | .release _ :: k => decidableMayTake h m k

/-- Run under the mutexes `h`, the program acquires only mutexes that `ok` lets follow them. -/
def Prog.Ordered (ok : Mutex → Mutex → Prop) : List Mutex → Prog Mutex → Prop
  | _, .skip => True
  | h, .seq p q => p.Ordered ok h ∧ q.Ordered ok h
  | h, .choice p q => p.Ordered ok h ∧ q.Ordered ok h
  | h, .loop p => p.Ordered ok h
  | h, .guarded m body => (∀ x ∈ h, ok x m) ∧ body.Ordered ok (m :: h)

@[simp] theorem Prog.ordered_opt {ok : Mutex → Mutex → Prop} {h : List Mutex} {p : Prog Mutex} :
    p.opt.Ordered ok h ↔ p.Ordered ok h := by
  simp [Prog.opt, Prog.Ordered]

@[simp] theorem Prog.ordered_block {ok : Mutex → Mutex → Prop} {h : List Mutex} {ps : List (Prog Mutex)} :
    (Prog.block ps).Ordered ok h ↔ ∀ p ∈ ps, p.Ordered ok h := by
  induction ps with
  | nil => simp [Prog.block, Prog.Ordered]
  | cons p ps ih =>
    cases ps with
    | nil => simp [Prog.block]
    | cons q qs => simp only [Prog.block, Prog.Ordered, ih, List.forall_mem_cons]

@[simp] theorem Prog.takes_opt {p : Prog Mutex} : p.opt.takes = p.takes := by
  simp [Prog.opt, Prog.takes]

@[simp] theorem Prog.takes_block {ps : List (Prog Mutex)} : (Prog.block ps).takes = ps.flatMap Prog.takes := by
  induction ps with
  | nil => simp [Prog.block, Prog.takes]
  | cons p ps ih =>
    cases ps with
    | nil => simp [Prog.block]
    | cons q qs => simp only [Prog.block, Prog.takes, ih, List.flatMap_cons]

/-- Under more mutexes a program is ordered when what it takes may follow each of them. -/
theorem Prog.ordered_append {ok : Mutex → Mutex → Prop} {h h' : List Mutex} {p : Prog Mutex} :
    p.Ordered ok (h ++ h') ↔ p.Ordered ok h ∧ ∀ x ∈ h', ∀ m ∈ p.takes, ok x m := by
  induction p generalizing h with
  | skip => simp [Prog.Ordered, Prog.takes]
  | seq p q ihp ihq =>
    simp only [Prog.Ordered, Prog.takes, ihp, ihq, List.mem_append]
    grind
  | choice p q ihp ihq =>
    simp only [Prog.Ordered, Prog.takes, ihp, ihq, List.mem_append]
    grind
  | loop p ih => simp only [Prog.Ordered, Prog.takes, ih]
  | guarded m body ih =>
    simp only [Prog.Ordered, Prog.takes, ← List.cons_append, ih, List.mem_append, List.mem_cons]
    grind

/-- A critical section entered with nothing held. -/
theorem Prog.ordered_guarded {ok : Mutex → Mutex → Prop} {m : Mutex} {body : Prog Mutex} :
    (Prog.guarded m body).Ordered ok [] ↔ body.Ordered ok [] ∧ ∀ x ∈ body.takes, ok m x := by
  have under : body.Ordered ok [m] ↔ _ := @Prog.ordered_append _ ok [] [m] body
  simp [Prog.Ordered, under]

def StackOrdered (ok : Mutex → Mutex → Prop) : Stack Mutex → Prop
  | [] => True
  | .run p :: k => p.Ordered ok (held k) ∧ StackOrdered ok k
  | .release _ :: k => StackOrdered ok k

/-- No two threads hold the two mutexes of an inversion while each may still take the other's. -/
def NoCrossing (inverted : Mutex → Mutex → Prop) (s : Tid → Stack Mutex) : Prop :=
  ∀ h m, inverted h m → ∀ t t', t ≠ t' → MayTake h m (s t) → ¬ MayTake m h (s t')

/-- No other thread is in the way of the critical section that thread `t` is about to enter: where
the section's mutex and one taken inside it are an inversion, no other thread holds the latter and
may still take the former. -/
def Apart (inverted : Mutex → Mutex → Prop) (s : Tid → Stack Mutex) (t : Tid) : Prop :=
  ∀ m body, entering (s t) = some (m, body) → ∀ x ∈ body.takes, inverted m x ∨ inverted x m →
    ∀ t', t' ≠ t → ¬ MayTake x m (s t')

section Advance
variable {pick : Bool} {k k' : Stack Mutex} {h m : Mutex} {body : Prog Mutex}

theorem awaits_eq_some : awaits k = some m ↔ ∃ body, entering k = some (m, body) := by
  simp [awaits]

theorem entering_eq_some (enters : entering k = some (m, body)) :
    ∃ rest, k = .run (.guarded m body) :: rest := by
  rcases k with _ | ⟨⟨⟨⟩ | _ | _ | _ | _⟩ | _, rest⟩ <;> simp [entering] at enters
  obtain ⟨rfl, rfl⟩ := enters
  exact ⟨_, rfl⟩

/-- A step that enters no critical section acquires nothing and opens no new way to. -/
theorem mayTake_of_advance (quiet : entering k = none) (step : advance pick k = some k')
    (may : MayTake h m k') : MayTake h m k := by
  rcases k with _ | ⟨⟨_ | ⟨p, q⟩ | ⟨p, q⟩ | p | _⟩ | _, rest⟩
  case nil => simp [advance] at step
  case cons.run.skip => simp_all [advance, MayTake]
  case cons.run.seq =>
    obtain rfl : .run p :: .run q :: rest = k' := by simpa [advance] using step
    simp only [MayTake, held, Prog.takes, List.mem_append] at may ⊢
    tauto
  case cons.run.choice =>
    obtain rfl : .run (if pick then q else p) :: rest = k' := by simpa [advance] using step
    cases pick <;> simp only [MayTake, Prog.takes, List.mem_append] at may ⊢ <;> tauto
  case cons.run.loop =>
    cases pick with
    | false => simp_all [advance, MayTake]
    | true =>
      obtain rfl : .run p :: .run (.loop p) :: rest = k' := by simpa [advance] using step
      simp only [MayTake, held, Prog.takes] at may ⊢
      tauto
  case cons.run.guarded => simp [entering] at quiet
  case cons.release => simp_all [advance, MayTake]

/-- Entering a critical section adds its mutex to what is held while the body runs. -/
theorem mayTake_of_enter (enters : entering k = some (m, body)) (step : advance pick k = some k')
    {x y : Mutex} (may : MayTake x y k') : (x = m ∧ y ∈ body.takes) ∨ MayTake x y k := by
  obtain ⟨rest, rfl⟩ := entering_eq_some enters
  obtain rfl : .run body :: .release m :: rest = k' := by simpa [advance] using step
  simp only [MayTake, held, Prog.takes, List.mem_cons] at may ⊢
  tauto

/-- What a thread awaits it may take under everything it holds. -/
theorem mayTake_of_awaits (waits : awaits k = some m) (holds : h ∈ held k) : MayTake h m k := by
  obtain ⟨body, enters⟩ := awaits_eq_some.1 waits
  obtain ⟨rest, rfl⟩ := entering_eq_some enters
  exact .inl ⟨by simp [Prog.takes], holds⟩

variable {ok : Mutex → Mutex → Prop}

theorem stackOrdered_advance (ordered : StackOrdered ok k) (step : advance pick k = some k') :
    StackOrdered ok k' := by
  rcases k with _ | ⟨⟨_ | ⟨p, q⟩ | ⟨p, q⟩ | p | _⟩ | _, rest⟩
  case nil => simp [advance] at step
  case cons.run.skip => simp_all [advance, StackOrdered]
  case cons.run.seq =>
    obtain rfl : .run p :: .run q :: rest = k' := by simpa [advance] using step
    obtain ⟨⟨first, second⟩, below⟩ := ordered
    exact ⟨first, second, below⟩
  case cons.run.choice =>
    obtain rfl : .run (if pick then q else p) :: rest = k' := by simpa [advance] using step
    obtain ⟨⟨left, right⟩, below⟩ := ordered
    cases pick with
    | false => exact ⟨left, below⟩
    | true => exact ⟨right, below⟩
  case cons.run.loop =>
    cases pick with
    | false => simp_all [advance, StackOrdered]
    | true =>
      obtain rfl : .run p :: .run (.loop p) :: rest = k' := by simpa [advance] using step
      exact ⟨ordered.1, ordered⟩
  case cons.run.guarded =>
    obtain rfl := Option.some.inj step
    exact ⟨ordered.1.2, ordered.2⟩
  case cons.release => simp_all [advance, StackOrdered]

theorem ok_of_awaits (ordered : StackOrdered ok k) (waits : awaits k = some m) (holds : h ∈ held k) :
    ok h m := by
  obtain ⟨body, enters⟩ := awaits_eq_some.1 waits
  obtain ⟨rest, rfl⟩ := entering_eq_some enters
  exact ordered.1.1 h holds

end Advance

section Runs
variable [DecidableEq Tid] {inverted : Mutex → Mutex → Prop} {s s' : Tid → Stack Mutex}
  {event : Tid × Bool}

theorem NoCrossing.step (crossing : NoCrossing inverted s) (apart : Apart inverted s event.1)
    (step : Step s event s') : NoCrossing inverted s' := by
  obtain ⟨t, pick⟩ := event
  obtain ⟨-, k, next, rfl⟩ := step
  intro h m inv t₁ t₂ distinct may₁ may₂
  have other {t'} (ne : t' ≠ t) : Function.update s t k t' = s t' := Function.update_of_ne ne _ _
  -- What the stepping thread may take after the step it could take before, or it is about to enter
  -- the section that makes the difference.
  have since {x y} (may : MayTake x y k) :
      MayTake x y (s t) ∨ ∃ body, entering (s t) = some (x, body) ∧ y ∈ body.takes := by
    rcases enters : entering (s t) with _ | ⟨m', body⟩
    · exact .inl (mayTake_of_advance enters next may)
    · rcases mayTake_of_enter enters next may with ⟨rfl, taken⟩ | before
      · exact .inr ⟨body, rfl, taken⟩
      · exact .inl before
  rcases eq_or_ne t₁ t with rfl | ne₁
  · rw [Function.update_self] at may₁
    rw [other distinct.symm] at may₂
    rcases since may₁ with before | ⟨body, enters, taken⟩
    · exact crossing h m inv t₁ t₂ distinct before may₂
    · exact apart h body enters m taken (.inl inv) t₂ distinct.symm may₂
  · rw [other ne₁] at may₁
    rcases eq_or_ne t₂ t with rfl | ne₂
    · rw [Function.update_self] at may₂
      rcases since may₂ with before | ⟨body, enters, taken⟩
      · exact crossing h m inv t₁ t₂ distinct may₁ before
      · exact apart m body enters h taken (.inr inv) t₁ distinct may₁
    · rw [other ne₂] at may₂
      exact crossing h m inv t₁ t₂ distinct may₁ may₂

theorem stackOrdered_step {ok : Mutex → Mutex → Prop} (ordered : ∀ t, StackOrdered ok (s t))
    (step : Step s event s') (t : Tid) : StackOrdered ok (s' t) := by
  obtain ⟨-, k, next, rfl⟩ := step
  rcases eq_or_ne t event.1 with rfl | ne
  · rw [Function.update_self]
    exact stackOrdered_advance (ordered _) next
  · rw [Function.update_of_ne ne]
    exact ordered t

end Runs

/-- An acquisition order with inversions. Every mutex has a rank, and an inversion is the only way
to acquire a mutex of no greater rank than one that is held. -/
structure LockOrder (Mutex : Type*) where
  rank : Mutex → ℕ
  bound : ℕ
  inverted : Mutex → Mutex → Prop
  rank_le : ∀ m, rank m ≤ bound
  irrefl : ∀ m, ¬ inverted m m
  unchained : ∀ h m x, inverted h m → ¬ inverted m x
  covered : ∀ h m x, inverted h m → rank m < rank x → rank x ≤ rank h → x = h

namespace LockOrder

variable (order : LockOrder Mutex)

/-- The acquisitions the order allows. -/
def Allows (h m : Mutex) : Prop := order.rank h < order.rank m ∨ order.inverted h m

variable {order} {s : Tid → Stack Mutex}

theorem not_selfAcquires (ordered : ∀ t, StackOrdered order.Allows (s t)) : ¬ SelfAcquires s := by
  rintro ⟨t, m, waits, holds⟩
  rcases ok_of_awaits (ordered t) waits holds with less | inv
  · exact lt_irrefl _ less
  · exact order.irrefl m inv

/-- Among threads that wait for each other, take one whose awaited mutex has the greatest rank. Its
holder waits for a lower one, which only an inversion allows, and the holder of that one waits for
the first mutex again: the two cross. -/
theorem not_deadlocked (ordered : ∀ t, StackOrdered order.Allows (s t))
    (crossing : NoCrossing order.inverted s) : ¬ Deadlocked s := by
  rintro ⟨threads, ⟨t₀, member₀⟩, waiting⟩
  have greatest : ∃ t ∈ threads, ∃ m, awaits (s t) = some m ∧
      ∀ t' ∈ threads, ∀ m', awaits (s t') = some m' → order.rank m' ≤ order.rank m := by
    have bounded (n : ℕ) : ∀ t ∈ threads, ∀ m, awaits (s t) = some m →
        order.bound - order.rank m ≤ n → ∃ t ∈ threads, ∃ m, awaits (s t) = some m ∧
          ∀ t' ∈ threads, ∀ m', awaits (s t') = some m' → order.rank m' ≤ order.rank m := by
      induction n with
      | zero =>
        intro t member m waits top
        refine ⟨t, member, m, waits, fun t' _ m' _ => ?_⟩
        have := order.rank_le m'
        omega
      | succ n ih =>
        intro t member m waits near
        by_cases top : ∀ t' ∈ threads, ∀ m', awaits (s t') = some m' → order.rank m' ≤ order.rank m
        · exact ⟨t, member, m, waits, top⟩
        · push Not at top
          obtain ⟨t', member', m', waits', above⟩ := top
          have := order.rank_le m'
          exact ih t' member' m' waits' (by omega)
    obtain ⟨m, waits, -⟩ := waiting t₀ member₀
    exact bounded _ t₀ member₀ m waits le_rfl
  obtain ⟨t, member, m, waits, top⟩ := greatest
  obtain ⟨m', waits', t₁, member₁, -, holds₁⟩ := waiting t member
  obtain rfl : m' = m := Option.some.inj (waits'.symm.trans waits)
  obtain ⟨m₁, waits₁, t₂, member₂, distinct, holds₂⟩ := waiting t₁ member₁
  obtain ⟨m₂, waits₂, -⟩ := waiting t₂ member₂
  have below₁ := top t₁ member₁ m₁ waits₁
  have below₂ := top t₂ member₂ m₂ waits₂
  have inv : order.inverted m' m₁ :=
    (ok_of_awaits (ordered t₁) waits₁ holds₁).resolve_left (by omega)
  have above : order.rank m₁ < order.rank m₂ :=
    (ok_of_awaits (ordered t₂) waits₂ holds₂).resolve_right (order.unchained _ _ _ inv)
  obtain rfl : m₂ = m' := order.covered _ _ _ inv above below₂
  exact crossing m₂ m₁ inv t₁ t₂ distinct.symm (mayTake_of_awaits waits₁ holds₁)
    (mayTake_of_awaits waits₂ holds₂)

end LockOrder

theorem held_of_mayTake {h m : Mutex} {k : Stack Mutex} (may : MayTake h m k) : h ∈ held k := by
  induction k with
  | nil => exact may.elim
  | cons item k ih =>
    cases item with
    | run p =>
      rcases may with ⟨-, holds⟩ | may
      · exact holds
      · exact ih may
    | release x => exact List.mem_cons_of_mem _ (ih may)

section Rule
variable [DecidableEq Tid] {order : LockOrder Mutex} {start : (Tid → Stack Mutex) → Prop}
  {guard : (Tid → Stack Mutex) → Tid × Bool → Prop} {s : Tid → Stack Mutex}

theorem stackOrdered_of_reaches {ok : Mutex → Mutex → Prop} (reach : Transition.Reaches start guard Step s)
    (ordered : ∀ s, start s → ∀ t, StackOrdered ok (s t)) (t : Tid) : StackOrdered ok (s t) :=
  reach.invariant (fun s => ∀ t, StackOrdered ok (s t)) ordered
    (fun _ _ _ sorted _ step => stackOrdered_step sorted step) t

/-- The rule for whole runs: threads that start with nothing held, run ordered programs and enter
critical sections only while they are apart never deadlock. -/
theorem LockOrder.safe
    (reach : Transition.Reaches start (fun s event => Apart order.inverted s event.1) Step s)
    (idle : ∀ s, start s → ∀ t, held (s t) = [])
    (ordered : ∀ s, start s → ∀ t, StackOrdered order.Allows (s t)) :
    ¬ Deadlocked s ∧ ¬ SelfAcquires s := by
  have sorted := stackOrdered_of_reaches reach ordered
  have crossing : NoCrossing order.inverted s := by
    refine reach.invariant (NoCrossing order.inverted) ?_ ?_
    · intro s init h m _ t _ _ may
      have holds := held_of_mayTake may
      simp [idle s init t] at holds
    · intro s event s' crossing apart step
      exact crossing.step apart step
  exact ⟨not_deadlocked sorted crossing, not_selfAcquires sorted⟩

end Rule

/-- Every thread awaits a mutex that another one holds. -/
def AllWait (s : Tid → Stack Mutex) : Prop :=
  ∀ t, ∃ m ∈ awaits (s t), ∃ t', t' ≠ t ∧ m ∈ held (s t')

theorem AllWait.deadlocked {s : Tid → Stack Mutex} (wait : AllWait s) (t : Tid) : Deadlocked s := by
  refine ⟨Set.univ, ⟨t, trivial⟩, fun t _ => ?_⟩
  obtain ⟨m, waits, t', distinct, holds⟩ := wait t
  exact ⟨m, waits, t', trivial, distinct, holds⟩

section Executable
variable [DecidableEq Mutex] [DecidableEq Tid] [Fintype Tid]

instance (inverted : Mutex → Mutex → Prop) [DecidableRel inverted] (s : Tid → Stack Mutex) (t : Tid) :
    Decidable (Apart inverted s t) :=
  decidable_of_iff (∀ e ∈ entering (s t), ∀ x ∈ e.2.takes, inverted e.1 x ∨ inverted x e.1 →
      ∀ t', t' ≠ t → ¬ MayTake x e.1 (s t'))
    ⟨fun all m body enters => all (m, body) enters, fun apart e enters => apart e.1 e.2 enters⟩

/-- The step function for finitely many threads, refused where a guard does not hold. -/
def attempt (guard : (Tid → Stack Mutex) → Tid × Bool → Prop) [∀ s event, Decidable (guard s event)]
    (s : Tid → Stack Mutex) (event : Tid × Bool) : Except Unit (Tid → Stack Mutex) :=
  if guard s event ∧ ∀ m ∈ awaits (s event.1), ∀ t, m ∉ held (s t) then
    match advance event.2 (s event.1) with
    | some k => .ok (Function.update s event.1 k)
    | none => .error ()
  else .error ()

theorem attempt_sound {guard : (Tid → Stack Mutex) → Tid × Bool → Prop}
    [∀ s event, Decidable (guard s event)] {s s' : Tid → Stack Mutex} {event : Tid × Bool}
    (taken : attempt guard s event = .ok s') : guard s event ∧ Step s event s' := by
  unfold attempt at taken
  split at taken
  · next allowed =>
    rcases next : advance event.2 (s event.1) with _ | k
    · simp [next] at taken
    · rw [next] at taken
      exact ⟨allowed.1, allowed.2, k, next, (Except.ok.inj taken).symm⟩
  · simp at taken

instance (s : Tid → Stack Mutex) : Decidable (AllWait s) :=
  inferInstanceAs (Decidable (∀ t, ∃ m ∈ awaits (s t), ∃ t', t' ≠ t ∧ m ∈ held (s t')))

end Executable

end Locking
