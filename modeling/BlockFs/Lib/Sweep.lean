import Mathlib.Data.Set.Lattice
import Mathlib.Algebra.Order.Ring.Int

/-!
Transfers of a range piece by piece, where each piece may be moved in part or not at all, and the
number of bytes that such a transfer reports.
-/

namespace Sweep

/-- A piece of a range: places from `start` on, which lie at addresses from `target` on. -/
structure Segment where
  start : Nat
  target : Nat
  length : Nat

/-- What a device does on a piece: it moves the first places, and reports their number unless it
fails. -/
structure Answer where
  moved : Nat
  failed : Bool

/-- The value a device returns. -/
def Answer.value (a : Answer) : Int := if a.failed then -1 else a.moved

/-- The first places of a piece with their addresses. -/
def Segment.cells (p : Segment) (n : Nat) : Set (Nat × Nat) :=
  {c | ∃ i < n, c = (p.start + i, p.target + i)}

/-- Pieces one behind the other from `curr` to `total`, each at the addresses of its places. -/
inductive Covers (address : Nat → Nat) (total : Nat) : Nat → List Segment → Prop
  | done : Covers address total total []
  | more {curr p ps} (start : p.start = curr) (positive : 0 < p.length)
    (at_ : ∀ i < p.length, address (curr + i) = p.target + i)
    (rest : Covers address total (curr + p.length) ps) : Covers address total curr (p :: ps)

/-- The pieces a sweep gets to: it goes on for as long as the device reports that it moved
something. -/
def attempted : List (Segment × Answer) → List (Segment × Answer)
  | [] => []
  | (p, a) :: rest => (p, a) :: if 0 < a.value then attempted rest else []

/-- The places moved, with their addresses. -/
def moved (steps : List (Segment × Answer)) : Set (Nat × Nat) :=
  {c | ∃ step ∈ attempted steps, c ∈ step.1.cells step.2.moved}

/-- The sum of the positive values. -/
def total : List (Segment × Answer) → Int
  | [] => 0
  | (_, a) :: rest => if 0 < a.value then a.value + total rest else 0

/-- Behind a piece moved short nothing is moved, and a piece on which the sweep ends is not moved in
part. -/
def Orderly : List (Segment × Answer) → Prop
  | [] => True
  | (p, a) :: rest =>
    if 0 < a.value then (a.moved < p.length → ∀ next ∈ rest.head?, next.2.moved = 0) ∧ Orderly rest
    else a.moved = 0

/-- Every piece is moved in full. -/
def Full (steps : List (Segment × Answer)) : Prop := ∀ step ∈ steps, step.2.value = step.1.length

/-- No piece is moved past its end. -/
def Bounded (steps : List (Segment × Answer)) : Prop := ∀ step ∈ steps, step.2.moved ≤ step.1.length

section Steps
variable {address : Nat → Nat} {last curr : Nat} {p : Segment} {a : Answer}
  {steps rest : List (Segment × Answer)} {c : Nat × Nat}

theorem Answer.value_le (a : Answer) : a.value ≤ a.moved := by
  unfold value
  split <;> omega

theorem Answer.value_eq (a : Answer) (positive : 0 < a.value) : a.value = a.moved := by
  unfold value at positive ⊢
  split
  · next failed => simp [failed] at positive
  · rfl

theorem Segment.mem_cells {n : Nat} :
    c ∈ p.cells n ↔ p.start ≤ c.1 ∧ c.1 < p.start + n ∧ c.2 = p.target + (c.1 - p.start) := by
  constructor
  · rintro ⟨i, less, rfl⟩
    dsimp only
    omega
  · rintro ⟨low, high, same⟩
    refine ⟨c.1 - p.start, by omega, Prod.ext ?_ same⟩
    dsimp only
    omega

theorem total_nonneg (steps : List (Segment × Answer)) : 0 ≤ total steps := by
  induction steps with
  | nil => exact le_refl 0
  | cons step rest ih =>
    unfold total
    split <;> omega

@[simp] theorem moved_nil : moved [] = ∅ := by
  simp [moved, attempted]

theorem moved_stop (stop : ¬0 < a.value) : moved ((p, a) :: rest) = p.cells a.moved := by
  simp [moved, attempted, stop]

theorem moved_go (go : 0 < a.value) :
    moved ((p, a) :: rest) = p.cells a.moved ∪ moved rest := by
  ext c
  simp [moved, attempted, go]

theorem Covers.le {ps : List Segment} (covers : Covers address last curr ps) : curr ≤ last := by
  induction covers with
  | done => exact le_refl _
  | more _ _ _ _ ih => omega

/-- What a sweep moves lies at or behind the place it starts from. -/
theorem Covers.moved_ge (covers : Covers address last curr (steps.map Prod.fst))
    (member : c ∈ moved steps) : curr ≤ c.1 := by
  induction steps generalizing curr with
  | nil => simp at member
  | cons step rest ih =>
    obtain ⟨p, a⟩ := step
    replace covers : Covers address last curr (p :: rest.map Prod.fst) := covers
    cases covers with
    | more start positive at_ covers =>
      by_cases go : 0 < a.value
      · rw [moved_go go] at member
        rcases member with here | later
        · obtain ⟨low, _, _⟩ := Segment.mem_cells.mp here
          omega
        · have behind := ih covers later
          omega
      · rw [moved_stop go] at member
        obtain ⟨low, _, _⟩ := Segment.mem_cells.mp member
        omega

/-- What a sweep moves are the first places, as many as it reports. -/
def Exact (address : Nat → Nat) (curr : Nat) (steps : List (Segment × Answer)) : Prop :=
  moved steps = {c | curr ≤ c.1 ∧ (c.1 : Int) < curr + total steps ∧ c.2 = address c.1}

theorem Covers.cells_eq {ps : List Segment} (covers : Covers address last curr (p :: ps)) {n : Nat}
    (bound : n ≤ p.length) : c ∈ p.cells n ↔ curr ≤ c.1 ∧ c.1 < curr + n ∧ c.2 = address c.1 := by
  cases covers with
  | more start positive at_ covers =>
    rw [Segment.mem_cells, start]
    constructor
    · rintro ⟨low, high, same⟩
      have there := at_ (c.1 - curr) (by omega)
      rw [show curr + (c.1 - curr) = c.1 by omega] at there
      exact ⟨low, high, same.trans there.symm⟩
    · rintro ⟨low, high, same⟩
      have there := at_ (c.1 - curr) (by omega)
      rw [show curr + (c.1 - curr) = c.1 by omega] at there
      exact ⟨low, high, same.trans there⟩

/-- A sweep whose first piece ends it moves the places it reports exactly when it moves none. -/
theorem Covers.exact_stop (covers : Covers address last curr (p :: rest.map Prod.fst))
    (bound : a.moved ≤ p.length) (stop : ¬0 < a.value) :
    Exact address curr ((p, a) :: rest) ↔ a.moved = 0 := by
  have none : total ((p, a) :: rest) = 0 := if_neg stop
  rw [Exact, moved_stop stop, none]
  constructor
  · intro exact_
    by_contra some
    have first : (curr, address curr) ∈ p.cells a.moved :=
      (covers.cells_eq bound).mpr ⟨le_refl _, by dsimp only; omega, rfl⟩
    rw [exact_] at first
    obtain ⟨_, high, _⟩ := first
    dsimp only at high
    omega
  · intro zero
    ext c
    rw [covers.cells_eq bound, zero]
    constructor
    · rintro ⟨low, high, _⟩
      omega
    · rintro ⟨low, high, _⟩
      omega

/-- Behind a piece moved in full the sweep is exact when the rest of it is. -/
theorem Covers.exact_full (covers : Covers address last curr (p :: rest.map Prod.fst))
    (full : a.moved = p.length) (go : 0 < a.value) :
    Exact address curr ((p, a) :: rest) ↔ Exact address (curr + p.length) rest := by
  have sum : total ((p, a) :: rest) = p.length + total rest := by
    rw [total, if_pos go, a.value_eq go, full]
  have behind : Covers address last (curr + p.length) (rest.map Prod.fst) := by
    cases covers with
    | more _ _ _ covers => exact covers
  have first {c : Nat × Nat} := @Covers.cells_eq address last curr p c _ covers a.moved full.le
  have nonneg := total_nonneg rest
  rw [Exact, Exact, moved_go go, sum]
  constructor
  · intro exact_
    ext c
    have here := Set.ext_iff.mp exact_ c
    rw [Set.mem_union, first, full] at here
    constructor
    · intro member
      have low := behind.moved_ge member
      obtain ⟨_, high, same⟩ := here.mp (.inr member)
      exact ⟨low, by omega, same⟩
    · rintro ⟨low, high, same⟩
      rcases here.mpr ⟨by omega, by omega, same⟩ with ⟨_, before, _⟩ | member
      · omega
      · exact member
  · intro exact_
    ext c
    have there := Set.ext_iff.mp exact_ c
    rw [Set.mem_union, first, full]
    constructor
    · rintro (⟨low, high, same⟩ | member)
      · exact ⟨low, by omega, same⟩
      · obtain ⟨low, high, same⟩ := there.mp member
        exact ⟨by omega, by omega, same⟩
    · rintro ⟨low, high, same⟩
      by_cases before : c.1 < curr + p.length
      · exact .inl ⟨low, before, same⟩
      · exact .inr (there.mpr ⟨by omega, by omega, same⟩)

/-- Behind a piece moved short the sweep is exact when it moves nothing more. -/
theorem Covers.exact_short (covers : Covers address last curr (p :: rest.map Prod.fst))
    (short : a.moved < p.length) (go : 0 < a.value) :
    Exact address curr ((p, a) :: rest) ↔ moved rest = ∅ ∧ total rest = 0 := by
  have sum : total ((p, a) :: rest) = a.moved + total rest := by
    rw [total, if_pos go, a.value_eq go]
  have behind : Covers address last (curr + p.length) (rest.map Prod.fst) := by
    cases covers with
    | more _ _ _ covers => exact covers
  have first {c : Nat × Nat} := @Covers.cells_eq address last curr p c _ covers a.moved short.le
  have nonneg := total_nonneg rest
  rw [Exact, moved_go go, sum]
  constructor
  · intro exact_
    have zero : total rest = 0 := by
      by_contra some
      have gap : (curr + a.moved, address (curr + a.moved)) ∈ p.cells a.moved ∪ moved rest := by
        rw [exact_]
        exact ⟨by dsimp only; omega, by dsimp only; omega, rfl⟩
      rcases gap with here | later
      · obtain ⟨_, high, _⟩ := first.mp here
        dsimp only at high
        omega
      · have low := behind.moved_ge later
        dsimp only at low
        omega
    refine ⟨Set.eq_empty_iff_forall_notMem.mpr fun c member => ?_, zero⟩
    have low := behind.moved_ge member
    have here : c ∈ p.cells a.moved ∪ moved rest := .inr member
    rw [exact_, zero] at here
    obtain ⟨_, high, _⟩ := here
    omega
  · rintro ⟨none, zero⟩
    ext c
    rw [none, Set.union_empty, first, zero]
    constructor
    · rintro ⟨low, high, same⟩
      exact ⟨low, by omega, same⟩
    · rintro ⟨low, high, same⟩
      exact ⟨low, by omega, same⟩

/-- A sweep moves nothing exactly when its first piece is not moved. -/
theorem Covers.moved_empty (covers : Covers address last curr (steps.map Prod.fst)) :
    moved steps = ∅ ∧ total steps = 0 ↔ ∀ next ∈ steps.head?, next.2.moved = 0 := by
  cases steps with
  | nil => simp [total]
  | cons step rest =>
    obtain ⟨p, a⟩ := step
    have le := a.value_le
    constructor
    · rintro ⟨none, _⟩ next here
      obtain rfl := Option.some.inj here
      by_contra some
      have first : (p.start, p.target) ∈ moved ((p, a) :: rest) := by
        refine ⟨(p, a), by simp [attempted], 0, ?_, rfl⟩
        dsimp only at some ⊢
        omega
      rw [none] at first
      exact first
    · intro zero
      have here := zero (p, a) rfl
      have stop : ¬0 < a.value := by
        dsimp only at here
        omega
      refine ⟨?_, if_neg stop⟩
      rw [moved_stop stop]
      refine Set.eq_empty_iff_forall_notMem.mpr fun c member => ?_
      obtain ⟨i, less, _⟩ := member
      dsimp only at here
      omega

/-- A sweep moves the places it reports exactly when it is orderly. -/
theorem Covers.exact_iff (covers : Covers address last curr (steps.map Prod.fst))
    (bounded : Bounded steps) : Exact address curr steps ↔ Orderly steps := by
  induction steps generalizing curr with
  | nil =>
    rw [Orderly, iff_true, Exact, moved_nil, total]
    ext c
    constructor
    · exact False.elim
    · rintro ⟨low, high, _⟩
      omega
  | cons step rest ih =>
    obtain ⟨p, a⟩ := step
    replace covers : Covers address last curr (p :: rest.map Prod.fst) := covers
    have bound : a.moved ≤ p.length := bounded (p, a) List.mem_cons_self
    have behind : Covers address last (curr + p.length) (rest.map Prod.fst) := by
      cases covers with
      | more _ _ _ covers => exact covers
    have later := ih behind fun step member => bounded step (List.mem_cons_of_mem _ member)
    by_cases go : 0 < a.value
    · rw [Orderly, if_pos go]
      by_cases short : a.moved < p.length
      · rw [covers.exact_short short go, behind.moved_empty]
        constructor
        · intro none
          refine ⟨fun _ => none, ?_⟩
          cases rest with
          | nil => trivial
          | cons next rest =>
            have zero := none next rfl
            have le := next.2.value_le
            rw [Orderly, if_neg (by omega)]
            exact zero
        · exact fun orderly => orderly.1 short
      · rw [covers.exact_full (by omega) go, later]
        exact (and_iff_right fun impossible => absurd impossible short).symm
    · rw [covers.exact_stop bound go, Orderly, if_neg go]

/-- A sweep reports the length of the whole range exactly when every piece is moved in full. -/
theorem Covers.total_eq (covers : Covers address last curr (steps.map Prod.fst))
    (bounded : Bounded steps) :
    total steps ≤ last - curr ∧ (total steps = last - curr ↔ Full steps) := by
  induction steps generalizing curr with
  | nil =>
    cases covers with
    | done => simp [total, Full]
  | cons step rest ih =>
    obtain ⟨p, a⟩ := step
    replace covers : Covers address last curr (p :: rest.map Prod.fst) := covers
    have bound : a.moved ≤ p.length := bounded (p, a) List.mem_cons_self
    have le := a.value_le
    cases covers with
    | more start positive at_ behind =>
      obtain ⟨most, all⟩ := ih behind fun step member => bounded step (List.mem_cons_of_mem _ member)
      have ends := behind.le
      rw [Full, List.forall_mem_cons]
      dsimp only
      by_cases go : 0 < a.value
      · rw [total, if_pos go]
        refine ⟨by omega, ⟨fun same => ⟨by omega, all.mp (by omega)⟩, ?_⟩⟩
        rintro ⟨here, later⟩
        have rest_ := all.mpr later
        omega
      · rw [total, if_neg go]
        exact ⟨by omega, ⟨fun same => by omega, fun ⟨here, _⟩ => by omega⟩⟩

end Steps

end Sweep
