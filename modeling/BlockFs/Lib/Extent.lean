import Mathlib.Algebra.Order.Ring.Int

/-!
Ranges of positions, which lie inside each other or apart, and what a write to one range leaves alone.
-/

/-- A range of positions. -/
structure Extent where
  start : Nat
  length : Nat

namespace Extent

/-- The first position behind a range. -/
def stop (e : Extent) : Nat := e.start + e.length

def Has (e : Extent) (x : Nat) : Prop := e.start ≤ x ∧ x < e.stop

instance (e : Extent) (x : Nat) : Decidable (e.Has x) := inferInstanceAs (Decidable (_ ∧ _))

def Within (e f : Extent) : Prop := f.start ≤ e.start ∧ e.stop ≤ f.stop

def Apart (e f : Extent) : Prop := e.stop ≤ f.start ∨ f.stop ≤ e.start

/-- An image after a write to a range. -/
def store {α : Type*} (e : Extent) (source image : Nat → α) (x : Nat) : α :=
  if e.Has x then source x else image x

section Ranges
variable {e f e' f' : Extent} {x : Nat}

theorem Apart.symm (apart : Apart e f) : Apart f e := Or.symm apart

theorem Within.trans (first : Within e f) (second : Within f e') : Within e e' :=
  ⟨second.1.trans first.1, first.2.trans second.2⟩

theorem Within.has (within : Within e f) (has : e.Has x) : f.Has x :=
  ⟨within.1.trans has.1, has.2.trans_le within.2⟩

/-- Ranges inside two ranges that are apart are apart. -/
theorem Apart.within (apart : Apart e f) (first : Within e' e) (second : Within f' f) : Apart e' f' := by
  rcases apart with before | behind
  · exact .inl ((first.2.trans before).trans second.1)
  · exact .inr ((second.2.trans behind).trans first.1)

theorem Apart.not_has (apart : Apart e f) (has : f.Has x) : ¬e.Has x := by
  intro there
  rcases apart with before | behind
  · exact absurd (there.2.trans_le before) (Nat.not_lt.mpr has.1)
  · exact absurd (has.2.trans_le behind) (Nat.not_lt.mpr there.1)

/-- A write does not reach a range apart from it. -/
theorem Apart.store {α : Type*} (apart : Apart e f) (has : f.Has x) (source image : Nat → α) :
    e.store source image x = image x := if_neg (apart.not_has has)

end Ranges

end Extent
