import Mathlib.Algebra.Order.Floor.Div

/-!
A range that is cut at the boundaries of cells of one length: how many pieces there are, where each
begins in the range, and in which cell it lies.
-/

namespace Cuts

variable {cell offset size k : Nat}

/-- The number of cells that a range of `size` places from `offset` on meets. -/
def count (cell offset size : Nat) : Nat := (offset + size) ⌈/⌉ cell - offset / cell

/-- The place of the range where its `k`-th piece begins. The first piece begins with the range, and
every other one with its cell. -/
def start (cell offset k : Nat) : Nat := k * cell - offset % cell

/-- The length of the `k`-th piece: up to the next boundary, or to the end of the range. -/
def length (cell offset size k : Nat) : Nat :=
  min size (start cell offset (k + 1)) - start cell offset k

@[simp] theorem start_zero : start cell offset 0 = 0 := by simp [start]

section
variable (positive : 0 < cell)
include positive

/-- Every boundary after the first piece is at a multiple of the length of a cell. -/
theorem add_start_succ (offset k : Nat) :
    offset + start cell offset (k + 1) = cell * (offset / cell + (k + 1)) := by
  have whole := Nat.div_add_mod offset cell
  have short := Nat.mod_lt offset positive
  have room : cell ≤ (k + 1) * cell := Nat.le_mul_of_pos_left cell (Nat.succ_pos k)
  have cut : start cell offset (k + 1) = (k + 1) * cell - offset % cell := rfl
  have total : cell * (offset / cell + (k + 1)) = cell * (offset / cell) + (k + 1) * cell := by
    rw [Nat.mul_add, Nat.mul_comm cell (k + 1)]
  omega

/-- The `k`-th piece begins in the `k`-th cell. -/
theorem div_start (offset k : Nat) : (offset + start cell offset k) / cell = offset / cell + k := by
  cases k with
  | zero => simp
  | succ k => rw [add_start_succ positive, Nat.mul_div_cancel_left _ positive]

theorem mod_start_succ (offset k : Nat) : (offset + start cell offset (k + 1)) % cell = 0 := by
  rw [add_start_succ positive, Nat.mul_mod_right]

/-- From the begin of a piece to the next boundary. -/
theorem start_succ (offset k : Nat) :
    start cell offset (k + 1) =
      start cell offset k + (cell - (offset + start cell offset k) % cell) := by
  have next := add_start_succ positive offset k
  have here := Nat.div_add_mod (offset + start cell offset k) cell
  have short := Nat.mod_lt (offset + start cell offset k) positive
  rw [div_start positive] at here
  rw [← Nat.add_assoc, Nat.mul_succ] at next
  omega

omit positive in
theorem length_zero : length cell offset size 0 = min size (cell - offset % cell) := by
  have next : start cell offset 1 = cell - offset % cell := by
    rw [start, Nat.one_mul]
  rw [length, start_zero, Nat.sub_zero, next]

theorem length_succ :
    length cell offset size (k + 1) = min (size - start cell offset (k + 1)) cell := by
  have next := start_succ positive offset (k + 1)
  rw [mod_start_succ positive] at next
  rw [length]
  omega

/-- A piece begins inside the range exactly when it is counted. -/
theorem start_lt (some_ : 0 < size) : start cell offset k < size ↔ k < count cell offset size := by
  have counted : k < count cell offset size ↔ offset / cell + k < (offset + size) ⌈/⌉ cell := by
    unfold count
    omega
  have ceiling : offset / cell + k < (offset + size) ⌈/⌉ cell ↔
      cell * (offset / cell + k) < offset + size := by
    rw [← not_iff_not, Nat.not_lt, Nat.not_lt, ceilDiv_le_iff_le_mul positive]
  rw [counted, ceiling]
  cases k with
  | zero =>
    have below := Nat.mul_div_le offset cell
    rw [start_zero, Nat.add_zero]
    omega
  | succ k =>
    rw [← add_start_succ positive]
    omega

theorem count_pos (some_ : 0 < size) : 0 < count cell offset size := by
  rw [← start_lt positive some_, start_zero]
  exact some_

section Piece
variable (some_ : 0 < size) (counted : k < count cell offset size)
include some_ counted

/-- A counted piece is not empty, ends where the next one begins or the range ends, and stays in its
cell. -/
theorem length_spec : 0 < length cell offset size k ∧
    start cell offset k + length cell offset size k = min size (start cell offset (k + 1)) ∧
    (offset + start cell offset k) % cell + length cell offset size k ≤ cell := by
  have begins := (start_lt positive some_).mpr counted
  have next := start_succ positive offset k
  have short := Nat.mod_lt (offset + start cell offset k) positive
  unfold length
  omega

/-- Only the last piece reaches the end of the range. -/
theorem reaches_end : size ≤ start cell offset k + length cell offset size k ↔
    k + 1 = count cell offset size := by
  have ends := (length_spec positive some_ counted).2.1
  have later : start cell offset (k + 1) < size ↔ k + 1 < count cell offset size :=
    start_lt positive some_
  omega

end Piece

/-- The pieces before the `k`-th fill the range up to it. -/
theorem sum_length (some_ : 0 < size) (counted : k ≤ count cell offset size) :
    ((List.range k).map (length cell offset size)).sum = min size (start cell offset k) := by
  induction k with
  | zero => simp
  | succ k ih =>
    have here : k < count cell offset size := counted
    have begins := (start_lt positive some_).mpr here
    have ends := (length_spec positive some_ here).2.1
    rw [List.range_succ, List.map_append, List.sum_append, ih here.le, List.map_singleton,
      List.sum_singleton]
    omega

/-- The pieces fill the range. -/
theorem sum_count (some_ : 0 < size) :
    ((List.range (count cell offset size)).map (length cell offset size)).sum = size := by
  rw [sum_length positive some_ (le_refl _), Nat.min_eq_left]
  have past : start cell offset (count cell offset size) < size ↔
      count cell offset size < count cell offset size := start_lt positive some_
  omega

end

end Cuts
