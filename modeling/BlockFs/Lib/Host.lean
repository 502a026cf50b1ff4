import Mathlib.Data.List.Basic
import Mathlib.Logic.Function.Basic

/-!
The descriptors of a process on a POSIX host with the regular files that they are open on, and
`copy_file_range(2)` between them.
-/

namespace Posix

def EBADF : Nat := 9
def EINVAL : Nat := 22

/-- Bytes written over a file from `start` on, a gap behind its end filled with zeros. -/
def overwrite (file : List UInt8) (start : Nat) (bytes : List UInt8) : List UInt8 :=
  if bytes = [] then file
  else (file ++ List.replicate (start - file.length) 0).take start ++ bytes ++
    file.drop (start + bytes.length)

/-- The file has these bytes from `start` on. -/
def HasBytes (file : List UInt8) (start : Nat) (bytes : List UInt8) : Prop :=
  bytes = [] ∨ start + bytes.length ≤ file.length ∧ (file.drop start).take bytes.length = bytes

instance (file : List UInt8) (start : Nat) (bytes : List UInt8) : Decidable (HasBytes file start bytes) :=
  inferInstanceAs (Decidable (_ ∨ _))

/-- A write changes nothing exactly when its bytes are there. -/
theorem overwrite_eq_self {file bytes : List UInt8} {start : Nat} :
    overwrite file start bytes = file ↔ HasBytes file start bytes := by
  by_cases none : bytes = []
  · simp [overwrite, HasBytes, none]
  have some_ : 0 < bytes.length := List.length_pos_iff.mpr none
  rw [overwrite, if_neg none]
  have before : ((file ++ List.replicate (start - file.length) 0).take start).length = start := by
    rw [List.length_take, List.length_append, List.length_replicate]
    omega
  constructor
  · intro same
    have length := congrArg List.length same
    rw [List.length_append, List.length_append, before, List.length_drop] at length
    refine .inr ⟨by omega, ?_⟩
    have tail := congrArg (List.take bytes.length ∘ List.drop start) same
    simp only [Function.comp_apply] at tail
    rw [List.append_assoc, List.drop_append_of_le_length (Nat.le_of_eq before.symm), List.drop_of_length_le (Nat.le_of_eq before),
      List.nil_append, List.take_left] at tail
    exact tail.symm
  · intro has
    obtain ⟨within, here⟩ := has.resolve_left none
    have gap : start - file.length = 0 := by omega
    rw [gap, List.replicate_zero, List.append_nil, ← here, here, List.append_assoc]
    have rest : file.drop start = bytes ++ file.drop (start + bytes.length) := by
      rw [← List.drop_drop]
      nth_rewrite 1 [← List.take_append_drop bytes.length (file.drop start)]
      rw [here]
    rw [← rest, List.take_append_drop]

/-- What a descriptor stands for. Only regular files can be copied between. -/
inductive Descriptor
  | regular (inode : Nat) (readable writable : Bool)
  | other

structure Host where
  descriptors : Int → Option Descriptor
  contents : Nat → List UInt8

/-- What the kernel decides during a `copy_file_range`: an error of its own, and how much it copies at
most. -/
structure Kernel where
  fails : Option Nat
  fails_positive : ∀ e, fails = some e → 0 < e
  limit : Nat
  limit_positive : 0 < limit

/-- The arguments of a `copy_file_range`. -/
structure CopyRange where
  fdIn : Int
  offsetIn : Int
  fdOut : Int
  offsetOut : Int
  size : Nat
  flags : Nat

/-- The ranges share bytes of one file. -/
def CopyRange.Overlaps (args : CopyRange) (input output : Nat) : Prop :=
  input = output ∧ args.offsetIn < args.offsetOut + args.size ∧ args.offsetOut < args.offsetIn + args.size

instance (args : CopyRange) (input output : Nat) : Decidable (args.Overlaps input output) :=
  inferInstanceAs (Decidable (_ ∧ _))

/-- The bytes of a file that are copied. -/
def CopyRange.taken (args : CopyRange) (kernel : Kernel) (file : List UInt8) : List UInt8 :=
  (file.drop args.offsetIn.toNat).take (min args.size kernel.limit)

theorem CopyRange.taken_length (args : CopyRange) (kernel : Kernel) (file : List UInt8) :
    (args.taken kernel file).length ≤ args.size := by
  rw [CopyRange.taken, List.length_take]
  omega

namespace Host

/-- The file behind a number gets these bytes. -/
def store (h : Host) (output start : Nat) (bytes : List UInt8) : Host :=
  { h with contents := Function.update h.contents output (overwrite (h.contents output) start bytes) }

/-- `copy_file_range`. -/
def copyFileRange (h : Host) (kernel : Kernel) (args : CopyRange) : Except Nat (Host × Nat) :=
  match kernel.fails with
  | some e => .error e
  | none =>
    match h.descriptors args.fdIn, h.descriptors args.fdOut with
    | some (.regular input true _), some (.regular output _ true) =>
      if args.flags ≠ 0 ∨ args.offsetIn < 0 ∨ args.offsetOut < 0 ∨ args.Overlaps input output then .error EINVAL
      else .ok (h.store output args.offsetOut.toNat (args.taken kernel (h.contents input)),
        (args.taken kernel (h.contents input)).length)
    | some .other, some _ => .error EINVAL
    | some _, some .other => .error EINVAL
    | _, _ => .error EBADF

/-- The call goes through: both numbers are regular files open for it, and the arguments are in order. -/
structure Accepts (h : Host) (kernel : Kernel) (args : CopyRange) (input output : Nat) : Prop where
  succeeds : kernel.fails = none
  opensInput : ∃ writable, h.descriptors args.fdIn = some (.regular input true writable)
  opensOutput : ∃ readable, h.descriptors args.fdOut = some (.regular output readable true)
  flags : args.flags = 0
  offsetIn : 0 ≤ args.offsetIn
  offsetOut : 0 ≤ args.offsetOut
  apart : ¬args.Overlaps input output

section Copying
variable {h h' : Host} {kernel : Kernel} {args : CopyRange} {input output n : Nat}

theorem Accepts.copies (accepts : h.Accepts kernel args input output) : h.copyFileRange kernel args =
    .ok (h.store output args.offsetOut.toNat (args.taken kernel (h.contents input)),
      (args.taken kernel (h.contents input)).length) := by
  obtain ⟨succeeds, ⟨_, opensInput⟩, ⟨_, opensOutput⟩, flags, offsetIn, offsetOut, apart⟩ := accepts
  unfold copyFileRange
  rw [succeeds, opensInput, opensOutput]
  dsimp only
  rw [if_neg]
  rintro (bad | bad | bad | bad)
  · exact bad flags
  · omega
  · omega
  · exact apart bad

/-- A call that does not fail was accepted. -/
theorem accepts_of_ok {out : Host × Nat} (result : h.copyFileRange kernel args = .ok out) :
    ∃ input output, h.Accepts kernel args input output := by
  unfold copyFileRange at result
  split at result
  · simp at result
  · next succeeds =>
    split at result
    · next input writable output readable opensInput opensOutput =>
      split at result
      · simp at result
      · next fine =>
        simp only [not_or, not_not, Int.not_lt] at fine
        obtain ⟨flags, offsetIn, offsetOut, apart⟩ := fine
        exact ⟨input, output, succeeds, ⟨_, opensInput⟩, ⟨_, opensOutput⟩, flags, offsetIn, offsetOut, apart⟩
    all_goals simp at result

/-- A call that fails says so with a positive number. -/
theorem copyFileRange_error {e : Nat} (result : h.copyFileRange kernel args = .error e) : 0 < e := by
  unfold copyFileRange at result
  split at result
  · next e' fails =>
    obtain rfl := Except.error.inj result
    exact kernel.fails_positive _ fails
  · split at result
    · split at result
      · rw [← Except.error.inj result]
        decide
      · simp at result
    all_goals
      rw [← Except.error.inj result]
      decide

/-- Nothing on the host changes exactly when the bytes are there. -/
theorem store_eq_self {start : Nat} {bytes : List UInt8} :
    (h.store output start bytes).contents = h.contents ↔ HasBytes (h.contents output) start bytes := by
  rw [← overwrite_eq_self, store]
  dsimp only
  constructor
  · intro same
    have here := congrFun same output
    rw [Function.update_self] at here
    exact here
  · intro same
    rw [same, Function.update_eq_self]

end Copying

end Host

end Posix
