import BlockFs.FileLocks
import BlockFs.Counts
import BlockFs.Lib.Host

namespace BlockFs

def O_RDONLY : Nat := 0

/-- How a handler stops the process: with a fault of the file system, or where it follows a null `fi`. -/
inductive Crash
  | fault (fault : Fault)
  | nullInfo

/-- The descriptor that a handler works with: the one of `fi`, or one that it opens itself. -/
def FileSystem.infoFd [Crc32] (s : FileSystem) (env : Env) (path : Name) (fi : Option Nat) (flags : Nat) :
    Except Crash (FileSystem × Int) :=
  match fi with
  | some fh => .ok (s, toInt32 fh)
  | none => (s.openFile env path flags).mapError .fault

namespace FileSystem

/-- `bfs_copy_file_range`. What it closes at the end it has opened for a null `fi`, which
`copy_file_range` is not reached with. -/
def bfsCopyFileRange [Crc32] (s : FileSystem) (h : Posix.Host) (env : Env) (kernel : Posix.Kernel)
    (pathIn : Name) (fiIn : Option Nat) (offsetIn : Int) (pathOut : Name) (fiOut : Option Nat)
    (offsetOut : Int) (size flags : Nat) : Except Crash (FileSystem × Posix.Host × Int) := do
  let (s, fdIn) ← s.infoFd env pathIn fiIn O_RDONLY
  if fdIn = -1 then .ok (s, h, -s.errno)
  else
    let (s, fdOut) ← s.infoFd env pathOut fiOut O_WRONLY
    if fdOut = -1 then
      let s := (s.close env (toU64 fdIn)).1
      .ok (s, h, -s.errno)
    else
      match fiIn, fiOut with
      | some fhIn, some fhOut =>
        match h.copyFileRange kernel
            { fdIn := toInt32 fhIn, offsetIn := offsetIn, fdOut := toInt32 fhOut, offsetOut := offsetOut,
              size := size, flags := flags } with
        | .error e => .ok ({ s with errno := e }, h, -e)
        | .ok (h, n) => .ok (s, h, n)
      | _, _ => .error .nullInfo

/-- A byte in front of the end of a file. -/
def byteAt (s : FileSystem) (f : FilePtr) (position : Nat) : Option UInt8 :=
  if position < (s.fileMeta f).size then (s.fileAddress f position).map s.disk.data else none

/-- What the copy of a range promises: `n` bytes of `x` that were there to be copied stand in `y`, which
has grown for them if need be, and nothing else has changed in a file, in the metadata on the device
or on the host. -/
structure CopiesRange (s s' : FileSystem) (h h' : Posix.Host) (x y : FilePtr)
    (offsetIn offsetOut size n : Nat) : Prop where
  requested : n ≤ size
  available : n ≤ (s.fileMeta x).size - offsetIn
  copied : ∀ i < n, s'.byteAt y (offsetOut + i) = s.byteAt x (offsetIn + i)
  grown : (s'.fileMeta y).size = max (s.fileMeta y).size (offsetOut + n)
  sizes : ∀ f, f ≠ y → (s'.fileMeta f).size = (s.fileMeta f).size
  others : ∀ f position, position < (s.fileMeta f).size →
    ¬(f = y ∧ offsetOut ≤ position ∧ position < offsetOut + n) → s'.byteAt f position = s.byteAt f position
  superMeta : s'.disk.superMeta = s.disk.superMeta
  dirMetas : s'.disk.dirMetas = s.disk.dirMetas
  fileMetas : ∀ i, i ≠ (s.files y).metaSlot → s'.disk.fileMetas i = s.disk.fileMetas i
  fileBlockMetas : ∀ b, (s.fileBlockMetas b).used = true → b ∉ s.attached y →
    s'.disk.fileBlockMetas b = s.disk.fileBlockMetas b
  host : h'.contents = h.contents

/-- Nothing is left to be done: what the host is going to write stands in its file already, and `y` holds
as many bytes of `x`. -/
structure CopiedAlready (s : FileSystem) (h : Posix.Host) (kernel : Posix.Kernel) (args : Posix.CopyRange)
    (input output : Nat) (x y : FilePtr) : Prop where
  host : Posix.HasBytes (h.contents output) args.offsetOut.toNat (args.taken kernel (h.contents input))
  available : (args.taken kernel (h.contents input)).length ≤ (s.fileMeta x).size - args.offsetIn.toNat
  within : args.offsetOut.toNat + (args.taken kernel (h.contents input)).length ≤ (s.fileMeta y).size
  copied : ∀ i < (args.taken kernel (h.contents input)).length,
    s.byteAt y (args.offsetOut.toNat + i) = s.byteAt x (args.offsetIn.toNat + i)

/-- The numbers are handles that `open` returned for the two files. -/
structure Handles (s : FileSystem) (args : Posix.CopyRange) (x y : FilePtr) : Prop where
  input : s.openedFile (toU64 args.fdIn) = some x
  output : s.openedFile (toU64 args.fdOut) = some y
  inputRange : 0 ≤ args.fdIn ∧ args.fdIn < 2 ^ 31
  outputRange : 0 ≤ args.fdOut ∧ args.fdOut < 2 ^ 31

section Copying
variable [Crc32] {s : FileSystem} {h : Posix.Host} {env : Env} {kernel : Posix.Kernel}
  {args : Posix.CopyRange} {x y : FilePtr} {pathIn pathOut : Name} {input output : Nat}

/-- With two handles the call hands their numbers to the host, and the file system stays as it is. -/
theorem bfsCopyFileRange_handles (handles : s.Handles args x y) :
    s.bfsCopyFileRange h env kernel pathIn (some (toU64 args.fdIn)) args.offsetIn pathOut
      (some (toU64 args.fdOut)) args.offsetOut args.size args.flags =
    (match h.copyFileRange kernel args with
    | .error e => .ok ({ s with errno := e }, h, -e)
    | .ok (h, n) => .ok (s, h, n)) := by
  obtain ⟨_, _, ⟨lowIn, highIn⟩, lowOut, highOut⟩ := handles
  have numberIn : toInt32 (toU64 args.fdIn) = args.fdIn := toInt32_toU64 (by omega) highIn
  have numberOut : toInt32 (toU64 args.fdOut) = args.fdOut := toInt32_toU64 (by omega) highOut
  unfold bfsCopyFileRange infoFd
  simp only [numberIn, numberOut, Except.ok_bind]
  rw [if_neg (by omega), if_neg (by omega)]

omit [Crc32] in
/-- What a file system that was not touched has of the copy. -/
theorem copiesRange_self {offsetIn offsetOut size n : Nat} {h' : Posix.Host} :
    s.CopiesRange s h h' x y offsetIn offsetOut size n ↔
      n ≤ size ∧ n ≤ (s.fileMeta x).size - offsetIn ∧ offsetOut + n ≤ (s.fileMeta y).size ∧
        (∀ i < n, s.byteAt y (offsetOut + i) = s.byteAt x (offsetIn + i)) ∧ h'.contents = h.contents := by
  constructor
  · intro copies
    have grown := copies.grown
    exact ⟨copies.requested, copies.available, by omega, copies.copied, copies.host⟩
  · rintro ⟨requested, available, within, copied, host⟩
    exact
      { requested := requested
        available := available
        copied := copied
        grown := by omega
        sizes := fun _ _ => rfl
        others := fun _ _ _ _ => rfl
        superMeta := rfl
        dirMetas := rfl
        fileMetas := fun _ _ => rfl
        fileBlockMetas := fun _ _ _ => rfl
        host := host }

end Copying

section Concrete

/-- A process with its standard input and output redirected to files of one byte. -/
def redirected (input output : UInt8) : Posix.Host where
  descriptors fd :=
    if fd = 0 then some (.regular 0 true false) else if fd = 1 then some (.regular 1 false true) else none
  contents i := if i = 0 then [input] else [output]

def steadyKernel : Posix.Kernel where
  fails := none
  fails_positive := nofun
  limit := 2 ^ 20
  limit_positive := by decide

/-- The copy of the first byte between the first two handles. -/
def firstByte : Posix.CopyRange where
  fdIn := 0
  offsetIn := 0
  fdOut := 1
  offsetOut := 0
  size := 1
  flags := 0

theorem redirected_accepts (a b : UInt8) : (redirected a b).Accepts steadyKernel firstByte 0 1 where
  succeeds := rfl
  opensInput := ⟨false, rfl⟩
  opensOutput := ⟨false, rfl⟩
  flags := rfl
  offsetIn := by decide
  offsetOut := by decide
  apart := by decide

theorem firstByte_handles {s : FileSystem} (input : s.openedFile 0 = some 0)
    (output : s.openedFile 1 = some 1) : s.Handles firstByte 0 1 where
  input := input
  output := output
  inputRange := by decide
  outputRange := by decide

end Concrete

end FileSystem

end BlockFs
