import BlockFs.FileSystem
import BlockFs.Lib.Fallible

namespace BlockFs

def S_IFREG : Nat := 0o100000
def S_IFDIR : Nat := 0o040000

/-- The ids of the process, as `getuid` and `getgid` report them. -/
structure Process where
  uid : Nat
  gid : Nat

/-- `struct stat`, without the prefixes of its fields. -/
structure Stat where
  dev : Nat
  ino : Nat
  mode : Nat
  nlink : Int
  uid : Nat
  gid : Nat
  rdev : Nat
  blksize : Nat
  blocks : Nat
  atime : Int
  mtime : Int
  ctime : Int
  size : Nat
  deriving DecidableEq

/-- What a path stands for. -/
inductive Entity
  | file (f : FilePtr)
  | directory (d : DirectoryPtr)
  deriving DecidableEq

namespace FileSystem

/-- `File::GetBlockNumber`, summed in 32 bits. -/
def getBlockNumber (s : FileSystem) (f : FilePtr) : Nat :=
  ((s.files f).itemMaps.entries.map fun e => (s.fileBlockMetas e.2).usedBlockNum).sum % 2 ^ 32

/-- `File::stat`. -/
def fileStat (s : FileSystem) (p : Process) (f : FilePtr) : Stat :=
  { dev := 0
    ino := (s.fileMeta f).fh
    mode := 0o755 ||| S_IFREG
    nlink := (s.files f).nlink
    uid := p.uid
    gid := p.gid
    rdev := 0
    blksize := kBlockSize
    blocks := s.getBlockNumber f * kBlockSize / 512
    atime := (s.fileMeta f).atime
    mtime := (s.fileMeta f).mtime
    ctime := (s.fileMeta f).ctime
    size := (s.fileMeta f).size }

/-- `Directory::stat`. -/
def directoryStat (s : FileSystem) (p : Process) (d : DirectoryPtr) : Stat :=
  { dev := 0
    ino := (s.dirMeta d).dh
    mode := 0o755 ||| S_IFDIR
    nlink := 0
    uid := p.uid
    gid := p.gid
    rdev := 0
    blksize := kBlockSize
    blocks := 0
    atime := (s.dirMeta d).atime
    mtime := (s.dirMeta d).mtime
    ctime := (s.dirMeta d).ctime
    size := (s.dirMeta d).size }

/-- `FileSystem::StatPath` on a path, with nothing in the buffer where it returns -1. Only a
directory is looked for behind a trailing separator. -/
def statPath (s : FileSystem) (p : Process) (path : Name) : FileSystem × Option Stat :=
  if path.isEmpty then ({ s with errno := EINVAL }, none)
  else if path.getLast? = some '/' then
    match s.getCreatedDirectory path with
    | .error _ => ({ s with errno := ENOENT }, none)
    | .ok d => ({ s with errno := 0 }, some (s.directoryStat p d))
  else
    match s.getCreatedFile path with
    | .ok f => ({ s with errno := 0 }, some (s.fileStat p f))
    | .error _ =>
      match s.getCreatedDirectory path with
      | .error _ => ({ s with errno := ENOENT }, none)
      | .ok d => ({ s with errno := 0 }, some (s.directoryStat p d))

/-- What `path` stands for: a file comes before a directory of the same name. -/
def resolve (s : FileSystem) (path : Name) : Option Entity :=
  match s.getCreatedFile path with
  | .ok f => some (.file f)
  | .error _ => s.getCreatedDirectory path |>.toOption.map .directory

/-- The attributes of what a path stands for. -/
def attributes (s : FileSystem) (p : Process) : Entity → Stat
  | .file f => s.fileStat p f
  | .directory d => s.directoryStat p d

section Resolution
variable {s : FileSystem} {path : Name} {f : FilePtr} {d : DirectoryPtr}

theorem resolve_file (found : s.getCreatedFile path = .ok f) : s.resolve path = some (.file f) := by
  rw [resolve, found]

theorem resolve_eq_file : s.resolve path = some (.file f) ↔ s.getCreatedFile path = .ok f := by
  constructor
  · intro found
    unfold resolve at found
    split at found
    · next g file =>
      obtain rfl : g = f := by simpa using found
      exact file
    · simp at found
  · exact resolve_file

theorem resolve_eq_none : s.resolve path = none ↔
    (∀ f, s.getCreatedFile path ≠ .ok f) ∧ ∀ d, s.getCreatedDirectory path ≠ .ok d := by
  rw [resolve]
  cases s.getCreatedFile path with
  | ok f => simp
  | error e =>
    cases s.getCreatedDirectory path with
    | ok d => simp [Except.toOption]
    | error e => simp [Except.toOption]

/-- No file is found behind a trailing separator. -/
theorem getCreatedFile_closed (closed : path.getLast? = some '/') :
    s.getCreatedFile path = .error (some ENOTDIR) := by
  rw [getCreatedFile, FileHandle.transformPath, if_pos closed]
  rfl

/-- `StatPath` reports on what the path stands for. -/
theorem statPath_found {x : Entity} (p : Process) (nonempty : path ≠ []) (found : s.resolve path = some x) :
    s.statPath p path = ({ s with errno := 0 }, some (s.attributes p x)) := by
  have filled : ¬path.isEmpty = true := by simpa using nonempty
  unfold resolve at found
  unfold statPath
  rw [if_neg filled]
  split
  · next closed =>
    rw [getCreatedFile_closed closed] at found
    dsimp only at found
    cases leads : s.getCreatedDirectory path with
    | ok d =>
      rw [leads] at found
      obtain rfl : Entity.directory d = x := Option.some.inj found
      rfl
    | error e =>
      rw [leads] at found
      simp [Except.toOption] at found
  · cases entry : s.getCreatedFile path with
    | ok f =>
      rw [entry] at found
      obtain rfl := Option.some.inj found
      rfl
    | error e =>
      rw [entry] at found
      dsimp only at found
      cases leads : s.getCreatedDirectory path with
      | ok d =>
        rw [leads] at found
        obtain rfl : Entity.directory d = x := Option.some.inj found
        rfl
      | error e =>
        rw [leads] at found
        simp [Except.toOption] at found

/-- `StatPath` fails with `ENOENT` on a path that stands for nothing. -/
theorem statPath_absent (p : Process) (nonempty : path ≠ []) (absent : s.resolve path = none) :
    s.statPath p path = ({ s with errno := ENOENT }, none) := by
  have filled : ¬path.isEmpty = true := by simpa using nonempty
  obtain ⟨file, directory⟩ := resolve_eq_none.mp absent
  unfold statPath
  rw [if_neg filled]
  cases leads : s.getCreatedDirectory path with
  | ok d => exact absurd leads (directory d)
  | error e =>
    cases entry : s.getCreatedFile path with
    | ok f => exact absurd entry (file f)
    | error e => simp

/-- A file is found by the directory part of a path and its last component. -/
theorem getCreatedFile_eq_ok : s.getCreatedFile path = .ok f ↔
    path.getLast? ≠ some '/' ∧ (getFileName path).length < kBlockFsMaxFileNameLen ∧
      ∃ dir, s.getCreatedDirectory (getDirName path) = .ok dir ∧
        s.createdFiles.lookup ((s.dirMeta dir).dh, getFileName path) = some f := by
  unfold getCreatedFile FileHandle.transformPath
  by_cases closed : path.getLast? = some '/'
  · simp [closed]
  · by_cases short : (getFileName path).length < kBlockFsMaxFileNameLen
    · rw [if_neg closed, if_neg (not_le.mpr short)]
      cases leads : s.getCreatedDirectory (getDirName path) with
      | error e => simp [leads]
      | ok dir =>
        cases entry : s.createdFiles.lookup ((s.dirMeta dir).dh, getFileName path) with
        | none => simp [leads, entry]
        | some g => simp [leads, entry, closed, short]
    · rw [if_neg closed, if_pos (not_lt.mp short)]
      simp [short]

/-- Two states in which a path leads to the same file and to the same directory resolve it alike. -/
theorem resolve_congr {s' : FileSystem}
    (file : ∀ f, s'.getCreatedFile path = .ok f ↔ s.getCreatedFile path = .ok f)
    (directory : s'.getCreatedDirectory path = s.getCreatedDirectory path) :
    s'.resolve path = s.resolve path := by
  cases found : s.getCreatedFile path with
  | ok f => rw [resolve_file found, resolve_file ((file f).mpr found)]
  | error e =>
    cases found' : s'.getCreatedFile path with
    | ok f => simp [(file f).mp found'] at found
    | error e' => rw [resolve, resolve, found, found', directory]

end Resolution

end FileSystem

end BlockFs
