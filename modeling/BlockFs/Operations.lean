import BlockFs.Mount
import BlockFs.Lib.Reaches

namespace BlockFs

/-- The calls a mounted file system answers. -/
inductive Op
  | createFile (path : Name)
  | openFile (path : Name) (flags : Nat)
  | close (fd : Nat)
  | dup (oldfd : Int)
  | unlink (path : Name)
  | rename (oldpath newpath : Name)
  | truncatePath (path : Name) (size : Int)
  | truncateFd (fd size : Int)
  | pwrite (fd : Nat) (buffer : Nat → UInt8) (len : Nat) (offset : Int)
  | pread (fd len : Nat) (offset : Int)
  | read (fd : Int) (len : Nat)
  | seek (fd : Nat) (offset : Int) (whence : FileSystem.Whence)
  | fcntl (fd : Int) (lockType : FileSystem.LockType)
  | mkdir (path : Name)
  | rmdir (path : Name)
  | opendir (path : Name)
  | readdir (stream : Nat)
  | closedir (stream : Nat)

/-- One call together with what the outside world decides during it. -/
structure Event where
  env : Env
  op : Op

/-- Every metadata write and every flush of the call succeeds. -/
def Env.IoOk (env : Env) : Prop := (∀ attempt, env.writeOk attempt = true) ∧ env.fsyncOk = true

namespace FileSystem
variable [Crc32]

/-- The state after one call and the integer it returns; a buffer or an entry that comes back as
well is dropped. -/
def call (s : FileSystem) (env : Env) : Op → Except Fault (FileSystem × Int)
  | .createFile path => .ok (s.createFilePath env path)
  | .openFile path flags => s.openFile env path flags
  | .close fd => .ok (s.close env fd)
  | .dup oldfd => .ok (s.dup oldfd)
  | .unlink path => .ok (s.unlink env path)
  | .rename oldpath newpath => .ok (s.renamePath env oldpath newpath)
  | .truncatePath path size => s.truncatePath env path size
  | .truncateFd fd size => s.truncateFd env fd size
  | .pwrite fd buffer len offset => s.pwriteFile env fd buffer len offset
  | .pread fd len offset => do
    let (s, _, ret) ← s.preadFile fd (fun _ => 0) len offset
    .ok (s, ret)
  | .read fd len => do
    let (s, _, ret) ← s.readFile fd (fun _ => 0) len
    .ok (s, ret)
  | .seek fd offset whence => .ok (s.seekFile fd offset whence)
  | .fcntl fd lockType => .ok (s.fcntlFile fd lockType)
  | .mkdir path => s.createDirectory env path
  | .rmdir path => .ok (s.deleteDirectory env path)
  | .opendir path =>
    match s.openDirectory path with
    | (s, none) => .ok (s, -1)
    | (s, some stream) => .ok (s, stream)
  | .readdir stream => do
    let (s, item) ← s.readDirectory env stream
    .ok (s, if item.isSome then 0 else -1)
  | .closedir stream => .ok (s.closeDirectory stream)

/-- A call that runs to its end; one that stops the process leads nowhere. -/
def next (s : FileSystem) (e : Event) : Except Fault FileSystem :=
  match s.call e.env e.op with
  | .error fault => .error fault
  | .ok (s', _) => .ok s'

def Step (s : FileSystem) (e : Event) (s' : FileSystem) : Prop := s.next e = .ok s'

/-- A step is a call that returns. -/
theorem Step.call {s s' : FileSystem} {e : Event} (step : Step s e s') :
    ∃ r, s.call e.env e.op = .ok (s', r) := by
  rw [Step, next] at step
  split at step
  · simp at step
  · next t r result => exact ⟨r, Except.ok.inj step ▸ result⟩

/-- A device was formatted and the file system on it mounted. -/
def FreshlyMounted (s : FileSystem) : Prop :=
  ∃ (env : Env) (d : Disk),
    d.format.2 = true ∧ mountFileSystem env d.format.1 = .ok (s, 0)

/-- The states between the calls of a sequential run whose I/O succeeds and whose calls all meet
`guard`. -/
def Reachable (guard : FileSystem → Op → Prop) : FileSystem → Prop :=
  Transition.Reaches FreshlyMounted (fun s e => e.env.IoOk ∧ guard s e.op) Step

end FileSystem

end BlockFs
