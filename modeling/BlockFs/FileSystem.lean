import BlockFs.OpenFile

namespace BlockFs.FileSystem
variable [Crc32]

/-- `FileSystem::CreateFile`. -/
def createFilePath (s : FileSystem) (env : Env) (path : Name) : FileSystem × Int :=
  match s.createFile env path false with
  | (s, none) => (s, -1)
  | (s, some _) => (s, 0)

/-- `FileSystem::RenamePath`: an existing target is refused before the source is looked up. -/
def renamePath (s : FileSystem) (env : Env) (oldpath newpath : Name) : FileSystem × Int :=
  if oldpath.isEmpty || newpath.isEmpty then ({ s with errno := EINVAL }, -1)
  else
    match s.getCreatedFile newpath with
    | .ok _ => (s, -1)
    | .error e =>
      let s := s.storeErrno e
      match s.getCreatedFile oldpath with
      | .ok f => s.fileRename env f newpath
      | .error e =>
        let s := s.storeErrno e
        match s.getCreatedDirectory oldpath with
        | .error _ => ({ s with errno := ENOENT }, -1)
        | .ok _ => s.renameDirectory env oldpath newpath

/-- `FileSystem::TruncateFile` on a path; the signed length becomes an unsigned offset. -/
def truncatePath (s : FileSystem) (env : Env) (filename : Name) (size : Int) :
    Except Fault (FileSystem × Int) :=
  match s.getCreatedFile filename with
  | .error _ => .ok ({ s with errno := ENOENT }, -1)
  | .ok f => s.ftruncate env f (toU64 size)

/-- `FileSystem::TruncateFile` on an fd. -/
def truncateFd (s : FileSystem) (env : Env) (fd : Int) (size : Int) :
    Except Fault (FileSystem × Int) :=
  match s.getOpenFile (toU64 fd) with
  | .error _ => .ok ({ s with errno := ENOENT }, -1)
  | .ok o => s.ftruncate env o.file (toU64 size)

inductive LockType
  | unlck
  | rdlck
  | wrlck
  | other
  deriving DecidableEq

/-- `FileSystem::FcntlFile`. -/
def fcntlFile (s : FileSystem) (fd : Int) (lockType : LockType) : FileSystem × Int :=
  match s.getOpenFile (toU64 fd) with
  | .error e => (s.storeErrno e, -1)
  | .ok o =>
    let lock : FileSystem × Int :=
      if (s.files o.file).locked then ({ s with errno := EACCES }, -1)
      else (s.modifyFile o.file fun f => { f with locked := true }, 0)
    match lockType with
    | .unlck =>
      if !(s.files o.file).locked then ({ s with errno := ENOLCK }, -1)
      else (s.modifyFile o.file fun f => { f with locked := false }, 0)
    | .rdlck => lock
    | .wrlck => lock
    | .other => (s, -1)

end BlockFs.FileSystem
