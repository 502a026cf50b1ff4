import BlockFs.File

namespace BlockFs

def O_WRONLY : Nat := 1
def O_RDWR : Nat := 2
def O_CREAT : Nat := 0o100
def O_EXCL : Nat := 0o200
def O_TRUNC : Nat := 0o1000
def O_APPEND : Nat := 0o2000
def O_DIRECTORY : Nat := 0o200000
def O_TMPFILE : Nat := 0o20200000

/-- `flags & mask`, as a condition. -/
def hasFlag (flags mask : Nat) : Bool := flags &&& mask != 0

/-- `"tmpfile_" + std::to_string(fh)`. -/
def tmpFileName (fh : Nat) : Name :=
  ['t', 'm', 'p', 'f', 'i', 'l', 'e', '_'] ++ Nat.toDigits 10 fh

namespace FileSystem

/-- `NewFreeFileNolock` and `NewFreeTmpFileNolock`, which differ in the name and the flag they put
in the slot at the head of the free list. -/
def newFreeFile (s : FileSystem) (dh : Nat) (nameOf : Nat → Name) (isTemp : Bool) :
    FileSystem × Option FilePtr :=
  match s.freeFhs with
  | [] => ({ s with errno := ENFILE }, none)
  | fh :: rest =>
    if (s.fileMetas fh).used ∨ (s.fileMetas fh).fh ≠ fh ∨ (s.fileMetas fh).size ≠ 0 then
      ({ s with errno := EINVAL }, none)
    else
      let s := s.modifyFileMeta fh fun m =>
        { (m.setFileName (nameOf fh)) with used := true, fh := fh, dh := dh, isTemp := isTemp }
      let f := s.nextFile
      ({ s with
          files := Function.update s.files f
            { metaSlot := fh, nlink := 0, locked := false, deleted := false, itemMaps := ∅ }
          nextFile := f + 1
          freeFhs := rest }, some f)

def newFreeFileNolock (s : FileSystem) (dh : Nat) (filename : Name) : FileSystem × Option FilePtr :=
  s.newFreeFile dh (fun _ => filename) false

def newFreeTmpFileNolock (s : FileSystem) (dh : Nat) : FileSystem × Option FilePtr :=
  s.newFreeFile dh tmpFileName true

/-- `FileHandle::NewFile`: the parent directory and the new file. -/
def newFile (s : FileSystem) (env : Env) (dirname filename : Name) (tmpfile : Bool) :
    FileSystem × Option (DirectoryPtr × FilePtr) :=
  match s.getCreatedDirectory dirname with
  | .error _ => ({ s with errno := ENOENT }, none)
  | .ok dir =>
    let dh := (s.dirMeta dir).dh
    if !tmpfile && (s.createdFiles.lookup (dh, filename)).isSome then
      ({ s with errno := EEXIST }, none)
    else
      match if tmpfile then s.newFreeTmpFileNolock dh else s.newFreeFileNolock dh filename with
      | (s, none) => (s, none)
      | (s, some f) =>
        (s.modifyFileMeta (s.files f).metaSlot fun m =>
          { m with atime := env.now, mtime := env.now, ctime := env.now }, some (dir, f))

section Writers
variable [Crc32]

/-- The part of `FileHandle::CreateFile` behind the path: allocation, persistence, registration. -/
def createFileIn (s : FileSystem) (env : Env) (dirname filename : Name) (tmpfile : Bool) :
    FileSystem × Option FilePtr :=
  match s.newFile env dirname filename tmpfile with
  | (s, none) => (s, none)
  | (s, some (parentDir, f)) =>
    match s.writeMeta env f with
    | (s, false) => (s, none)
    | (s, true) => ({ s.addFileToDirectory parentDir f with errno := 0 }, some f)

/-- `FileHandle::CreateFile`; for a temporary file the path is that of the directory. -/
def createFile (s : FileSystem) (env : Env) (filename : Name) (tmpfile : Bool) :
    FileSystem × Option FilePtr :=
  if tmpfile then s.createFileIn env filename [] true
  else
    match FileHandle.transformPath filename with
    | .error e => (s.storeErrno e, none)
    | .ok (newDirname, newFilename) => s.createFileIn env newDirname newFilename false

/-- `FileHandle::UnlinkFileNolock`, the deferred deletion behind the last close. -/
def unlinkFileNolock (s : FileSystem) (env : Env) (fh : Nat) : FileSystem × Int :=
  match s.createdFhs.lookup fh with
  | none => ({ s with errno := ENOENT }, -1)
  | some f =>
    match s.createdDhs.lookup (s.fileMeta f).dh with
    | none => ({ s with errno := EISDIR }, -1)
    | some parentDir =>
      let s := s.modifyFileMeta (s.files f).metaSlot fun m =>
        { m with mtime := env.now, ctime := env.now }
      if 0 < (s.files f).nlink then (s, -1)
      else
        match s.removeAllFileBlock env f with
        | (s, false) => (s, -1)
        | (s, true) =>
          match s.release env f with
          | (s, false) => (s, -1)
          | (s, true) =>
            match s.removeFileFromoDirectory parentDir f with
            | (s, false) => (s, -1)
            | (s, true) => ({ s with errno := 0 }, 0)

/-- `FileHandle::FindFile`. -/
def findFile (s : FileSystem) (dirname filename : Name) : Lookup (DirectoryPtr × FilePtr) :=
  match s.getCreatedDirectory dirname with
  | .error _ => .error (some ENOENT)
  | .ok dir =>
    match s.createdFiles.lookup ((s.dirMeta dir).dh, filename) with
    | none => .error (some ENOENT)
    | some f => .ok (dir, f)

/-- `FileHandle::unlink`: a file that is open is only marked. -/
def unlink (s : FileSystem) (env : Env) (filename : Name) : FileSystem × Int :=
  match s.getCreatedDirectory filename with
  | .ok _ => ({ s with errno := EISDIR }, -1)
  | .error e =>
    let s := s.storeErrno e
    match FileHandle.transformPath filename with
    | .error e => (s.storeErrno e, -1)
    | .ok (newDirname, newFilename) =>
      match s.findFile newDirname newFilename with
      | .error e => (s.storeErrno e, -1)
      | .ok (parentDir, f) =>
        if 0 < (s.files f).nlink then (s.modifyFile f fun o => { o with deleted := true }, 0)
        else
          match s.removeAllFileBlock env f with
          | (s, false) => (s, -1)
          | (s, true) =>
            match s.release env f with
            | (s, false) => (s, -1)
            | (s, true) =>
              match s.removeFileFromoDirectory parentDir f with
              | (s, false) => (s, -1)
              | (s, true) => ({ s with errno := 0 }, 0)

/-- `IsNeedCreateTempFile`: the last value stored in `errno` and the verdict. -/
def isNeedCreateTempFile (flags : Nat) : Option Errno × Bool :=
  if !hasFlag flags O_TMPFILE then (none, false)
  else if !hasFlag flags O_RDWR && !hasFlag flags O_WRONLY then (some EINVAL, false)
  else (none, true)

/-- `VerifyOpenExistFileFlag`: the errno of a refusal. -/
def verifyOpenExistFileFlag (flags : Nat) : Option Errno :=
  if hasFlag flags O_CREAT && hasFlag flags O_EXCL then some EEXIST
  else if hasFlag flags O_DIRECTORY then some ENOTDIR
  else none

/-- The condition under which `open` truncates an existing file. -/
def truncatesOnOpen (flags : Nat) : Bool :=
  hasFlag flags O_TRUNC && hasFlag flags (O_RDWR ||| O_WRONLY)

/-- The first half of `FileHandle::open`: the file to be opened. -/
def openTarget (s : FileSystem) (env : Env) (filename : Name) (flags : Nat) :
    Except Fault (FileSystem × Option FilePtr) :=
  let (e, tmpfile) := isNeedCreateTempFile flags
  let s := s.storeErrno e
  if tmpfile then .ok (s.createFile env filename true)
  else
    match s.getCreatedDirectory filename with
    | .ok _ => .ok ({ s with errno := EISDIR }, none)
    | .error e =>
      let s := s.storeErrno e
      match s.getCreatedFile filename with
      | .error e =>
        let s := s.storeErrno e
        if hasFlag flags O_CREAT then .ok (s.createFile env filename false)
        else .ok ({ s with errno := ENOENT }, none)
      | .ok f =>
        match verifyOpenExistFileFlag flags with
        | some e => .ok ({ s with errno := e }, none)
        | none =>
          if truncatesOnOpen flags then do
            let (s, ret) ← s.ftruncate env f 0
            if ret < 0 then .ok (s, none) else .ok (s, some f)
          else .ok (s, some f)

/-- The second half of `FileHandle::open`. The fd is kept unsigned, so that an exhausted pool goes
unnoticed and its -1 becomes the key of the open file. -/
def openFd (s : FileSystem) (f : FilePtr) (flags : Nat) : FileSystem × Int :=
  match s.getFd with
  | (s, fd) =>
    let fd := toU64 fd
    let appendPos := if hasFlag flags O_APPEND then (s.fileMeta f).size else 0
    let s := { s with openFiles := s.openFiles.insert fd { file := f, appendPos := appendPos } }
    let s := s.modifyFile f fun o => { o with nlink := o.nlink + 1 }
    ({ s with errno := 0 }, toInt32 fd)

/-- `FileHandle::open`. -/
def openFile (s : FileSystem) (env : Env) (filename : Name) (flags : Nat) :
    Except Fault (FileSystem × Int) := do
  match ← s.openTarget env filename flags with
  | (s, none) => .ok (s, -1)
  | (s, some f) => .ok (s.openFd f flags)

/-- `FileHandle::GetOpenFile`. -/
def getOpenFile (s : FileSystem) (fd : Nat) : Lookup OpenFile :=
  match s.openFiles.lookup fd with
  | none => .error (some EBADF)
  | some o => .ok o

/-- The deferred deletion inside `FileHandle::close`: a temporary or unlinked file goes when its
link count reaches 0. -/
def closeLast (s : FileSystem) (env : Env) (f : FilePtr) : FileSystem :=
  if (s.files f).nlink = 0 then
    if (s.fileMeta f).isTemp then (s.unlinkFileNolock env (s.fileMeta f).fh).1
    else if (s.files f).deleted then (s.unlinkFileNolock env (s.fileMeta f).fh).1
    else s
  else s

/-- `FileHandle::close`. -/
def close (s : FileSystem) (env : Env) (fd : Nat) : FileSystem × Int :=
  match s.getOpenFile fd with
  | .error e => (s.storeErrno e, -1)
  | .ok o =>
    let s := s.modifyFile o.file fun f => { f with locked := false, nlink := f.nlink - 1 }
    let s := s.closeLast env o.file
    let s := { s with openFiles := s.openFiles.erase fd }
    ({ s.putFd (toInt32 fd) with errno := 0 }, 0)

/-- `FileHandle::dup`. -/
def dup (s : FileSystem) (oldfd : Int) : FileSystem × Int :=
  match s.getOpenFile (toU64 oldfd) with
  | .error e => (s.storeErrno e, -1)
  | .ok o => s.openFd o.file 0

end Writers

end FileSystem

end BlockFs
