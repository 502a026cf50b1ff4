import BlockFs.BlockHandle

namespace BlockFs.FileSystem

/-- `GetCreatedDirectory(dirname)`. -/
def getCreatedDirectory (s : FileSystem) (dirname : Name) : Lookup DirectoryPtr := do
  let dirName ← DirHandle.transformPath dirname
  match s.createdDirs.lookup dirName with
  | some d => .ok d
  | none => .error none

/-- `GetCreatedFile(filename)`. -/
def getCreatedFile (s : FileSystem) (filename : Name) : Lookup FilePtr := do
  let (newDirname, newFilename) ← FileHandle.transformPath filename
  let dir ← s.getCreatedDirectory newDirname
  match s.createdFiles.lookup ((s.dirMeta dir).dh, newFilename) with
  | some f => .ok f
  | none => .error (some ENOENT)

/-- `DirHandle::CheckFileExist`: the last value stored in `errno` and the verdict. -/
def checkFileExist (s : FileSystem) (dirname : Name) (checkParent : Bool) : Option Errno × Bool :=
  if isMountPoint dirname then (none, true)
  else
    let path := if dirname.getLast? = some '/' then dirname.dropLast else dirname
    match s.getCreatedFile path with
    | .ok _ => (some (if checkParent then EEXIST else ENOTDIR), false)
    | .error e =>
      let parentPath := getDirName dirname
      if !isMountPoint parentPath && checkParent then
        let parentPath := if parentPath.getLast? = some '/' then parentPath.dropLast else parentPath
        match s.getCreatedFile parentPath with
        | .ok _ => (some ENOTDIR, false)
        | .error e' => (e' <|> e, true)
      else (e, true)

/-- `DirHandle::NewFreeDirectoryNolock`. -/
def newFreeDirectoryNolock (s : FileSystem) (env : Env) (dirname : Name) :
    FileSystem × Option DirectoryPtr :=
  match s.freeDhs with
  | [] => ({ s with errno := ENFILE }, none)
  | dh :: rest =>
    if (s.dirMetas dh).used ∨ (s.dirMetas dh).dh ≠ dh then ({ s with errno := EINVAL }, none)
    else
      let s := s.modifyDirMeta dh fun m =>
        { (m.setDirName dirname) with
          used := true, dh := dh, atime := env.now, mtime := env.now, ctime := env.now }
      let dir := s.nextDirectory
      ({ s with
          directories := Function.update s.directories dir
            { metaSlot := dh, nlink := 0, itemMaps := ∅, childDirMaps := ∅ }
          nextDirectory := dir + 1
          freeDhs := rest }, some dir)

/-- `DirHandle::NewDirectory`: the parent, absent for the mount point, and the new directory. -/
def newDirectory (s : FileSystem) (env : Env) (dirname : Name) :
    FileSystem × Option (Option DirectoryPtr × DirectoryPtr) :=
  if (s.createdDirs.lookup dirname).isSome then ({ s with errno := EEXIST }, none)
  else if isMountPoint dirname then
    match s.newFreeDirectoryNolock env dirname with
    | (s, none) => (s, none)
    | (s, some dir) => (s, some (none, dir))
  else
    match s.createdDirs.lookup (getDirName dirname) with
    | none => ({ s with errno := ENOENT }, none)
    | some parent =>
      match s.newFreeDirectoryNolock env dirname with
      | (s, none) => (s, none)
      | (s, some dir) => (s, some (some parent, dir))

/-- `DirHandle::AddDirectory2CreateNolock`. -/
def addDirectory2CreateNolock (s : FileSystem) (child : DirectoryPtr) : FileSystem × Bool :=
  if (s.createdDirs.lookup (s.dirMeta child).dirName).isSome then (s, false)
  else if (s.createdDhs.lookup (s.dirMeta child).dh).isSome then (s, false)
  else
    ({ s with
        createdDirs := s.createdDirs.insert (s.dirMeta child).dirName child
        createdDhs := s.createdDhs.insert (s.dirMeta child).dh child }, true)

/-- `DirHandle::RemoveDirectoryFromCreateNolock`. -/
def removeDirectoryFromCreateNolock (s : FileSystem) (child : DirectoryPtr) : FileSystem × Bool :=
  if (s.createdDirs.lookup (s.dirMeta child).dirName).isNone then (s, false)
  else
    let s := { s with createdDirs := s.createdDirs.erase (s.dirMeta child).dirName }
    if (s.createdDhs.lookup (s.dirMeta child).dh).isNone then (s, false)
    else ({ s with createdDhs := s.createdDhs.erase (s.dirMeta child).dh }, true)

/-- `Directory::AddChildDirectory`. -/
def addChildDirectory (s : FileSystem) (parent child : DirectoryPtr) : FileSystem × Bool :=
  if ((s.directories parent).childDirMaps.lookup (s.dirMeta child).dh).isSome then (s, false)
  else
    (s.modifyDirectory parent fun d =>
      { d with childDirMaps := d.childDirMaps.insert (s.dirMeta child).dh child }, true)

/-- `Directory::RemovChildDirectory`. -/
def removChildDirectory (s : FileSystem) (parent child : DirectoryPtr) : FileSystem × Bool :=
  if ((s.directories parent).childDirMaps.lookup (s.dirMeta child).dh).isNone then (s, false)
  else
    (s.modifyDirectory parent fun d =>
      { d with childDirMaps := d.childDirMaps.erase (s.dirMeta child).dh }, true)

/-- `Directory::AddChildFile`. -/
def addChildFile (s : FileSystem) (parent : DirectoryPtr) (file : FilePtr) : FileSystem × Bool :=
  if ((s.directories parent).itemMaps.lookup (s.fileMeta file).fh).isSome then (s, false)
  else
    (s.modifyDirectory parent fun d =>
      { d with itemMaps := d.itemMaps.insert (s.fileMeta file).fh file }, true)

/-- `Directory::RemoveChildFile`. -/
def removeChildFile (s : FileSystem) (parent : DirectoryPtr) (file : FilePtr) : FileSystem × Bool :=
  if ((s.directories parent).itemMaps.lookup (s.fileMeta file).fh).isNone then (s, false)
  else
    (s.modifyDirectory parent fun d =>
      { d with itemMaps := d.itemMaps.erase (s.fileMeta file).fh }, true)

/-- `Directory::ChildCount`. -/
def childCount (s : FileSystem) (dir : DirectoryPtr) : Nat :=
  (s.directories dir).itemMaps.entries.length + (s.directories dir).childDirMaps.entries.length

/-- `DirHandle::AddDirectory`. Its rollback sits inside an assertion that fails when the rollback
succeeds. -/
def addDirectory (s : FileSystem) (parent : Option DirectoryPtr) (child : DirectoryPtr) :
    Except Fault (FileSystem × Bool) :=
  if isMountPoint (s.dirMeta child).dirName then
    match s.addDirectory2CreateNolock child with
    | (s, true) => .ok (s, true)
    | (_, false) => .error .nullParent
  else
    match parent with
    | none => .error .nullParent
    | some parent =>
      match s.addChildDirectory parent child with
      | (s, false) => .ok (s, false)
      | (s, true) =>
        match s.addDirectory2CreateNolock child with
        | (s, true) => .ok (s, true)
        | (s, false) =>
          match s.removChildDirectory parent child with
          | (_, true) => .error .childRemoved
          | (s, false) => .ok (s, false)

/-- `DirHandle::FindDirectory`: the parent and the directory itself. -/
def findDirectory (s : FileSystem) (dirname : Name) : Lookup (DirectoryPtr × DirectoryPtr) :=
  match s.createdDirs.lookup (getDirName dirname) with
  | none => .error (some ENOENT)
  | some parent =>
    match s.createdDirs.lookup dirname with
    | none => .error (some ENOENT)
    | some dir => .ok (parent, dir)

section Writers
variable [Crc32]

/-- The retry loop of `CreateDirectory` around `Directory::WriteMeta`. -/
def writeDirMetaRetry (env : Env) (dh : Nat) : (tries : Nat) → FileSystem → FileSystem × Bool
  | 0, s => (s, false)
  | tries + 1, s =>
    match s.writeDirMeta env dh with
    | (s, true) => (s, true)
    | (s, false) => writeDirMetaRetry env dh tries s

/-- `DirHandle::CreateDirectory`. -/
def createDirectory (s : FileSystem) (env : Env) (path : Name) :
    Except Fault (FileSystem × Int) :=
  let (e, absent) := s.checkFileExist path true
  let s := s.storeErrno e
  if !absent then .ok (s, -1)
  else
    match DirHandle.transformPath path with
    | .error e => .ok (s.storeErrno e, -1)
    | .ok dirName =>
      match s.newDirectory env dirName with
      | (s, none) => .ok (s, -1)
      | (s, some (parent, dir)) =>
        match writeDirMetaRetry env (s.dirMeta dir).dh 3 s with
        | (s, false) => .ok (s, -1)
        | (s, true) => do
          let (s, added) ← s.addDirectory parent dir
          if added then .ok ({ s with errno := 0 }, 0) else .ok (s, -1)

/-- `DirHandle::DeleteDirectory(path, recursive)`; the flag is never read. -/
def deleteDirectory (s : FileSystem) (env : Env) (path : Name) : FileSystem × Int :=
  let (e, absent) := s.checkFileExist path false
  let s := s.storeErrno e
  if !absent then (s, -1)
  else
    match DirHandle.transformPath path with
    | .error e => (s.storeErrno e, -1)
    | .ok dirName =>
      if isMountPoint path then ({ s with errno := EPERM ||| EBUSY }, -1)
      else
        match s.findDirectory dirName with
        | .error e => (s.storeErrno e, -1)
        | .ok (parent, dir) =>
          if 0 < s.childCount dir then ({ s with errno := ENOTEMPTY ||| EEXIST }, -1)
          else if (s.directories dir).nlink ≠ 0 then ({ s with errno := EBUSY }, -1)
          else
            let s := s.modifyDirMeta (s.directories dir).metaSlot fun m => m.clear.sealed
            match s.writeDirMeta env (s.dirMeta dir).dh with
            | (s, false) => (s, -1)
            | (s, true) =>
              match s.removChildDirectory parent dir with
              | (s, false) => (s, -1)
              | (s, true) =>
                match s.removeDirectoryFromCreateNolock dir with
                | (s, false) => (s, -1)
                | (s, true) => ({ s with errno := 0 }, 0)

/-- `Directory::rename`. The results of both removals from and insertions into the maps but one
are ignored. -/
def directoryRename (s : FileSystem) (env : Env) (dir : DirectoryPtr) (target : Name) :
    FileSystem × Int :=
  match s.getCreatedDirectory (getDirName target) with
  | .error e => (s.storeErrno e, -1)
  | .ok newParent =>
    match s.getCreatedDirectory (getDirName (s.dirMeta dir).dirName) with
    | .error e => (s.storeErrno e, -1)
    | .ok oldParent =>
      let (s, _) := s.removChildDirectory oldParent dir
      match s.removeDirectoryFromCreateNolock dir with
      | (s, false) => (s, -1)
      | (s, true) =>
        let s := s.modifyDirMeta (s.directories dir).metaSlot fun m => m.setDirName target
        let (s, _) := s.addDirectory2CreateNolock dir
        let (s, _) := s.addChildDirectory newParent dir
        match s.writeDirMeta env (s.dirMeta dir).dh with
        | (s, false) => (s, -1)
        | (s, true) => (s, 0)

/-- `DirHandle::RenameDirectory`, which negates the 0 or -1 of `Directory::rename`. -/
def renameDirectory (s : FileSystem) (env : Env) (source target : Name) : FileSystem × Int :=
  let (e, absent) := s.checkFileExist target true
  let s := s.storeErrno e
  if !absent then (s, -1)
  else if isMountPoint source || isMountPoint target then ({ s with errno := EPERM ||| EBUSY }, -1)
  else
    match DirHandle.transformPath source with
    | .error e => (s.storeErrno e, -1)
    | .ok fromDirName =>
      match DirHandle.transformPath target with
      | .error e => (s.storeErrno e, -1)
      | .ok toDirName =>
        match s.findDirectory fromDirName with
        | .error e => (s.storeErrno e, -1)
        | .ok (_, dir) =>
          let (s, ret) := s.directoryRename env dir toDirName
          if ret = 0 then (s, -1) else ({ s with errno := 0 }, 0)

end Writers

/-- `DirHandle::OpenDirectory`. -/
def openDirectory (s : FileSystem) (path : Name) : FileSystem × Option Nat :=
  match s.getCreatedDirectory path with
  | .error (some e) => ({ s with errno := e }, none)
  | .error none => ({ s with errno := ENOENT }, none)
  | .ok dir =>
    match s.getFd with
    | (s, fd) =>
      if fd < 0 then (s, none)
      else
        let s := s.modifyDirectory dir fun d => { d with nlink := d.nlink + 1 }
        ({ s with
            openDirs := s.openDirs.insert (toU64 fd) dir
            dirStreams := s.dirStreams.insert s.nextStream
              { inited := false, fd := fd, index := 0, dir := dir, dirItems := [] }
            nextStream := s.nextStream + 1 }, some s.nextStream)

/-- One entry of `Directory::ScanDir` for a child directory: the last component of its path with
the terminator written over the trailing separator. -/
def scanChildDirectory (s : FileSystem) (dir : DirectoryPtr) : Except Fault BlockFsDirent :=
  let name := (s.dirMeta dir).dirName
  let bare := getFileName (if name.getLast? = some '/' then name.dropLast else name)
  if 256 < bare.length + 1 then .error .direntOverflow
  else .ok { dIno := (s.dirMeta dir).dh, dIsDir := true, dReclen := 0, dName := bare,
             dTime := (s.dirMeta dir).atime }

def scanChildFile (s : FileSystem) (file : FilePtr) : BlockFsDirent :=
  { dIno := (s.fileMeta file).fh, dIsDir := false, dReclen := (s.fileMeta file).size % 2 ^ 32,
    dName := (s.fileMeta file).fileName, dTime := (s.fileMeta file).atime }

/-- `Directory::ScanDir`: child directories first, then files. -/
def scanDir (s : FileSystem) (dir : DirectoryPtr) : Except Fault (List BlockFsDirent) := do
  let dirs ← (s.directories dir).childDirMaps.entries.mapM fun child => s.scanChildDirectory child.2
  .ok (dirs ++ (s.directories dir).itemMaps.entries.map fun item => s.scanChildFile item.2)

/-- `DirHandle::ReadDirectory` on a stream that is still open. -/
def readDirectory [Crc32] (s : FileSystem) (env : Env) (stream : Nat) :
    Except Fault (FileSystem × Option BlockFsDirent) :=
  match s.dirStreams.lookup stream with
  | none => .ok (s, none)
  | some d => do
    let (s, d) ←
      if d.inited then .ok (s, d)
      else do
        let items ← s.scanDir d.dir
        let s := s.modifyDirMeta (s.directories d.dir).metaSlot fun m =>
          { m with mtime := env.now, ctime := env.now }.sealed
        .ok (s, { d with inited := true, dirItems := d.dirItems ++ items })
    match d.dirItems[d.index]? with
    | some item =>
      .ok ({ s with dirStreams := s.dirStreams.insert stream { d with index := d.index + 1 } },
        some item)
    | none => .ok ({ s with dirStreams := s.dirStreams.insert stream d }, none)

/-- `DirHandle::CloseDirectory`, which leaves the `open_dirs_` entry of the fd behind. -/
def closeDirectory (s : FileSystem) (stream : Nat) : FileSystem × Int :=
  match s.dirStreams.lookup stream with
  | none => (s, -1)
  | some d =>
    let s := s.putFd d.fd
    let s := s.modifyDirectory d.dir fun dir => { dir with nlink := dir.nlink - 1 }
    ({ s with dirStreams := s.dirStreams.erase stream }, 0)

end BlockFs.FileSystem
