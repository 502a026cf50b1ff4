import BlockFs.SuperBlock

namespace BlockFs

abbrev FilePtr := Nat
abbrev DirectoryPtr := Nat
/-- A `FileBlock` object never moves off its slot, so its pointer is the slot index. -/
abbrev FileBlockPtr := Nat

/-- `metaSlot` is the slot the object's `meta_` points at. -/
structure Directory where
  metaSlot : Nat
  nlink : Int
  itemMaps : Map Nat FilePtr
  childDirMaps : Map Nat DirectoryPtr

structure File where
  metaSlot : Nat
  nlink : Int
  locked : Bool
  deleted : Bool
  itemMaps : Map Nat FileBlockPtr

structure OpenFile where
  file : FilePtr
  appendPos : Nat

structure ParentFile where
  metaSlot : Nat
  offset : Nat
  fbMaps : Map Nat FileBlockPtr

structure BlockFsDirent where
  dIno : Nat
  dIsDir : Bool
  dReclen : Nat
  dName : Name
  dTime : Int

/-- `BLOCKFS_DIR`, an open directory stream. -/
structure DirStream where
  inited : Bool
  fd : Int
  index : Nat
  dir : DirectoryPtr
  dirItems : List BlockFsDirent

/-- A metadata write: one page of directory or file slots as they stood in memory, or the one slot
of a file block. -/
inductive MetaWrite
  | dirPage (alignIndex : Nat) (slots : Nat → DirMeta)
  | filePage (alignIndex : Nat) (slots : Nat → FileMeta)
  | fileBlock (index : Nat) (slot : FileBlockMeta)

/-- The device: its metadata regions slot by slot, and the bytes from the data start on, addressed
by device offset. -/
structure Disk where
  size : Nat
  superMeta : SuperBlockMeta
  dirMetas : Nat → DirMeta
  fileMetas : Nat → FileMeta
  fileBlockMetas : Nat → FileBlockMeta
  data : Nat → UInt8

def dirsPerPage : Nat := kBlockFsPageSize / kBlockFsDirMetaSize
def filesPerPage : Nat := kBlockFsPageSize / kBlockFsFileMetaSize

/-- `PageAlignIndex` of both handles: the first slot of the page that holds slot `index`. -/
def pageAlignIndex (perPage index : Nat) : Nat := index - index % perPage

namespace Disk

def apply (d : Disk) : MetaWrite → Disk
  | .dirPage a slots =>
    { d with dirMetas := fun i => if a ≤ i ∧ i < a + dirsPerPage then slots i else d.dirMetas i }
  | .filePage a slots =>
    { d with fileMetas := fun i => if a ≤ i ∧ i < a + filesPerPage then slots i else d.fileMetas i }
  | .fileBlock b slot => { d with fileBlockMetas := Function.update d.fileBlockMetas b slot }

/-- The image left by a list of metadata writes, oldest first. -/
def replay (d : Disk) (writes : List MetaWrite) : Disk := writes.foldl apply d

/-- `Device::PwriteCache`: `len` bytes of a buffer, from its byte `start` on. -/
def pwriteCache (d : Disk) (buffer : Nat → UInt8) (start len offset : Nat) : Disk × Int :=
  if d.size < (offset + len) % 2 ^ 64 then (d, -1)
  else
    ({ d with data := fun x =>
        if offset ≤ x ∧ x < offset + len then buffer (start + (x - offset)) else d.data x }, len)

/-- `Device::PreadCache`: `len` bytes into a buffer, from its byte `start` on. -/
def preadCache (d : Disk) (buffer : Nat → UInt8) (start len offset : Nat) :
    (Nat → UInt8) × Int :=
  if d.size < (offset + len) % 2 ^ 64 then (buffer, -1)
  else
    (fun i => if start ≤ i ∧ i < start + len then d.data (offset + (i - start)) else buffer i, len)

end Disk

/-- What the outside world decides during one call: the clock, the order in which the unordered
block pool is walked, which metadata writes reach the device, and the outcome of a flush. -/
structure Env where
  now : Int
  order : List Nat → List Nat
  order_perm : ∀ pool, (order pool).Perm pool
  writeOk : Nat → Bool
  fsyncOk : Bool

/-- Every way the process can stop inside a call: a failed assertion, a null dereference, or an
index outside an array. -/
inductive Fault
  | itemMapsNotEmpty
  | itemMapsEmpty
  | fileBlockUsed
  | fileBlockNotEmpty
  | fileCutMismatch
  | blockIndex
  | nullFileBlock
  | nullParent
  | childRemoved
  | blockLock
  | direntOverflow
  | fuel
  deriving DecidableEq

/-- The state of a mounted file system: the four metadata handles and the fd pool with the objects
they point to, the in-memory metadata slots, the device, and `errno`. `journal` lists the metadata
writes that reached the device and `attempts` counts those tried. -/
structure FileSystem where
  superMeta : SuperBlockMeta
  maxBlockNum : Nat
  blockIdPool : List Nat
  dirMetas : Nat → DirMeta
  freeDhs : List Nat
  directories : Nat → Directory
  nextDirectory : Nat
  createdDirs : Map Name DirectoryPtr
  createdDhs : Map Nat DirectoryPtr
  openDirs : Map Nat DirectoryPtr
  dirStreams : Map Nat DirStream
  nextStream : Nat
  fileMetas : Nat → FileMeta
  freeFhs : List Nat
  files : Nat → File
  nextFile : Nat
  createdFiles : Map (Nat × Name) FilePtr
  createdFhs : Map Nat FilePtr
  openFiles : Map Nat OpenFile
  parentFiles : Map Nat ParentFile
  fileBlockMetas : Nat → FileBlockMeta
  freeFbhs : List Nat
  freeFdPool : List Int
  disk : Disk
  journal : List MetaWrite
  attempts : Nat
  errno : Errno

namespace FileSystem

@[simp] def storeErrno (s : FileSystem) (e : Option Errno) : FileSystem :=
  { s with errno := e.getD s.errno }

@[simp] def modifyFile (s : FileSystem) (f : FilePtr) (g : File → File) : FileSystem :=
  { s with files := Function.update s.files f (g (s.files f)) }

@[simp] def modifyDirectory (s : FileSystem) (d : DirectoryPtr) (g : Directory → Directory) :
    FileSystem :=
  { s with directories := Function.update s.directories d (g (s.directories d)) }

@[simp] def modifyFileMeta (s : FileSystem) (fh : Nat) (g : FileMeta → FileMeta) : FileSystem :=
  { s with fileMetas := Function.update s.fileMetas fh (g (s.fileMetas fh)) }

@[simp] def modifyDirMeta (s : FileSystem) (dh : Nat) (g : DirMeta → DirMeta) : FileSystem :=
  { s with dirMetas := Function.update s.dirMetas dh (g (s.dirMetas dh)) }

@[simp] def setFileBlockMeta (s : FileSystem) (b : FileBlockPtr) (m : FileBlockMeta) : FileSystem :=
  { s with fileBlockMetas := Function.update s.fileBlockMetas b m }

/-- The slot a file object points at. -/
def fileMeta (s : FileSystem) (f : FilePtr) : FileMeta := s.fileMetas (s.files f).metaSlot
def dirMeta (s : FileSystem) (d : DirectoryPtr) : DirMeta := s.dirMetas (s.directories d).metaSlot

/-- `PwriteDirect` on a metadata region. -/
def pwriteDirect (s : FileSystem) (env : Env) (w : MetaWrite) : FileSystem × Bool :=
  if env.writeOk s.attempts then
    ({ s with disk := s.disk.apply w, journal := s.journal ++ [w], attempts := s.attempts + 1 }, true)
  else ({ s with attempts := s.attempts + 1 }, false)

section Writers
variable [Crc32]

/-- `File::WriteMeta(fh)`: refreshes the checksum of one slot and writes its whole page. -/
def writeFileMeta (s : FileSystem) (env : Env) (fh : Nat) : FileSystem × Bool :=
  let s := s.modifyFileMeta fh FileMeta.sealed
  let alignIndex := pageAlignIndex (kBlockFsPageSize / s.superMeta.fileMetaSize) fh
  s.pwriteDirect env (.filePage alignIndex s.fileMetas)

/-- `Directory::WriteMeta`. -/
def writeDirMeta (s : FileSystem) (env : Env) (dh : Nat) : FileSystem × Bool :=
  let s := s.modifyDirMeta dh DirMeta.sealed
  let alignIndex := pageAlignIndex (kBlockFsPageSize / s.superMeta.dirMetaSize) dh
  s.pwriteDirect env (.dirPage alignIndex s.dirMetas)

/-- `FileBlock::WriteMeta(index)`. -/
def writeFileBlockMeta (s : FileSystem) (env : Env) (b : FileBlockPtr) : FileSystem × Bool :=
  let s := s.setFileBlockMeta b (s.fileBlockMetas b).sealed
  s.pwriteDirect env (.fileBlock b (s.fileBlockMetas b))

end Writers

end FileSystem

end BlockFs
