import BlockFs.FileSystem

namespace BlockFs
variable [Crc32]

/-- The slots `FormatAllMeta` lays down, zero but for the fields it sets and their checksum. -/
def formattedDir (dh : Nat) : DirMeta :=
  DirMeta.sealed
    { crc := 0, dh := dh, size := 0, mode := 0, uid := 0, gid := 0, atime := 0, mtime := 0,
      ctime := 0, used := false, dirName := [] }

def formattedFile (fh : Nat) : FileMeta :=
  FileMeta.sealed
    { crc := 0, fh := fh, size := 0, nlink := 0, mode := 0, uid := 0, gid := 0, atime := 0,
      mtime := 0, ctime := 0, dh := 0, childFh := -1, parentFh := -1, parentSize := 0,
      used := false, isTemp := false, fileName := [] }

def formattedFileBlock (index : Nat) : FileBlockMeta :=
  FileBlockMeta.sealed
    { crc := 0, index := index, fh := 2 ^ 32 - 1, fileCut := 0, usedBlockNum := 0, used := false,
      isTemp := false, blockId := fun _ => 0 }

/-- `FileSystem::Format`: the four regions in their order, each written if it lies on the device.
The data blocks keep what they held. -/
def Disk.format (d : Disk) : Disk × Bool :=
  let super := SuperBlock.formatAllMeta d.size
  if d.size < kSuperBlockOffset + kSuperBlockSize then (d, false)
  else
    let d := { d with superMeta := super }
    if d.size < super.dirMetaOffset + super.dirMetaTotalSize then (d, false)
    else
      let d := { d with dirMetas := formattedDir }
      if d.size < super.fileMetaOffset + super.fileMetaTotalSize then (d, false)
      else
        let d := { d with fileMetas := formattedFile }
        if d.size < super.fileBlockMetaOffset + super.fileBlockMetaTotalSize then (d, false)
        else ({ d with fileBlockMetas := formattedFileBlock }, true)

namespace FileSystem

/-- The handles before `InitializeMeta`, over metadata read from the device. -/
def unmounted (d : Disk) : FileSystem :=
  { superMeta := d.superMeta
    maxBlockNum := 0
    blockIdPool := []
    dirMetas := d.dirMetas
    freeDhs := []
    directories := fun _ => { metaSlot := 0, nlink := 0, itemMaps := ∅, childDirMaps := ∅ }
    nextDirectory := 0
    createdDirs := ∅
    createdDhs := ∅
    openDirs := ∅
    dirStreams := ∅
    nextStream := 0
    fileMetas := d.fileMetas
    freeFhs := []
    files := fun _ => { metaSlot := 0, nlink := 0, locked := false, deleted := false, itemMaps := ∅ }
    nextFile := 0
    createdFiles := ∅
    createdFhs := ∅
    openFiles := ∅
    parentFiles := ∅
    fileBlockMetas := d.fileBlockMetas
    freeFbhs := []
    freeFdPool := (List.range' 0 (kMaxFileNum <<< 1)).map Int.ofNat
    disk := d
    journal := []
    attempts := 0
    errno := 0 }

/-- `SuperBlock::InitializeMeta`. -/
def superInitializeMeta (s : FileSystem) : Bool :=
  s.superMeta.crc == s.superMeta.calcCrc && s.superMeta.magic == kBlockFsMagic

/-- `BlockHandle::InitializeMeta`: the ids up to the block count, which is narrowed to 32 bits. -/
def blockInitializeMeta (s : FileSystem) : FileSystem :=
  let newMaxBlockNum := s.superMeta.currBlockNum % 2 ^ 32
  { s with
    blockIdPool := s.blockIdPool ++ List.range' s.maxBlockNum (newMaxBlockNum - s.maxBlockNum)
    maxBlockNum := newMaxBlockNum }

/-- One round of the first loop of `DirHandle::InitializeMeta`. -/
def initDirSlot (s : FileSystem) (dh : Nat) : FileSystem × Bool :=
  let slot := s.dirMetas dh
  if slot.crc ≠ slot.calcCrc then (s, false)
  else if slot.used then
    if slot.dirName.isEmpty then (s, false)
    else if slot.dh ≠ dh then (s, false)
    else
      let dir := s.nextDirectory
      { s with
        directories := Function.update s.directories dir
          { metaSlot := dh, nlink := 0, itemMaps := ∅, childDirMaps := ∅ }
        nextDirectory := dir + 1 }.addDirectory2CreateNolock dir
  else ({ s with freeDhs := s.freeDhs ++ [dh] }, true)

/-- One round of its second loop, which hangs a directory under its parent. -/
def initChildDirectory (s : FileSystem) (dir : DirectoryPtr) : FileSystem × Bool :=
  if isMountPoint (s.dirMeta dir).dirName then (s, true)
  else
    match s.createdDirs.lookup (getDirName (s.dirMeta dir).dirName) with
    | none => (s, false)
    | some parent => s.addChildDirectory parent dir

/-- A loading loop, left at the first slot that is refused. -/
def loadLoop (round : FileSystem → Nat → FileSystem × Bool) :
    List Nat → FileSystem → FileSystem × Bool
  | [], s => (s, true)
  | i :: is, s =>
    match round s i with
    | (s, false) => (s, false)
    | (s, true) => loadLoop round is s

/-- `DirHandle::InitializeMeta`. -/
def dirInitializeMeta (s : FileSystem) : FileSystem × Bool :=
  match loadLoop initDirSlot (List.range' 0 s.superMeta.maxFileNum) s with
  | (s, false) => (s, false)
  | (s, true) => loadLoop initChildDirectory (s.createdDirs.entries.map (·.2)) s

/-- One round of `FileHandle::InitializeMeta`. A slot with a child is entered under its handle
only, and the slot of a temporary file is cleared but not put on the free list. -/
def initFileSlot (env : Env) (s : FileSystem) (fh : Nat) : FileSystem × Bool :=
  let slot := s.fileMetas fh
  if slot.crc ≠ slot.calcCrc then (s, false)
  else if slot.used then
    if slot.isTemp then (s.modifyFileMeta fh FileMeta.clear).writeFileMeta env slot.fh
    else if slot.fileName.isEmpty then (s, false)
    else if slot.fh ≠ fh then (s, false)
    else
      let f := s.nextFile
      let s := { s with
        files := Function.update s.files f
          { metaSlot := fh, nlink := 0, locked := false, deleted := false, itemMaps := ∅ }
        nextFile := f + 1 }
      let s := if 0 < slot.childFh then { s with createdFhs := s.createdFhs.insert slot.fh f }
        else s.addFileNoLock f
      match s.createdDhs.lookup slot.dh with
      | none => (s, false)
      | some dir => ((s.addChildFile dir f).1, true)
  else ({ s with freeFhs := s.freeFhs ++ [fh] }, true)

/-- `FileHandle::InitializeMeta`. -/
def fileInitializeMeta (s : FileSystem) (env : Env) : FileSystem × Bool :=
  loadLoop (initFileSlot env) (List.range' 0 s.superMeta.maxFileNum) s

/-- The inner loop of `FileBlockHandle::InitializeMeta`: `GetSpecificBlockId` for each entry. -/
def takeSpecificBlockIds (m : FileBlockMeta) : (fuel i : Nat) → FileSystem →
    Except Fault (FileSystem × Bool)
  | 0, _, s => .ok (s, true)
  | fuel + 1, i, s => do
    let id ← m.getBlockId i
    if id ∈ s.blockIdPool then
      takeSpecificBlockIds m fuel (i + 1) { s with blockIdPool := s.blockIdPool.erase id }
    else .ok (s, false)

/-- One round of `FileBlockHandle::InitializeMeta`. -/
def initFileBlockSlot (s : FileSystem) (env : Env) (index : Nat) :
    Except Fault (FileSystem × Bool) :=
  let slot := s.fileBlockMetas index
  if slot.crc ≠ slot.calcCrc then .ok (s, false)
  else if slot.used then
    if slot.isTemp then .ok ((s.setFileBlockMeta index slot.clear).writeFileBlockMeta env index)
    else
      match s.createdFhs.lookup slot.fh with
      | none => .ok (s, false)
      | some f => do
        match ← takeSpecificBlockIds slot slot.usedBlockNum 0 s with
        | (s, false) => .ok (s, false)
        | (s, true) => .ok ((s.addFileBlockNoLock f index).1, true)
  else .ok ({ s with freeFbhs := s.freeFbhs ++ [index] }, true)

def fileBlockLoop (env : Env) : List Nat → FileSystem → Except Fault (FileSystem × Bool)
  | [], s => .ok (s, true)
  | i :: is, s => do
    match ← s.initFileBlockSlot env i with
    | (s, false) => .ok (s, false)
    | (s, true) => fileBlockLoop env is s

/-- `FileBlockHandle::InitializeMeta`. -/
def fileBlockInitializeMeta (s : FileSystem) (env : Env) : Except Fault (FileSystem × Bool) :=
  fileBlockLoop env (List.range' 0 s.superMeta.maxFileBlockNum) s

/-- `FileSystem::InitializeMeta`: every handle in its order. -/
def initializeMeta (s : FileSystem) (env : Env) : Except Fault (FileSystem × Bool) :=
  if !s.superInitializeMeta then .ok (s, false)
  else
    match s.blockInitializeMeta.dirInitializeMeta with
    | (s, false) => .ok (s, false)
    | (s, true) =>
      match s.fileInitializeMeta env with
      | (s, false) => .ok (s, false)
      | (s, true) => s.fileBlockInitializeMeta env

/-- `FileSystem::MakeMountPoint`. -/
def makeMountPoint (s : FileSystem) (env : Env) (mountPoint : Name) :
    Except Fault (FileSystem × Int) :=
  match s.getCreatedDirectory mountPoint with
  | .ok _ => .ok (s, 0)
  | .error _ => s.createDirectory env mountPoint

/-- `FileSystem::MountFileSystem` once the device is found: `ShmManager::Initialize` reads all
metadata, whose extent is the data start of the super block. -/
def mountFileSystem (env : Env) (d : Disk) : Except Fault (FileSystem × Int) :=
  let s := unmounted d
  if !s.superInitializeMeta then .ok (s, -1)
  else if d.size < s.superMeta.blockDataStartOffset then .ok (s, -1)
  else do
    match ← s.initializeMeta env with
    | (s, false) => .ok (s, -1)
    | (s, true) =>
      match ← s.makeMountPoint env ['/'] with
      | (s, ret) => if ret < 0 then .ok (s, -1) else .ok (s, 0)

end FileSystem

end BlockFs
