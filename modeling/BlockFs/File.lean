import BlockFs.DirHandle

namespace BlockFs.FileSystem

/-- `FileHandle::AddFileNoLock`: both entries overwrite whatever the keys held. -/
def addFileNoLock (s : FileSystem) (f : FilePtr) : FileSystem :=
  { s with
    createdFhs := s.createdFhs.insert (s.fileMeta f).fh f
    createdFiles := s.createdFiles.insert ((s.fileMeta f).dh, (s.fileMeta f).fileName) f }

/-- `FileHandle::RemoveFileNoLock`: the two entries under the keys of `f`, whoever they hold. -/
def removeFileNoLock (s : FileSystem) (f : FilePtr) : FileSystem × Bool :=
  if (s.createdFiles.lookup ((s.fileMeta f).dh, (s.fileMeta f).fileName)).isNone then (s, false)
  else
    let s := { s with
      createdFiles := s.createdFiles.erase ((s.fileMeta f).dh, (s.fileMeta f).fileName) }
    if (s.createdFhs.lookup (s.fileMeta f).fh).isNone then (s, false)
    else ({ s with createdFhs := s.createdFhs.erase (s.fileMeta f).fh }, true)

/-- `FileHandle::AddFileToDirectory`. -/
def addFileToDirectory (s : FileSystem) (parent : DirectoryPtr) (f : FilePtr) : FileSystem :=
  (s.addChildFile parent f).1.addFileNoLock f

/-- `FileHandle::RemoveFileFromoDirectory`. -/
def removeFileFromoDirectory (s : FileSystem) (parent : DirectoryPtr) (f : FilePtr) :
    FileSystem × Bool :=
  match s.removeChildFile parent f with
  | (s, false) => (s, false)
  | (s, true) => s.removeFileNoLock f

/-- `FileHandle::NewFreeFileMeta`: the slot for the child of a shrinking file. -/
def newFreeFileMeta (s : FileSystem) (dh : Nat) (filename : Name) : FileSystem × Option Nat :=
  match s.freeFhs with
  | [] => ({ s with errno := ENFILE }, none)
  | fh :: rest =>
    if (s.fileMetas fh).used ∨ (s.fileMetas fh).fh ≠ fh ∨ (s.fileMetas fh).size ≠ 0 then
      ({ s with errno := EINVAL }, none)
    else
      let s := s.modifyFileMeta fh fun m =>
        { m with used := true, fh := fh, dh := dh, fileName := filename }
      ({ s with freeFhs := rest }, some fh)

/-- `File::AddFileBlockNoLock`. -/
def addFileBlockNoLock (s : FileSystem) (f : FilePtr) (b : FileBlockPtr) : FileSystem × Bool :=
  if ((s.files f).itemMaps.lookup (s.fileBlockMetas b).fileCut).isSome then (s, false)
  else
    (s.modifyFile f fun o =>
      { o with itemMaps := o.itemMaps.insert (s.fileBlockMetas b).fileCut b }, true)

/-- `GetFileBlock` and `GetMetaItem`. -/
def getFileBlock (s : FileSystem) (f : FilePtr) (fileCut : Nat) : Option FileBlockPtr :=
  (s.files f).itemMaps.lookup fileCut

/-- `last_block_left` of `ExtendFile`: the room in the last block of a file. -/
def lastBlockLeft (size : Nat) : Nat :=
  if size % kBlockSize = 0 then 0 else kBlockSize - size % kBlockSize

/-- The blocks `ExtendFile` needs for a file of `size` bytes growing to `offset`. -/
def blocksNeeded (size offset : Nat) : Nat :=
  let expandSize := offset - size
  if expandSize ≤ lastBlockLeft size then 0
  else alignUp (expandSize - lastBlockLeft size) kBlockSize

/-- `num_blocks_needed`, which has 32 bits. -/
def numBlocksNeeded (size offset : Nat) : Nat := blocksNeeded size offset % 2 ^ 32

/-- The device address of byte `offset` of a block. -/
def devOffset (s : FileSystem) (blockId offset : Nat) : Nat :=
  s.superMeta.blockDataStartOffset + s.superMeta.blockSize * blockId + offset

/-- The loop of `File::CopyData`, one buffer of 4 MiB at a time. -/
def copyLoop (s : FileSystem) (src dst : Nat) : (fuel offset len : Nat) → FileSystem × Bool
  | 0, _, len => (s, len = 0)
  | fuel + 1, offset, len =>
    if len = 0 then (s, true)
    else
      let dataLen := min len (4 * M)
      match s.disk.preadCache (fun _ => 0) 0 dataLen (s.devOffset src offset) with
      | (buffer, ret) =>
        if ret ≠ dataLen then (s, false)
        else
          match s.disk.pwriteCache buffer 0 dataLen (s.devOffset dst offset) with
          | (disk, ret) =>
            if ret ≠ dataLen then ({ s with disk := disk }, false)
            else copyLoop { s with disk := disk } src dst fuel (offset + dataLen) (len - dataLen)

/-- `File::CopyData`, which flushes the device behind the copy. -/
def copyData (s : FileSystem) (env : Env) (src dst offset len : Nat) : FileSystem × Bool :=
  match s.copyLoop src dst (len / (4 * M) + 1) offset len with
  | (s, false) => (s, false)
  | (s, true) => (s, env.fsyncOk)

/-- The inner loop of `ParentFile::Recycle`: the first `blockNum` ids were inherited and stay out
of the pool. -/
def recycleIds (blockNum : Nat) : List Nat → (blockIdIndex : Nat) → FileSystem → FileSystem × Nat
  | [], blockIdIndex, s => (s, blockIdIndex)
  | id :: ids, blockIdIndex, s =>
    if blockIdIndex < blockNum then recycleIds blockNum ids (blockIdIndex + 1) s
    else recycleIds blockNum ids blockIdIndex (s.putFreeBlockIdLock id)

section Writers
variable [Crc32]

/-- The outer loop of `ParentFile::Recycle`, from file block `i` on. -/
def recycleFileBlocks (env : Env) (fbMaps : Map Nat FileBlockPtr) (blockNum : Nat) :
    (fuel i blockIdIndex : Nat) → FileSystem → Except Fault FileSystem
  | 0, _, _, s => .ok s
  | fuel + 1, i, blockIdIndex, s =>
    match fbMaps.lookup i with
    | none => .error .nullFileBlock
    | some b =>
      match recycleIds blockNum (s.fileBlockMetas b).ids blockIdIndex s with
      | (s, blockIdIndex) =>
        recycleFileBlocks env fbMaps blockNum fuel (i + 1) blockIdIndex (s.releaseMyself env b).1

/-- `ParentFile::Recycle`. -/
def recycle (s : FileSystem) (env : Env) (parent : ParentFile) :
    Except Fault (FileSystem × Bool) := do
  let blockNum := parent.offset / kBlockSize % 2 ^ 32
  let s ← recycleFileBlocks env parent.fbMaps blockNum parent.fbMaps.entries.length 0 0 s
  let s := s.modifyFileMeta parent.metaSlot FileMeta.clear
  match s.writeFileMeta env (s.fileMetas parent.metaSlot).fh with
  | (s, false) => .ok (s, false)
  | (s, true) => .ok ({ s with freeFhs := s.freeFhs ++ [(s.fileMetas parent.metaSlot).fh] }, true)

/-- `FileHandle::RemoveParentFile`. -/
def removeParentFile (s : FileSystem) (env : Env) (fh : Nat) : Except Fault (FileSystem × Bool) :=
  match s.parentFiles.lookup fh with
  | none => .ok (s, false)
  | some parent => recycle { s with parentFiles := s.parentFiles.erase fh } env parent

/-- `File::WriteMeta()`. -/
def writeMeta (s : FileSystem) (env : Env) (f : FilePtr) : FileSystem × Bool :=
  s.writeFileMeta env (s.fileMeta f).fh

/-- `File::RecycleParentFh(fh, true)`. -/
def recycleParentFh (s : FileSystem) (env : Env) (f : FilePtr) (fh : Nat) :
    Except Fault (FileSystem × Int) := do
  let (s, recycled) ← s.removeParentFile env fh
  if !recycled then .ok (s, -1)
  else
    let s := s.modifyFileMeta (s.files f).metaSlot fun m =>
      { m with parentFh := -1, parentSize := 0 }
    match s.writeMeta env f with
    | (s, false) => .ok (s, -1)
    | (s, true) => .ok (s, 0)

/-- The second half of `ExtendFile`, once the file block is at hand: takes the blocks, enters them
in the file block and persists both slots. A loop that meets a full file block gives nothing back. -/
def extendBlocks (s : FileSystem) (env : Env) (f : FilePtr) (offset needed : Nat)
    (b : FileBlockPtr) (needNewFileBlock : Bool) : FileSystem × Int :=
  match if 0 < needed then s.getFreeBlockIdLock env needed else some (s, []) with
  | none => (if needNewFileBlock then s.putFileBlockLock b else s, -1)
  | some (s, blockIds) =>
    let slot := s.fileBlockMetas b
    let slot := if needNewFileBlock then
      { slot with
        used := true, fileCut := 0, fh := (s.fileMeta f).fh, isTemp := (s.fileMeta f).isTemp }
      else slot
    match slot.fill blockIds with
    | (slot, false) => (s.setFileBlockMeta b slot, -1)
    | (slot, true) =>
      let s := s.setFileBlockMeta b slot
      match if blockIds.isEmpty then (s, true) else s.writeFileBlockMeta env b with
      | (s, false) => (s, -1)
      | (s, true) =>
        let s := if !blockIds.isEmpty && needNewFileBlock then (s.addFileBlockNoLock f b).1 else s
        let s := s.modifyFileMeta (s.files f).metaSlot fun m => { m with size := offset }
        match s.writeMeta env f with
        | (s, false) => (s, -1)
        | (s, true) => (s, 0)

/-- `File::ExtendFile`. -/
def extendFile (s : FileSystem) (env : Env) (f : FilePtr) (offset : Nat) :
    Except Fault (FileSystem × Int) :=
  if s.superMeta.deviceSize < offset then .ok (s, -1)
  else
    let size := (s.fileMeta f).size
    let needed := numBlocksNeeded size offset
    if size = 0 then
      if (s.files f).itemMaps.entries.length ≠ 0 then .error .itemMapsNotEmpty
      else do
        match ← s.getFileBlockLock with
        | (s, none) => .ok (s, -1)
        | (s, some b) => .ok (s.extendBlocks env f offset needed b true)
    else
      if (s.files f).itemMaps.entries.length = 0 then .error .itemMapsEmpty
      else
        match s.getFileBlock f ((s.files f).itemMaps.entries.length - 1) with
        | none => .ok (s, -1)
        | some b =>
          if (s.fileBlockMetas b).isBlockFull then .ok (s, -1)
          else .ok (s.extendBlocks env f offset needed b false)

/-- The middle of `ShrinkFile`: the file block of the child slot, `none` when the call gives up
with -1 and `some none` when the child needs no file block. -/
def shrinkFileBlock (s : FileSystem) (env : Env) (f : FilePtr) (newFh offset : Nat) :
    Except Fault (FileSystem × Option (Option FileBlockPtr)) :=
  let blockNum := offset / kBlockSize % 2 ^ 32
  let blockOffset := offset % kBlockSize
  let fileBlockOffset := blockNum % kFileBlockCapacity
  if fileBlockOffset = 0 ∧ blockOffset = 0 then .ok (s, some none)
  else do
    match ← s.getFileBlockLock with
    | (s, none) => .ok (s, none)
    | (s, some newFb) =>
      match s.getFileBlock f 0 with
      | none => .error .nullFileBlock
      | some oldFb =>
        let old := s.fileBlockMetas oldFb
        if old.fileCut ≠ 0 then .error .fileCutMismatch
        else
          let new := { s.fileBlockMetas newFb with
            used := true, fileCut := old.fileCut, fh := (s.fileMetas newFh).fh,
            isTemp := (s.fileMetas newFh).isTemp }
          let new := if blockNum = 0 then new else old.inherit blockNum kFileBlockCapacity 0 0 new
          let s := s.setFileBlockMeta newFb new
          if blockOffset = 0 then .ok (s, some (some newFb))
          else
            match s.getFreeBlockIdLock env 1 with
            | none => .ok (s, none)
            | some (s, blockIds) =>
              let newBlockId := blockIds.headD 0
              match s.copyData env (old.blockId fileBlockOffset) newBlockId 0 blockOffset with
              | (s, false) => .ok (s, none)
              | (s, true) =>
                .ok (s.setFileBlockMeta newFb ((s.fileBlockMetas newFb).addBlockId newBlockId),
                  some (some newFb))

/-- The index switch of `ShrinkFile`: the file leaves the maps under its old slot, moves to the
child slot and enters them again. -/
def shrinkSwitch (s : FileSystem) (dir : DirectoryPtr) (f : FilePtr) (newFh : Nat) : FileSystem :=
  let s := (s.removeFileFromoDirectory dir f).1
  let s := s.modifyFile f fun o => { o with metaSlot := newFh }
  s.addFileToDirectory dir f

/-- The metadata writes that end `ShrinkFile`. -/
def shrinkPersist (s : FileSystem) (env : Env) (f : FilePtr) (oldFh : Nat)
    (fileBlock : Option FileBlockPtr) : Except Fault (FileSystem × Int) :=
  match s.writeMeta env f with
  | (s, false) => .ok (s, -1)
  | (s, true) =>
    match (match fileBlock with
      | none => (s, true)
      | some b => s.writeFileBlockMeta env b) with
    | (s, false) => .ok (s, -1)
    | (s, true) =>
      match s.writeFileMeta env oldFh with
      | (s, false) => .ok (s, -1)
      | (s, true) => s.recycleParentFh env f oldFh

/-- The second half of `ShrinkFile`, once the child slot `newFh` has its file block: the old slot
names its child, the file switches over and the parent is left behind for recycling. -/
def shrinkCommit (s : FileSystem) (env : Env) (f : FilePtr) (newFh oldSlot offset : Nat)
    (fileBlock : Option FileBlockPtr) : Except Fault (FileSystem × Int) :=
  let s := s.modifyFileMeta oldSlot fun m => { m with childFh := (s.fileMetas newFh).fh }
  match s.createdDhs.lookup (s.fileMeta f).dh with
  | none => .ok (s, -1)
  | some dir =>
    let s := s.shrinkSwitch dir f newFh
    let parent : ParentFile :=
      { metaSlot := oldSlot, offset := offset, fbMaps := (s.files f).itemMaps }
    let s := s.modifyFile f fun o => { o with itemMaps := ∅ }
    if (s.parentFiles.lookup (s.fileMetas oldSlot).fh).isSome then .ok (s, -1)
    else
      let s := { s with parentFiles := s.parentFiles.insert (s.fileMetas oldSlot).fh parent }
      let s := match fileBlock with
        | none => s
        | some b => (s.addFileBlockNoLock f b).1
      let s := s.modifyFileMeta newFh fun m => { m with size := offset }
      s.shrinkPersist env f (s.fileMetas oldSlot).fh fileBlock

/-- `File::ShrinkFile`: the file continues in a child slot that inherits its whole blocks, and the
parent slot is recycled. -/
def shrinkFile (s : FileSystem) (env : Env) (f : FilePtr) (offset : Nat) :
    Except Fault (FileSystem × Int) := do
  match s.newFreeFileMeta (s.fileMeta f).dh (s.fileMeta f).fileName with
  | (s, none) => .ok (s, -1)
  | (s, some newFh) =>
    let oldSlot := (s.files f).metaSlot
    let old := s.fileMetas oldSlot
    let blockNum := offset / kBlockSize % 2 ^ 32
    let s := s.modifyFileMeta newFh fun m =>
      { m with isTemp := old.isTemp, parentFh := old.fh, parentSize := blockNum * kBlockSize,
               size := blockNum * kBlockSize }
    match ← s.shrinkFileBlock env f newFh offset with
    | (s, none) => .ok (s, -1)
    | (s, some fileBlock) => s.shrinkCommit env f newFh oldSlot offset fileBlock

/-- `File::ftruncate`. -/
def ftruncate (s : FileSystem) (env : Env) (f : FilePtr) (offset : Nat) :
    Except Fault (FileSystem × Int) :=
  if (s.fileMeta f).size < offset then s.extendFile env f offset
  else if offset < (s.fileMeta f).size then s.shrinkFile env f offset
  else .ok (s, 0)

/-- `File::UpdateTimeStamp`. -/
def updateTimeStamp (s : FileSystem) (f : FilePtr) (seconds : Int) : FileSystem :=
  s.modifyFileMeta (s.files f).metaSlot fun m =>
    { m with mtime := seconds, ctime := seconds }.sealed

/-- The second half of `File::rename`: the file takes its new directory and name and is entered
under them. -/
def enterRenamed (s : FileSystem) (env : Env) (f : FilePtr) (newDir : DirectoryPtr) (target : Name) :
    FileSystem × Int :=
  let s := s.modifyFileMeta (s.files f).metaSlot fun m =>
    { (m.setFileName (getFileName target)) with dh := (s.dirMeta newDir).dh }
  let s := s.updateTimeStamp f env.now
  let s := s.addFileNoLock f
  match s.addChildFile newDir f with
  | (s, false) => (s, -1)
  | (s, true) =>
    match s.writeMeta env f with
    | (s, false) => (s, -1)
    | (s, true) => (s, 0)

/-- `File::rename`. Each early return leaves the removals before it in place. -/
def fileRename (s : FileSystem) (env : Env) (f : FilePtr) (target : Name) : FileSystem × Int :=
  match s.createdDhs.lookup (s.fileMeta f).dh with
  | none => (s, -1)
  | some oldDir =>
    match s.getCreatedDirectory (getDirName target) with
    | .error e => (s.storeErrno e, -1)
    | .ok newDir =>
      match s.removeChildFile oldDir f with
      | (s, false) => (s, -1)
      | (s, true) =>
        match s.removeFileNoLock f with
        | (s, false) => (s, -1)
        | (s, true) => s.enterRenamed env f newDir target

/-- `File::RemoveAllFileBlock`, over the entries of the item map. -/
def releaseEntries (env : Env) : List FileBlockPtr → FileSystem → FileSystem × Bool
  | [], s => (s, true)
  | b :: bs, s =>
    match s.releaseAll env b with
    | (s, false) => (s, false)
    | (s, true) => releaseEntries env bs s

def removeAllFileBlock (s : FileSystem) (env : Env) (f : FilePtr) : FileSystem × Bool :=
  match releaseEntries env ((s.files f).itemMaps.entries.map (·.2)) s with
  | (s, false) => (s, false)
  | (s, true) => (s.modifyFile f fun o => { o with itemMaps := ∅ }, true)

/-- `File::Release`. -/
def release (s : FileSystem) (env : Env) (f : FilePtr) : FileSystem × Bool :=
  (s.modifyFileMeta (s.files f).metaSlot FileMeta.clear).writeMeta env f

end Writers

end BlockFs.FileSystem
