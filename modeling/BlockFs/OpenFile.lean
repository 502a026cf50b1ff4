import BlockFs.FileHandle

namespace BlockFs

/-- `OpenFile::BlockData`: one transfer between a piece of the user buffer and a piece of a block. -/
structure BlockData where
  blockId : Nat
  bufferOffset : Nat
  devOffset : Nat
  size : Nat

/-- The length of `block_locks_`. -/
def kBlockLockNum : Nat := 100000

/-- `FileBlock::get_block_id`, with its assertion. -/
def FileBlockMeta.getBlockId (m : FileBlockMeta) (blockIndex : Nat) : Except Fault Nat :=
  if blockIndex < kFileBlockCapacity then .ok (m.blockId blockIndex) else .error .blockIndex

/-- The planning loop of `ReadData` and `WriteData`: the loop variables are the bytes planned so
far, the unsigned block index and the offset inside the first block, cleared after one round. -/
def planBlocks (super : SuperBlockMeta) (m : FileBlockMeta) (size : Nat) :
    (fuel currCount blockIndex blockOffsetInBlock : Nat) → Except Fault (List BlockData)
  | 0, _, _, _ => .error .fuel
  | fuel + 1, currCount, blockIndex, blockOffsetInBlock => do
    let blockId ← m.getBlockId blockIndex
    let blockSize := if 0 < blockOffsetInBlock then min size (kBlockSize - blockOffsetInBlock)
      else min (size - currCount) kBlockSize
    let block : BlockData :=
      { blockId := blockId, bufferOffset := currCount,
        devOffset := super.blockDataStartOffset + super.blockSize * blockId + blockOffsetInBlock,
        size := blockSize }
    if size ≤ currCount + blockSize then .ok [block]
    else do
      let blocks ← planBlocks super m size fuel (currCount + blockSize) (blockIndex + 1) 0
      .ok (block :: blocks)

/-- The plan of a transfer of `size` bytes at file offset `offset`: the block index is narrowed to
32 bits, and no loop gets past the last index of the table. -/
def planTransfer (super : SuperBlockMeta) (m : FileBlockMeta) (size offset : Nat) :
    Except Fault (List BlockData) :=
  planBlocks super m size (kFileBlockCapacity + 1) 0 (offset / kBlockSize % 2 ^ 32)
    (offset % kBlockSize)

/-- The transfer loop of `ReadData`: each block under its lock, up to the first that moves
nothing. -/
def readBlocks (d : Disk) : List BlockData → (Nat → UInt8) → Except Fault ((Nat → UInt8) × Int)
  | [], buffer => .ok (buffer, 0)
  | block :: blocks, buffer =>
    if kBlockLockNum ≤ block.blockId then .error .blockLock
    else
      match d.preadCache buffer block.bufferOffset block.size block.devOffset with
      | (buffer, blockRead) =>
        if blockRead ≤ 0 then .ok (buffer, 0)
        else do
          let (buffer, ret) ← readBlocks d blocks buffer
          .ok (buffer, blockRead + ret)

/-- The transfer loop of `WriteData`. -/
def writeBlocks (buffer : Nat → UInt8) : List BlockData → Disk → Except Fault (Disk × Int)
  | [], d => .ok (d, 0)
  | block :: blocks, d =>
    if kBlockLockNum ≤ block.blockId then .error .blockLock
    else
      match d.pwriteCache buffer block.bufferOffset block.size block.devOffset with
      | (d, blockWrite) =>
        if blockWrite ≤ 0 then .ok (d, 0)
        else do
          let (d, ret) ← writeBlocks buffer blocks d
          .ok (d, blockWrite + ret)

namespace FileSystem

/-- `set_append_pos(append_pos() + ret)` on the open file behind `fd`. -/
def advance (s : FileSystem) (fd : Nat) (o : OpenFile) (ret : Int) : FileSystem :=
  { s with
    openFiles := s.openFiles.insert fd { o with appendPos := toU64 (o.appendPos + ret) } }

/-- `FileReader::ReadData`. -/
def readData (s : FileSystem) (fd : Nat) (o : OpenFile) (buffer : Nat → UInt8)
    (size offset : Nat) : Except Fault (FileSystem × (Nat → UInt8) × Int) :=
  match s.getFileBlock o.file 0 with
  | none => .ok (s, buffer, -1)
  | some b => do
    let blocks ← planTransfer s.superMeta (s.fileBlockMetas b) size offset
    let (buffer, ret) ← readBlocks s.disk blocks buffer
    .ok (s.advance fd o ret, buffer, ret)

/-- `FileWriter::WriteData`, which uses the file block unchecked. -/
def writeData (s : FileSystem) (fd : Nat) (o : OpenFile) (buffer : Nat → UInt8)
    (size offset : Nat) : Except Fault (FileSystem × Int) :=
  match s.getFileBlock o.file 0 with
  | none => .error .nullFileBlock
  | some b => do
    let blocks ← planTransfer s.superMeta (s.fileBlockMetas b) size offset
    let (disk, ret) ← writeBlocks buffer blocks s.disk
    .ok ({ s with disk := disk }.advance fd o ret, ret)

/-- `OpenFile::pread` and `OpenFile::read`, which clip the size with the same 64-bit sum. -/
def pread (s : FileSystem) (fd : Nat) (o : OpenFile) (buffer : Nat → UInt8) (size offset : Nat) :
    Except Fault (FileSystem × (Nat → UInt8) × Int) :=
  let fileSize := (s.fileMeta o.file).size
  if size = 0 ∨ fileSize ≤ offset then .ok (s, buffer, 0)
  else
    let needReadSize := if fileSize < (offset + size) % 2 ^ 64 then fileSize - offset else size
    s.readData fd o buffer needReadSize offset

section Writers
variable [Crc32]

/-- `OpenFile::pwrite`. -/
def pwrite (s : FileSystem) (env : Env) (fd : Nat) (o : OpenFile) (buffer : Nat → UInt8)
    (size offset : Nat) : Except Fault (FileSystem × Int) :=
  if size = 0 then .ok (s, 0)
  else do
    let (s, ret) ←
      if (s.fileMeta o.file).size < (offset + size) % 2 ^ 64 then
        s.ftruncate env o.file ((offset + size) % 2 ^ 64)
      else .ok (s, 0)
    if ret < 0 then .ok (s, -1)
    else
      let s := if env.now % 2 = 0 then s.updateTimeStamp o.file env.now else s
      s.writeData fd o buffer size offset

/-- `FileSystem::PwriteFile`. -/
def pwriteFile (s : FileSystem) (env : Env) (fd : Nat) (buffer : Nat → UInt8) (len : Nat)
    (offset : Int) : Except Fault (FileSystem × Int) :=
  match s.getOpenFile fd with
  | .error _ => .ok ({ s with errno := ENOENT }, -1)
  | .ok o => s.pwrite env fd o buffer len (toU64 offset)

end Writers

/-- `FileSystem::PreadFile`. -/
def preadFile (s : FileSystem) (fd : Nat) (buffer : Nat → UInt8) (len : Nat) (offset : Int) :
    Except Fault (FileSystem × (Nat → UInt8) × Int) :=
  match s.getOpenFile fd with
  | .error _ => .ok ({ s with errno := ENOENT }, buffer, -1)
  | .ok o => s.pread fd o buffer len (toU64 offset)

/-- `FileSystem::ReadFile`. -/
def readFile (s : FileSystem) (fd : Int) (buffer : Nat → UInt8) (len : Nat) :
    Except Fault (FileSystem × (Nat → UInt8) × Int) :=
  match s.getOpenFile (toU64 fd) with
  | .error e => .ok (s.storeErrno e, buffer, -1)
  | .ok o => s.pread (toU64 fd) o buffer len o.appendPos

inductive Whence
  | set
  | cur
  | endOfFile
  | other
  deriving DecidableEq

/-- `OpenFile::lseek`: a negative position is stored as it is. -/
def lseek (s : FileSystem) (fd : Nat) (o : OpenFile) (offset : Int) (whence : Whence) :
    FileSystem × Int :=
  let move (pos : Int) : FileSystem × Int :=
    ({ s with openFiles := s.openFiles.insert fd { o with appendPos := toU64 pos } },
      toInt64 (toU64 pos))
  match whence with
  | .set => move offset
  | .cur => move (o.appendPos + offset)
  | .endOfFile => move ((s.fileMeta o.file).size + offset)
  | .other => ({ s with errno := EINVAL }, -1)

/-- `FileSystem::SeekFile`. -/
def seekFile (s : FileSystem) (fd : Nat) (offset : Int) (whence : Whence) : FileSystem × Int :=
  match s.getOpenFile fd with
  | .error e => (s.storeErrno e, -1)
  | .ok o => s.lseek fd o offset whence

end FileSystem

end BlockFs
