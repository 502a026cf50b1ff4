import BlockFs.State

namespace BlockFs.FileSystem

/-- `BlockHandle::GetFreeBlockIdLock`: the first ids in the walking order of the pool. -/
def getFreeBlockIdLock (s : FileSystem) (env : Env) (blockIdNum : Nat) :
    Option (FileSystem × List Nat) :=
  if s.blockIdPool.length < blockIdNum then none
  else
    let pool := env.order s.blockIdPool
    some ({ s with blockIdPool := pool.drop blockIdNum }, pool.take blockIdNum)

def putFreeBlockIdLock (s : FileSystem) (blockId : Nat) : FileSystem :=
  { s with blockIdPool := s.blockIdPool.insert blockId }

/-- The overload for a list of ids, which ignores an empty list. -/
def putFreeBlockIdsLock (s : FileSystem) (blockIds : List Nat) : FileSystem :=
  blockIds.foldl putFreeBlockIdLock s

/-- `FileBlockHandle::GetFileBlockLock`, with its two assertions. -/
def getFileBlockLock (s : FileSystem) : Except Fault (FileSystem × Option FileBlockPtr) :=
  match s.freeFbhs with
  | [] => .ok (s, none)
  | index :: rest =>
    if (s.fileBlockMetas index).used then .error .fileBlockUsed
    else if (s.fileBlockMetas index).usedBlockNum ≠ 0 then .error .fileBlockNotEmpty
    else .ok ({ s with freeFbhs := rest }, some index)

def putFileBlockLock (s : FileSystem) (index : FileBlockPtr) : FileSystem :=
  { s with freeFbhs := s.freeFbhs ++ [index] }

section Release
variable [Crc32]

/-- `FileBlock::ReleaseMyself`: the slot goes back to the free list, its block ids do not. -/
def releaseMyself (s : FileSystem) (env : Env) (b : FileBlockPtr) : FileSystem × Bool :=
  let s := s.setFileBlockMeta b (s.fileBlockMetas b).clear
  match s.writeFileBlockMeta env b with
  | (s, false) => (s, false)
  | (s, true) => (s.putFileBlockLock b, true)

/-- `FileBlock::ReleaseAll`: the block ids go back to the pool before the slot. -/
def releaseAll (s : FileSystem) (env : Env) (b : FileBlockPtr) : FileSystem × Bool :=
  (s.putFreeBlockIdsLock (s.fileBlockMetas b).ids).releaseMyself env b

end Release

/-- `FdHandle::get_fd`. -/
def getFd (s : FileSystem) : FileSystem × Int :=
  match s.freeFdPool with
  | [] => ({ s with errno := EMFILE }, -1)
  | fd :: rest => ({ s with freeFdPool := rest }, fd)

/-- `FdHandle::put_fd`. -/
def putFd (s : FileSystem) (fd : Int) : FileSystem :=
  if (kMaxFileNum <<< 1 : Nat) < fd then s else { s with freeFdPool := s.freeFdPool ++ [fd] }

/-- The conversion of a signed integer to a 64-bit unsigned one. -/
def toU64 (fd : Int) : Nat := (fd % 2 ^ 64).toNat

/-- The conversion of an unsigned integer to `int`. -/
def toInt32 (fd : Nat) : Int :=
  let low : Nat := fd % 2 ^ 32
  if low < 2 ^ 31 then low else low - 2 ^ 32

/-- The conversion of an unsigned integer to `off_t`. -/
def toInt64 (pos : Nat) : Int :=
  let low : Nat := pos % 2 ^ 64
  if low < 2 ^ 63 then low else low - 2 ^ 64

end BlockFs.FileSystem
