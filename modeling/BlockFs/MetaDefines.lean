import Mathlib.Algebra.Order.Ring.Int
import Mathlib.Data.List.AList

namespace BlockFs

def K : Nat := 1024
def M : Nat := 1024 * K
def G : Nat := 1024 * M
def T : Nat := 1024 * G

def kBlockFsMagic : Nat := 0xA5201314
def kBlockFsPageSize : Nat := 4 * K
def kSuperBlockSize : Nat := kBlockFsPageSize
def kSuperBlockOffset : Nat := 0
def kDirMetaOffset : Nat := kSuperBlockOffset + kSuperBlockSize
def kMaxFileNum : Nat := 100000
def kBlockFsMaxUDiskSize : Nat := 128 * T
def kBlockSize : Nat := 4 * M
def kBlockFsMaxDirNameLen : Nat := 768
def kBlockFsMaxFileNameLen : Nat := 64
def kBlockFsDirMetaSize : Nat := 1 * K
def kBlockFsFileMetaSize : Nat := 256
def kFileBlockCapacity : Nat := 1000
def kBlockFsFileBlockMetaSize : Nat := kBlockFsPageSize

/-- The literal behind `kBlockSize`, for linear arithmetic. -/
theorem kBlockSize_eq : kBlockSize = 4194304 := rfl

theorem kBlockSize_pos : 0 < kBlockSize := by decide

/-- `ALIGN_UP` of the source is a rounded-up division, `ROUND_UP` the rounded-up multiple. -/
def alignUp (size align : Nat) : Nat := (size + (align - 1)) / align
def roundUp (size align : Nat) : Nat := (size + (align - 1)) / align * align

/-- A C string: its characters up to the terminator, which never occurs inside. -/
abbrev Name := List Char

/-- An `unordered_map`: at most one value for a key. -/
abbrev Map (κ ν : Type) := AList (fun _ : κ => ν)

structure SuperBlockMeta where
  crc : Nat
  magic : Nat
  maxFileNum : Nat
  maxSupportUdiskSize : Nat
  maxFileBlockNum : Nat
  maxSupportBlockNum : Nat
  blockSize : Nat
  maxDirNameLen : Nat
  maxFileNameLen : Nat
  dirMetaSize : Nat
  fileMetaSize : Nat
  fileBlockMetaSize : Nat
  superBlockSize : Nat
  dirMetaTotalSize : Nat
  fileMetaTotalSize : Nat
  fileBlockMetaTotalSize : Nat
  superBlockOffset : Nat
  dirMetaOffset : Nat
  fileMetaOffset : Nat
  fileBlockMetaOffset : Nat
  blockDataStartOffset : Nat
  deviceSize : Nat
  currBlockNum : Nat

structure DirMeta where
  crc : Nat
  dh : Nat
  size : Nat
  mode : Nat
  uid : Nat
  gid : Nat
  atime : Int
  mtime : Int
  ctime : Int
  used : Bool
  dirName : Name
  deriving DecidableEq

structure FileMeta where
  crc : Nat
  fh : Nat
  size : Nat
  nlink : Int
  mode : Nat
  uid : Nat
  gid : Nat
  atime : Int
  mtime : Int
  ctime : Int
  dh : Nat
  childFh : Int
  parentFh : Int
  parentSize : Nat
  used : Bool
  isTemp : Bool
  fileName : Name

structure FileBlockMeta where
  crc : Nat
  index : Nat
  fh : Nat
  fileCut : Nat
  usedBlockNum : Nat
  used : Bool
  isTemp : Bool
  blockId : Nat → Nat

/-- zlib's checksum, taken over every byte of a slot but its `crc_` field. -/
class Crc32 where
  superBlock : SuperBlockMeta → Nat
  dir : DirMeta → Nat
  file : FileMeta → Nat
  fileBlock : FileBlockMeta → Nat

section Checksums
variable [Crc32]

def SuperBlockMeta.calcCrc (m : SuperBlockMeta) : Nat := Crc32.superBlock { m with crc := 0 }
def DirMeta.calcCrc (m : DirMeta) : Nat := Crc32.dir { m with crc := 0 }
def FileMeta.calcCrc (m : FileMeta) : Nat := Crc32.file { m with crc := 0 }
def FileBlockMeta.calcCrc (m : FileBlockMeta) : Nat := Crc32.fileBlock { m with crc := 0 }

/-- A slot after its checksum has been refreshed. -/
def DirMeta.sealed (m : DirMeta) : DirMeta := { m with crc := m.calcCrc }
def FileMeta.sealed (m : FileMeta) : FileMeta := { m with crc := m.calcCrc }
def FileBlockMeta.sealed (m : FileBlockMeta) : FileBlockMeta := { m with crc := m.calcCrc }

section Sealing
variable (d : DirMeta) (m : FileMeta) (b : FileBlockMeta)

@[simp] theorem DirMeta.sealed_crc : d.sealed.crc = d.sealed.calcCrc := rfl
@[simp] theorem DirMeta.sealed_sealed : d.sealed.sealed = d.sealed := rfl
@[simp] theorem DirMeta.sealed_dh : d.sealed.dh = d.dh := rfl
@[simp] theorem DirMeta.sealed_used : d.sealed.used = d.used := rfl
@[simp] theorem DirMeta.sealed_dirName : d.sealed.dirName = d.dirName := rfl

@[simp] theorem FileMeta.sealed_crc : m.sealed.crc = m.sealed.calcCrc := rfl
@[simp] theorem FileMeta.sealed_sealed : m.sealed.sealed = m.sealed := rfl
@[simp] theorem FileMeta.sealed_fh : m.sealed.fh = m.fh := rfl
@[simp] theorem FileMeta.sealed_size : m.sealed.size = m.size := rfl
@[simp] theorem FileMeta.sealed_dh : m.sealed.dh = m.dh := rfl
@[simp] theorem FileMeta.sealed_used : m.sealed.used = m.used := rfl
@[simp] theorem FileMeta.sealed_isTemp : m.sealed.isTemp = m.isTemp := rfl
@[simp] theorem FileMeta.sealed_childFh : m.sealed.childFh = m.childFh := rfl
@[simp] theorem FileMeta.sealed_fileName : m.sealed.fileName = m.fileName := rfl

@[simp] theorem FileBlockMeta.sealed_crc : b.sealed.crc = b.sealed.calcCrc := rfl
@[simp] theorem FileBlockMeta.sealed_sealed : b.sealed.sealed = b.sealed := rfl
@[simp] theorem FileBlockMeta.sealed_fh : b.sealed.fh = b.fh := rfl
@[simp] theorem FileBlockMeta.sealed_fileCut : b.sealed.fileCut = b.fileCut := rfl
@[simp] theorem FileBlockMeta.sealed_usedBlockNum : b.sealed.usedBlockNum = b.usedBlockNum := rfl
@[simp] theorem FileBlockMeta.sealed_used : b.sealed.used = b.used := rfl
@[simp] theorem FileBlockMeta.sealed_isTemp : b.sealed.isTemp = b.isTemp := rfl
@[simp] theorem FileBlockMeta.sealed_blockId : b.sealed.blockId = b.blockId := rfl

end Sealing

end Checksums

/-- `File::ClearMeta`: the handle, the directory and the name stay behind. -/
def FileMeta.clear (m : FileMeta) : FileMeta :=
  { m with used := false, isTemp := false, size := 0, mode := 0, nlink := 0, atime := 0,
           mtime := 0, ctime := 0, childFh := -1, parentFh := -1, parentSize := 2 ^ 64 - 1 }

/-- `File::set_file_name` copies 64 bytes, with no room for a terminator behind a longer name. -/
def FileMeta.setFileName (m : FileMeta) (name : Name) : FileMeta :=
  { m with fileName := name.take kBlockFsMaxFileNameLen }

/-- `Directory::ClearMeta`. -/
def DirMeta.clear (m : DirMeta) : DirMeta := { m with used := false, size := 0 }

/-- `Directory::set_dir_name`. -/
def DirMeta.setDirName (m : DirMeta) (name : Name) : DirMeta :=
  { m with dirName := name.take kBlockFsMaxDirNameLen }

namespace FileBlockMeta

/-- The ids in the first `used_block_num_` entries. -/
def ids (m : FileBlockMeta) : List Nat := (List.range m.usedBlockNum).map m.blockId

/-- `FileBlock::ClearMeta`. -/
def clear (m : FileBlockMeta) : FileBlockMeta :=
  { m with used := false, isTemp := false, fh := 2 ^ 32 - 1, fileCut := 0, usedBlockNum := 0,
           blockId := fun _ => 0 }

def isBlockFull (m : FileBlockMeta) : Bool := m.usedBlockNum == kFileBlockCapacity

/-- `FileBlock::add_block_id`. -/
def addBlockId (m : FileBlockMeta) (id : Nat) : FileBlockMeta :=
  if m.isBlockFull then m else
    { m with blockId := Function.update m.blockId m.usedBlockNum id,
             usedBlockNum := m.usedBlockNum + 1 }

/-- The loop of `ExtendFile` that appends freshly allocated ids, stopping with a failure at the
first id a full file block cannot take. -/
def fill (m : FileBlockMeta) : List Nat → FileBlockMeta × Bool
  | [] => (m, true)
  | id :: ids => if m.isBlockFull then (m, false) else (m.addBlockId id).fill ids

/-- The loop of `ShrinkFile` that hands the parent's ids to the child: entry `j` on, until
`blockNum` ids were copied in all or the parent's table ends. -/
def inherit (old : FileBlockMeta) (blockNum : Nat) :
    (fuel j copied : Nat) → FileBlockMeta → FileBlockMeta
  | 0, _, _, new => new
  | fuel + 1, j, copied, new =>
    let new := new.addBlockId (old.blockId j)
    if copied + 1 = blockNum then new else old.inherit blockNum fuel (j + 1) (copied + 1) new

end FileBlockMeta

end BlockFs
