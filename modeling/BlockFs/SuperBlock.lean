import BlockFs.CommUtils

namespace BlockFs.SuperBlock
variable [Crc32]

/-- `SuperBlock::FormatAllMeta`: the layout written to a device of `deviceSize` bytes. The one
subtraction that can wrap around in 64 bits is that of the data start from the device size. -/
def formatAllMeta (deviceSize : Nat) : SuperBlockMeta :=
  let dirMetaTotalSize := roundUp (kBlockFsDirMetaSize * kMaxFileNum) kBlockFsPageSize
  let fileMetaOffset := kDirMetaOffset + dirMetaTotalSize
  let fileMetaTotalSize := roundUp (kBlockFsFileMetaSize * kMaxFileNum) kBlockFsPageSize
  let fileBlockMetaOffset := fileMetaOffset + fileMetaTotalSize
  let tmpNum1 := kMaxFileNum - 1
  let tmpSize1 := tmpNum1 * kBlockFsFileBlockMetaSize
  let tmpNum2 := alignUp (kBlockFsMaxUDiskSize - tmpSize1) (kBlockSize * kFileBlockCapacity)
  let tmpSize2 := tmpNum2 * kBlockFsFileBlockMetaSize
  let fileBlockMetaTotalSize := roundUp (tmpSize1 + tmpSize2) kBlockFsPageSize
  let blockDataStartOffset := roundUp (fileBlockMetaOffset + fileBlockMetaTotalSize) kBlockSize
  let freeUdiskSize := (deviceSize + 2 ^ 64 - blockDataStartOffset) % 2 ^ 64
  let super : SuperBlockMeta :=
    { crc := 0
      magic := kBlockFsMagic
      maxFileNum := kMaxFileNum
      maxSupportUdiskSize := kBlockFsMaxUDiskSize
      maxFileBlockNum := tmpNum1 + tmpNum2
      maxSupportBlockNum := (kBlockFsMaxUDiskSize - blockDataStartOffset) / kBlockSize
      blockSize := kBlockSize
      maxDirNameLen := kBlockFsMaxDirNameLen
      maxFileNameLen := kBlockFsMaxFileNameLen
      dirMetaSize := kBlockFsDirMetaSize
      fileMetaSize := kBlockFsFileMetaSize
      fileBlockMetaSize := kBlockFsFileBlockMetaSize
      superBlockSize := kSuperBlockSize
      dirMetaTotalSize := dirMetaTotalSize
      fileMetaTotalSize := fileMetaTotalSize
      fileBlockMetaTotalSize := fileBlockMetaTotalSize
      superBlockOffset := kSuperBlockOffset
      dirMetaOffset := kDirMetaOffset
      fileMetaOffset := fileMetaOffset
      fileBlockMetaOffset := fileBlockMetaOffset
      blockDataStartOffset := blockDataStartOffset
      deviceSize := deviceSize
      currBlockNum := freeUdiskSize / kBlockSize }
  { super with crc := super.calcCrc }

theorem formatAllMeta_blockDataStartOffset (deviceSize : Nat) :
    (formatAllMeta deviceSize).blockDataStartOffset = 675282944 := by rfl

theorem formatAllMeta_maxFileBlockNum (deviceSize : Nat) :
    (formatAllMeta deviceSize).maxFileBlockNum = 133554 := by rfl

theorem formatAllMeta_dirs (deviceSize : Nat) :
    (formatAllMeta deviceSize).dirMetaOffset = 4096 ∧
      (formatAllMeta deviceSize).dirMetaTotalSize = 102400000 := ⟨by rfl, by rfl⟩

theorem formatAllMeta_files (deviceSize : Nat) :
    (formatAllMeta deviceSize).fileMetaOffset = 102404096 ∧
      (formatAllMeta deviceSize).fileMetaTotalSize = 25600000 := ⟨by rfl, by rfl⟩

theorem formatAllMeta_fileBlocks (deviceSize : Nat) :
    (formatAllMeta deviceSize).fileBlockMetaOffset = 128004096 ∧
      (formatAllMeta deviceSize).fileBlockMetaTotalSize = 547037184 := ⟨by rfl, by rfl⟩

/-- On a device that holds its metadata, the data region holds the counted blocks. -/
theorem formatAllMeta_currBlockNum {deviceSize : Nat} (large : 675282944 ≤ deviceSize)
    (bounded : deviceSize < 2 ^ 64) :
    (formatAllMeta deviceSize).currBlockNum = (deviceSize - 675282944) / kBlockSize := by
  have wrap : (deviceSize + 2 ^ 64 - 675282944) % 2 ^ 64 = deviceSize - 675282944 := by omega
  rw [← wrap]
  rfl

end BlockFs.SuperBlock
