import BlockFs.Lib.Extent
import BlockFs.Runs

namespace BlockFs

/-- The bytes of a device that one transfer of a plan covers. -/
def BlockData.extent (block : BlockData) : Extent := ⟨block.devOffset, block.size⟩

/-- What a device is divided into: the super block, the slots of directories, files and file
blocks, and the data blocks. -/
inductive Zone
  | superBlock
  | dirs
  | files
  | fileBlocks
  | block (id : Nat)
  deriving DecidableEq

namespace SuperBlockMeta

def superExtent (m : SuperBlockMeta) : Extent := ⟨m.superBlockOffset, m.superBlockSize⟩
def dirExtent (m : SuperBlockMeta) : Extent := ⟨m.dirMetaOffset, m.dirMetaTotalSize⟩
def fileExtent (m : SuperBlockMeta) : Extent := ⟨m.fileMetaOffset, m.fileMetaTotalSize⟩
def fileBlockExtent (m : SuperBlockMeta) : Extent :=
  ⟨m.fileBlockMetaOffset, m.fileBlockMetaTotalSize⟩
def dataExtent (m : SuperBlockMeta) : Extent :=
  ⟨m.blockDataStartOffset, m.deviceSize - m.blockDataStartOffset⟩

/-- The five regions in their order. -/
def regions (m : SuperBlockMeta) : List Extent :=
  [m.superExtent, m.dirExtent, m.fileExtent, m.fileBlockExtent, m.dataExtent]

def dirSlot (m : SuperBlockMeta) (dh : Nat) : Extent :=
  ⟨m.dirMetaOffset + m.dirMetaSize * dh, m.dirMetaSize⟩
def fileSlot (m : SuperBlockMeta) (fh : Nat) : Extent :=
  ⟨m.fileMetaOffset + m.fileMetaSize * fh, m.fileMetaSize⟩
def fileBlockSlot (m : SuperBlockMeta) (index : Nat) : Extent :=
  ⟨m.fileBlockMetaOffset + m.fileBlockMetaSize * index, m.fileBlockMetaSize⟩

/-- What `Directory::WriteMeta` writes. -/
def dirPage (m : SuperBlockMeta) (dh : Nat) : Extent :=
  let alignIndex := pageAlignIndex (kBlockFsPageSize / m.dirMetaSize) dh
  ⟨m.dirMetaOffset + m.dirMetaSize * alignIndex, kBlockFsPageSize⟩

/-- What `File::WriteMeta` writes. -/
def filePage (m : SuperBlockMeta) (fh : Nat) : Extent :=
  let alignIndex := pageAlignIndex (kBlockFsPageSize / m.fileMetaSize) fh
  ⟨m.fileMetaOffset + m.fileMetaSize * alignIndex, kBlockFsPageSize⟩

/-- What `FileBlock::WriteMeta` writes. -/
def fileBlockPage (m : SuperBlockMeta) (index : Nat) : Extent :=
  ⟨m.fileBlockMetaOffset + m.fileBlockMetaSize * index, m.fileBlockMetaSize⟩

def dataBlock (m : SuperBlockMeta) (id : Nat) : Extent :=
  ⟨m.blockDataStartOffset + m.blockSize * id, m.blockSize⟩

def zone (m : SuperBlockMeta) : Zone → Extent
  | .superBlock => m.superExtent
  | .dirs => m.dirExtent
  | .files => m.fileExtent
  | .fileBlocks => m.fileBlockExtent
  | .block id => m.dataBlock id

/-- The writes into a zone: of the super block, of the page of a slot, and the transfers of a plan
to a data block. -/
inductive Writes (m : SuperBlockMeta) : Zone → Extent → Prop
  | superBlock : Writes m .superBlock m.superExtent
  | dir {dh} (slot : dh < m.maxFileNum) : Writes m .dirs (m.dirPage dh)
  | file {fh} (slot : fh < m.maxFileNum) : Writes m .files (m.filePage fh)
  | fileBlock {index} (slot : index < m.maxFileBlockNum) : Writes m .fileBlocks (m.fileBlockPage index)
  | data {table size offset plan block} (planned : planTransfer m table size offset = .ok plan)
    (member : block ∈ plan) : Writes m (.block block.blockId) block.extent

/-- A zone that the layout counts. -/
def Counts (m : SuperBlockMeta) : Zone → Prop
  | .block id => id < m.currBlockNum
  | _ => True

/-- A page starts at a multiple of its size, contains a slot and lies inside a region. -/
structure PageOf (page slot region : Extent) : Prop where
  aligned : page.start % kBlockFsPageSize = 0
  holds : slot.Within page
  inside : page.Within region

/-- The regions follow each other, the data after padding to a whole block; each holds its slots
and the pages of its writers; the data blocks lie behind all metadata and on the device; and no
write to one zone changes a byte of another. -/
structure Separated (m : SuperBlockMeta) : Prop where
  dirsNext : m.dirExtent.start = m.superExtent.stop
  filesNext : m.fileExtent.start = m.dirExtent.stop
  fileBlocksNext : m.fileBlockExtent.start = m.fileExtent.stop
  dataNext : m.dataExtent.start = roundUp m.fileBlockExtent.stop kBlockSize
  regions : m.regions.Pairwise Extent.Apart
  dirSlots : ∀ dh < m.maxFileNum, (m.dirSlot dh).Within m.dirExtent
  fileSlots : ∀ fh < m.maxFileNum, (m.fileSlot fh).Within m.fileExtent
  fileBlockSlots : ∀ index < m.maxFileBlockNum, (m.fileBlockSlot index).Within m.fileBlockExtent
  dirPages : ∀ dh < m.maxFileNum, PageOf (m.dirPage dh) (m.dirSlot dh) m.dirExtent
  filePages : ∀ fh < m.maxFileNum, PageOf (m.filePage fh) (m.fileSlot fh) m.fileExtent
  fileBlockPages : ∀ index < m.maxFileBlockNum,
    PageOf (m.fileBlockPage index) (m.fileBlockSlot index) m.fileBlockExtent
  blocks : ∀ i < m.currBlockNum, ∀ j < m.currBlockNum, i ≠ j → (m.dataBlock i).Apart (m.dataBlock j)
  blocksBehind : ∀ i < m.currBlockNum, ∀ z, m.Counts z → (∀ id, z ≠ .block id) →
    (m.zone z).Apart (m.dataBlock i)
  blocksInside : ∀ i < m.currBlockNum, (m.dataBlock i).stop ≤ m.deviceSize
  writes : ∀ z e, m.Writes z e → e.Within (m.zone z)
  others : ∀ z e, m.Writes z e → m.Counts z → ∀ z', m.Counts z' → z' ≠ z →
    ∀ (source image : Nat → UInt8) (x : Nat), (m.zone z').Has x → e.store source image x = image x

/-- The data region begins on the device and holds the counted blocks, of which there are no more
than ids and no more than the layout supports. -/
def Fits (m : SuperBlockMeta) : Prop :=
  m.blockDataStartOffset ≤ m.deviceSize ∧
    m.blockDataStartOffset + m.currBlockNum * kBlockSize ≤ m.deviceSize ∧
    m.currBlockNum < 2 ^ 32 ∧ m.currBlockNum ≤ m.maxSupportBlockNum

end SuperBlockMeta

namespace SuperBlock
variable [Crc32] {deviceSize : Nat}

theorem formatAllMeta_maxSupportBlockNum (deviceSize : Nat) :
    (formatAllMeta deviceSize).maxSupportBlockNum = 33554271 := by rfl

section Extents
variable (deviceSize : Nat)

theorem superExtent_eq : (formatAllMeta deviceSize).superExtent = ⟨0, 4096⟩ := by rfl
theorem dirExtent_eq : (formatAllMeta deviceSize).dirExtent = ⟨4096, 102400000⟩ := by rfl
theorem fileExtent_eq : (formatAllMeta deviceSize).fileExtent = ⟨102404096, 25600000⟩ := by rfl
theorem fileBlockExtent_eq : (formatAllMeta deviceSize).fileBlockExtent = ⟨128004096, 547037184⟩ := by rfl

theorem dirSlot_eq (dh : Nat) :
    (formatAllMeta deviceSize).dirSlot dh = ⟨4096 + 1024 * dh, 1024⟩ := by rfl
theorem fileSlot_eq (fh : Nat) :
    (formatAllMeta deviceSize).fileSlot fh = ⟨102404096 + 256 * fh, 256⟩ := by rfl
theorem fileBlockSlot_eq (index : Nat) :
    (formatAllMeta deviceSize).fileBlockSlot index = ⟨128004096 + 4096 * index, 4096⟩ := by rfl

theorem dirPage_eq (dh : Nat) :
    (formatAllMeta deviceSize).dirPage dh = ⟨4096 + 1024 * pageAlignIndex 4 dh, 4096⟩ := by
  have size : (formatAllMeta deviceSize).dirMetaSize = 1024 := by rfl
  rw [SuperBlockMeta.dirPage, size, show kBlockFsPageSize / 1024 = 4 by decide]
  rfl

theorem filePage_eq (fh : Nat) :
    (formatAllMeta deviceSize).filePage fh = ⟨102404096 + 256 * pageAlignIndex 16 fh, 4096⟩ := by
  have size : (formatAllMeta deviceSize).fileMetaSize = 256 := by rfl
  rw [SuperBlockMeta.filePage, size, show kBlockFsPageSize / 256 = 16 by decide]
  rfl

theorem fileBlockPage_eq (index : Nat) :
    (formatAllMeta deviceSize).fileBlockPage index = ⟨128004096 + 4096 * index, 4096⟩ := by rfl

theorem dataBlock_eq (id : Nat) :
    (formatAllMeta deviceSize).dataBlock id = ⟨675282944 + 4194304 * id, 4194304⟩ := by rfl

end Extents

omit [Crc32] in
/-- A page holds its slot, and since whole pages make up the region, it ends inside. -/
theorem pageAlignIndex_spec {perPage pages slot : Nat} (known : slot < perPage * pages) :
    perPage ∣ pageAlignIndex perPage slot ∧ pageAlignIndex perPage slot ≤ slot ∧
      slot < pageAlignIndex perPage slot + perPage ∧
      pageAlignIndex perPage slot + perPage ≤ perPage * pages := by
  have positive : 0 < perPage := Nat.pos_of_mul_pos_right (Nat.zero_lt_of_lt known)
  have split := Nat.div_add_mod slot perPage
  have rest := Nat.mod_lt slot positive
  have page : pageAlignIndex perPage slot = perPage * (slot / perPage) := by
    unfold pageAlignIndex
    omega
  have whole : slot / perPage < pages := Nat.div_lt_of_lt_mul known
  have last := Nat.mul_le_mul_left perPage (Nat.succ_le_of_lt whole)
  rw [Nat.mul_succ] at last
  rw [page]
  exact ⟨Nat.dvd_mul_right _ _, by omega, by omega, last⟩

theorem formatAllMeta_dirPages {dh : Nat} (slot : dh < 100000) :
    SuperBlockMeta.PageOf ((formatAllMeta deviceSize).dirPage dh) ((formatAllMeta deviceSize).dirSlot dh)
      (formatAllMeta deviceSize).dirExtent := by
  obtain ⟨whole, before, behind, ends⟩ :=
    @pageAlignIndex_spec 4 25000 dh (by omega)
  rw [dirPage_eq, dirSlot_eq, dirExtent_eq]
  refine ⟨?_, ⟨?_, ?_⟩, ?_, ?_⟩
  · rw [show kBlockFsPageSize = 4096 from rfl]
    dsimp only
    omega
  all_goals
    dsimp only [Extent.stop]
    omega

theorem formatAllMeta_filePages {fh : Nat} (slot : fh < 100000) :
    SuperBlockMeta.PageOf ((formatAllMeta deviceSize).filePage fh) ((formatAllMeta deviceSize).fileSlot fh)
      (formatAllMeta deviceSize).fileExtent := by
  obtain ⟨whole, before, behind, ends⟩ := @pageAlignIndex_spec 16 6250 fh (by omega)
  rw [filePage_eq, fileSlot_eq, fileExtent_eq]
  refine ⟨?_, ⟨?_, ?_⟩, ?_, ?_⟩
  · rw [show kBlockFsPageSize = 4096 from rfl]
    dsimp only
    omega
  all_goals
    dsimp only [Extent.stop]
    omega

theorem formatAllMeta_fileBlockPages {index : Nat} (slot : index < 133554) :
    SuperBlockMeta.PageOf ((formatAllMeta deviceSize).fileBlockPage index)
      ((formatAllMeta deviceSize).fileBlockSlot index) (formatAllMeta deviceSize).fileBlockExtent := by
  rw [fileBlockPage_eq, fileBlockSlot_eq, fileBlockExtent_eq]
  refine ⟨?_, ⟨?_, ?_⟩, ?_, ?_⟩
  · rw [show kBlockFsPageSize = 4096 from rfl]
    dsimp only
    omega
  all_goals
    dsimp only [Extent.stop]
    omega

omit [Crc32] in
/-- Every transfer of a plan stays inside its block. -/
theorem planBlocks_within {super : SuperBlockMeta} (blockSize : super.blockSize = kBlockSize)
    {table : FileBlockMeta} {size fuel curr index inBlock : Nat} {plan : List BlockData}
    (byte : inBlock < kBlockSize)
    (planned : planBlocks super table size fuel curr index inBlock = .ok plan) :
    ∀ block ∈ plan, block.extent.Within (super.dataBlock block.blockId) := by
  induction fuel generalizing curr index inBlock plan with
  | zero => simp [planBlocks] at planned
  | succ fuel ih =>
    unfold planBlocks at planned
    obtain ⟨id, _, planned⟩ := Except.bind_eq_ok.mp planned
    dsimp only at planned
    have first : Extent.Within
        (BlockData.extent
          { blockId := id, bufferOffset := curr,
            devOffset := super.blockDataStartOffset + super.blockSize * id + inBlock,
            size := if 0 < inBlock then min size (kBlockSize - inBlock) else min (size - curr) kBlockSize })
        (super.dataBlock id) := by
      unfold Extent.Within Extent.stop BlockData.extent SuperBlockMeta.dataBlock
      dsimp only
      rw [blockSize]
      split <;> omega
    generalize (if 0 < inBlock then min size (kBlockSize - inBlock) else min (size - curr) kBlockSize) = moved
      at first planned
    split at planned
    · obtain rfl := Except.ok.inj planned
      intro block member
      rw [List.mem_singleton] at member
      exact member ▸ first
    · obtain ⟨rest, later, planned⟩ := Except.bind_eq_ok.mp planned
      obtain rfl := Except.ok.inj planned
      intro block member
      rcases List.mem_cons.mp member with here | there
      · exact here ▸ first
      · exact ih kBlockSize_pos later block there

/-- Every write lies inside its zone. -/
theorem formatAllMeta_writes {z : Zone} {e : Extent} (write : (formatAllMeta deviceSize).Writes z e) :
    e.Within ((formatAllMeta deviceSize).zone z) := by
  cases write with
  | superBlock => exact ⟨le_rfl, le_rfl⟩
  | dir slot => exact (formatAllMeta_dirPages slot).inside
  | file slot => exact (formatAllMeta_filePages slot).inside
  | fileBlock slot => exact (formatAllMeta_fileBlockPages slot).inside
  | data planned member =>
    exact planBlocks_within rfl (Nat.mod_lt _ kBlockSize_pos) planned _ member

/-- The data blocks lie between the metadata and the end of the device. -/
theorem formatAllMeta_blocksInside (large : 675282944 ≤ deviceSize) (bounded : deviceSize < 2 ^ 64)
    {id : Nat} (counted : id < (formatAllMeta deviceSize).currBlockNum) :
    ((formatAllMeta deviceSize).dataBlock id).stop ≤ deviceSize := by
  rw [formatAllMeta_currBlockNum large bounded, kBlockSize_eq] at counted
  rw [dataBlock_eq]
  dsimp only [Extent.stop]
  omega

/-- Two zones of a layout lie apart. -/
theorem formatAllMeta_apart {z z' : Zone} (other : z' ≠ z) :
    ((formatAllMeta deviceSize).zone z).Apart ((formatAllMeta deviceSize).zone z') := by
  have blocks {i j : Nat} (ne : j ≠ i) :
      ((formatAllMeta deviceSize).dataBlock i).Apart ((formatAllMeta deviceSize).dataBlock j) := by
    rw [dataBlock_eq, dataBlock_eq]
    dsimp only [Extent.Apart, Extent.stop]
    omega
  have order : ∀ z z' : Zone, z' ≠ z → ((formatAllMeta deviceSize).zone z).Apart
      ((formatAllMeta deviceSize).zone z') := by
    intro z z' other
    cases z <;> cases z' <;>
      first
        | exact absurd rfl other
        | exact blocks fun same => other (same ▸ rfl)
        | (simp only [SuperBlockMeta.zone, superExtent_eq, dirExtent_eq, fileExtent_eq, fileBlockExtent_eq,
            dataBlock_eq, Extent.Apart, Extent.stop]
           omega)
  exact order z z' other

/-- The layout of a device that holds its metadata keeps the regions and the blocks apart. -/
theorem formatAllMeta_separated (large : (formatAllMeta deviceSize).blockDataStartOffset ≤ deviceSize)
    (bounded : deviceSize < 2 ^ 64) : (formatAllMeta deviceSize).Separated := by
  have starts : 675282944 ≤ deviceSize := large
  exact
    { dirsNext := by rfl
      filesNext := by rfl
      fileBlocksNext := by rfl
      dataNext := by rfl
      regions := by
        have data : (formatAllMeta deviceSize).dataExtent = ⟨675282944, deviceSize - 675282944⟩ := by rfl
        simp only [SuperBlockMeta.regions, superExtent_eq, dirExtent_eq, fileExtent_eq, fileBlockExtent_eq,
          data, List.pairwise_cons, List.mem_cons, List.not_mem_nil, or_false, forall_eq_or_imp, forall_eq,
          Extent.Apart, Extent.stop]
        simp
      dirSlots := fun dh slot => (formatAllMeta_dirPages slot).holds.trans (formatAllMeta_dirPages slot).inside
      fileSlots := fun fh slot =>
        (formatAllMeta_filePages slot).holds.trans (formatAllMeta_filePages slot).inside
      fileBlockSlots := fun index slot =>
        (formatAllMeta_fileBlockPages slot).holds.trans (formatAllMeta_fileBlockPages slot).inside
      dirPages := fun dh slot => formatAllMeta_dirPages slot
      filePages := fun fh slot => formatAllMeta_filePages slot
      fileBlockPages := fun index slot => formatAllMeta_fileBlockPages slot
      blocks := fun i _ j _ ne => @formatAllMeta_apart _ _ (.block i) (.block j) fun same =>
        ne (Zone.block.inj same).symm
      blocksBehind := fun i _ z _ off => @formatAllMeta_apart _ _ z (.block i) (off i).symm
      blocksInside := fun i counted => formatAllMeta_blocksInside starts bounded counted
      writes := fun z e => formatAllMeta_writes
      others := fun z e write _ z' _ other source image x has =>
        ((formatAllMeta_apart other).within (formatAllMeta_writes write) ⟨le_rfl, le_rfl⟩).store has
          source image }

omit [Crc32] in
/-- A device with two data blocks. -/
theorem formatAllMeta_separated_two :
    (@formatAllMeta FileSystem.zeroCrc 683671552).currBlockNum = 2 ∧ (@formatAllMeta FileSystem.zeroCrc 683671552).Separated :=
  ⟨by rfl, @formatAllMeta_separated FileSystem.zeroCrc 683671552 (by decide) (by decide)⟩

end SuperBlock

/-- Formatting succeeds only on a device that the layout fits. -/
def Disk.FormatsOnlyFitting [Crc32] (d : Disk) : Prop :=
  (d.format.2 = true → (SuperBlock.formatAllMeta d.size).Fits) ∧
    (¬(SuperBlock.formatAllMeta d.size).Fits → d.format.2 = false)

section Formatting
variable [Crc32] {d : Disk}

/-- Only the last metadata region is compared with the end of the device. -/
theorem Disk.format_accepts (d : Disk) : d.format.2 = true ↔ 675041280 ≤ d.size := by
  obtain ⟨dirOffset, dirTotal⟩ := SuperBlock.formatAllMeta_dirs d.size
  obtain ⟨fileOffset, fileTotal⟩ := SuperBlock.formatAllMeta_files d.size
  obtain ⟨blockOffset, blockTotal⟩ := SuperBlock.formatAllMeta_fileBlocks d.size
  have superEnd : kSuperBlockOffset + kSuperBlockSize = 4096 := rfl
  unfold Disk.format
  dsimp only
  rw [dirOffset, dirTotal, fileOffset, fileTotal, blockOffset, blockTotal, superEnd]
  split
  · simp
    omega
  split
  · simp
    omega
  split
  · simp
    omega
  split <;> simp <;> omega

/-- The block count wraps around on a device that ends before its data region. -/
theorem SuperBlock.formatAllMeta_fits (d : Disk) (bounded : d.size < 2 ^ 64) :
    (SuperBlock.formatAllMeta d.size).Fits ↔ 675282944 ≤ d.size ∧ d.size < kBlockFsMaxUDiskSize + kBlockSize := by
  have start := SuperBlock.formatAllMeta_blockDataStartOffset d.size
  have support := SuperBlock.formatAllMeta_maxSupportBlockNum d.size
  have size : (SuperBlock.formatAllMeta d.size).deviceSize = d.size := rfl
  have most : kBlockFsMaxUDiskSize + kBlockSize = 140737492549632 := by decide
  rw [SuperBlockMeta.Fits, start, support, size, most]
  constructor
  · rintro ⟨large, _, _, supported⟩
    rw [SuperBlock.formatAllMeta_currBlockNum large bounded, kBlockSize_eq] at supported
    omega
  · rintro ⟨large, small⟩
    rw [SuperBlock.formatAllMeta_currBlockNum large bounded, kBlockSize_eq]
    omega

/-- Formatting goes wrong on a device that ends in the padding behind the metadata, and on one that
is too large for the layout. -/
theorem Disk.formatsOnlyFitting_iff (bounded : d.size < 2 ^ 64) :
    d.FormatsOnlyFitting ↔
      d.size < 675041280 ∨ (675282944 ≤ d.size ∧ d.size < kBlockFsMaxUDiskSize + kBlockSize) := by
  have accepts := d.format_accepts
  have fits := SuperBlock.formatAllMeta_fits d bounded
  rw [Disk.FormatsOnlyFitting]
  constructor
  · rintro ⟨sound, _⟩
    by_cases accepted : d.format.2 = true
    · exact .inr (fits.mp (sound accepted))
    · have small := mt accepts.mpr accepted
      exact .inl (by omega)
  · rintro (small | good)
    · have refused : d.format.2 ≠ true := fun accepted => by
        have large := accepts.mp accepted
        omega
      exact ⟨fun accepted => absurd accepted refused, fun _ => Bool.eq_false_iff.mpr refused⟩
    · exact ⟨fun _ => fits.mpr good, fun unfit => absurd (fits.mpr good) unfit⟩

omit [Crc32] in
/-- A device of `size` bytes that holds nothing. -/
def blankDisk (size : Nat) : Disk :=
  letI := FileSystem.zeroCrc
  { size := size, superMeta := SuperBlock.formatAllMeta size, dirMetas := formattedDir,
    fileMetas := formattedFile, fileBlockMetas := formattedFileBlock, data := fun _ => 0 }

omit [Crc32] in
theorem Disk.formatsOnlyFitting_two : @Disk.FormatsOnlyFitting FileSystem.zeroCrc (blankDisk 683671552) := by
  let _ := FileSystem.zeroCrc
  exact (Disk.formatsOnlyFitting_iff (d := blankDisk 683671552) (by decide)).mpr (.inr (by decide))

omit [Crc32] in
/-- A device that ends where its metadata ends is accepted. -/
theorem Disk.not_formatsOnlyFitting :
    (blankDisk 675041280).size % 512 = 0 ∧
      ¬@Disk.FormatsOnlyFitting FileSystem.zeroCrc (blankDisk 675041280) := by
  let _ := FileSystem.zeroCrc
  refine ⟨by decide, fun sound => ?_⟩
  have large : 675282944 ≤ 675041280 := (sound.1 ((Disk.format_accepts _).mpr le_rfl)).1
  omega

end Formatting

end BlockFs
