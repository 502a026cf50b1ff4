import BlockFs.FreshMount
import BlockFs.Persist
import BlockFs.Lib.Ledger

namespace BlockFs

theorem mul_blockCount_le [Crc32] {deviceSize : Nat} (large : 675282944 ≤ deviceSize) :
    675282944 + kBlockSize * blockCount deviceSize ≤ deviceSize := by
  have wrap : (deviceSize + 2 ^ 64 - 675282944) % 2 ^ 64 ≤ deviceSize - 675282944 := by
    have shift : deviceSize + 2 ^ 64 - 675282944 = deviceSize - 675282944 + 2 ^ 64 := by omega
    rw [shift, Nat.add_mod_right]
    exact Nat.mod_le _ _
  have narrowed : blockCount deviceSize ≤
      (deviceSize + 2 ^ 64 - 675282944) % 2 ^ 64 / kBlockSize := Nat.mod_le _ _
  have whole := Nat.mul_div_le ((deviceSize + 2 ^ 64 - 675282944) % 2 ^ 64) kBlockSize
  have scaled := Nat.mul_le_mul_left kBlockSize narrowed
  omega

/-- A file block that holds the content of the file whose slot is `m`. -/
structure Backs (slot : FileBlockMeta) (m : FileMeta) : Prop where
  used : slot.used = true
  fileCut : slot.fileCut = 0
  fh : slot.fh = m.fh
  isTemp : slot.isTemp = m.isTemp
  covers : m.size ≤ slot.usedBlockNum * kBlockSize
  bounded : slot.usedBlockNum ≤ kFileBlockCapacity

/-- A file block that lists more ids still holds the content of its file. -/
theorem Backs.longer {slot slot' : FileBlockMeta} {m : FileMeta} {offset : Nat}
    (backs : Backs slot m) (same : FileBlockMeta.SameSlot slot slot')
    (covers : offset ≤ slot'.usedBlockNum * kBlockSize)
    (bounded : slot'.usedBlockNum ≤ kFileBlockCapacity) : Backs slot' { m with size := offset } where
  used := by rw [same]; exact backs.used
  fileCut := by rw [same]; exact backs.fileCut
  fh := by rw [same]; exact backs.fh
  isTemp := by rw [same]; exact backs.isTemp
  covers := covers
  bounded := bounded

theorem Backs.sealed [Crc32] {slot : FileBlockMeta} {m : FileMeta} (backs : Backs slot m) :
    Backs slot.sealed m.sealed :=
  ⟨backs.used, backs.fileCut, backs.fh, backs.isTemp, backs.covers, backs.bounded⟩

/-- Resources that no list and no file accounts for any more. -/
structure Lost where
  fhs : Multiset Nat
  fbhs : Multiset Nat
  ids : Multiset Nat

namespace FileSystem

/-- The file blocks of a file and the block ids they list. -/
def attached (s : FileSystem) (f : FilePtr) : List FileBlockPtr :=
  (s.files f).itemMaps.entries.map (·.2)

def blockIds (s : FileSystem) (f : FilePtr) : List Nat :=
  (s.attached f).flatMap fun b => (s.fileBlockMetas b).ids

/-- A file without content has no file block, any other exactly one, at cut 0. -/
inductive FileRep (s : FileSystem) (f : FilePtr) : Prop
  | empty (size : (s.fileMeta f).size = 0) (entries : (s.files f).itemMaps.entries = [])
  | backed (b : FileBlockPtr) (size : 0 < (s.fileMeta f).size)
    (entries : (s.files f).itemMaps.entries = [⟨0, b⟩])
    (backs : Backs (s.fileBlockMetas b) (s.fileMeta f))

theorem FileRep.of_entries {s : FileSystem} {f : FilePtr} (rep : s.FileRep f) {b : FileBlockPtr}
    (entries : (s.files f).itemMaps.entries = [⟨0, b⟩]) :
    0 < (s.fileMeta f).size ∧ Backs (s.fileBlockMetas b) (s.fileMeta f) := by
  cases rep with
  | empty _ none => simp [none] at entries
  | backed c positive only backs =>
    obtain rfl : c = b := by simpa using only.symm.trans entries
    exact ⟨positive, backs⟩

/-- A file that a step leaves alone: its slot, its item map and the file blocks in it. -/
structure SameFile (s s' : FileSystem) (f : FilePtr) : Prop where
  metaSlot : (s'.files f).metaSlot = (s.files f).metaSlot
  itemMaps : (s'.files f).itemMaps = (s.files f).itemMaps
  fh : (s'.fileMeta f).fh = (s.fileMeta f).fh
  size : (s'.fileMeta f).size = (s.fileMeta f).size
  isTemp : (s'.fileMeta f).isTemp = (s.fileMeta f).isTemp
  used : (s'.fileMeta f).used = (s.fileMeta f).used
  fileBlockMetas : ∀ b ∈ s.attached f, s'.fileBlockMetas b = s.fileBlockMetas b

namespace SameFile
variable {s s' : FileSystem} {f : FilePtr} (same : SameFile s s' f)
include same

theorem attached_eq : s'.attached f = s.attached f := by
  rw [attached, attached, same.itemMaps]

theorem blockIds_eq : s'.blockIds f = s.blockIds f := by
  rw [blockIds, blockIds, same.attached_eq]
  exact List.flatMap_congr fun b member => by rw [same.fileBlockMetas b member]

theorem fileRep (rep : s.FileRep f) : s'.FileRep f := by
  cases rep with
  | empty zero entries => exact .empty (same.size.trans zero) (by rw [same.itemMaps, entries])
  | backed b positive entries backs =>
    refine .backed b (same.size ▸ positive) (by rw [same.itemMaps, entries]) ?_
    have member : b ∈ s.attached f := by simp [attached, entries]
    rw [same.fileBlockMetas b member]
    exact
      { used := backs.used
        fileCut := backs.fileCut
        fh := by rw [backs.fh, same.fh]
        isTemp := by rw [backs.isTemp, same.isTemp]
        covers := same.size ▸ backs.covers
        bounded := backs.bounded }

end SameFile

theorem SameFile.of_agree {s s' : FileSystem} {f : FilePtr} (file : s'.files f = s.files f)
    (slot : s'.fileMetas (s.files f).metaSlot = s.fileMetas (s.files f).metaSlot)
    (fileBlocks : ∀ b ∈ s.attached f, s'.fileBlockMetas b = s.fileBlockMetas b) : SameFile s s' f := by
  have same : s'.fileMeta f = s.fileMeta f := by rw [fileMeta, fileMeta, file, slot]
  exact
    { metaSlot := by rw [file]
      itemMaps := by rw [file]
      fh := by rw [same]
      size := by rw [same]
      isTemp := by rw [same]
      used := by rw [same]
      fileBlockMetas := fileBlocks }

theorem SameFile.refl (s : FileSystem) (f : FilePtr) : SameFile s s f :=
  .of_agree rfl rfl fun _ _ => rfl

theorem SameFile.trans {s₁ s₂ s₃ : FileSystem} {f : FilePtr} (first : SameFile s₁ s₂ f)
    (second : SameFile s₂ s₃ f) : SameFile s₁ s₃ f where
  metaSlot := second.metaSlot.trans first.metaSlot
  itemMaps := second.itemMaps.trans first.itemMaps
  fh := second.fh.trans first.fh
  size := second.size.trans first.size
  isTemp := second.isTemp.trans first.isTemp
  used := second.used.trans first.used
  fileBlockMetas b member :=
    (second.fileBlockMetas b (first.attached_eq ▸ member)).trans (first.fileBlockMetas b member)

/-- The part of the state that holds the directories. -/
structure DirSide where
  dirMetas : Nat → DirMeta
  freeDhs : List Nat
  directories : Nat → Directory
  nextDirectory : Nat
  createdDirs : Map Name DirectoryPtr
  createdDhs : Map Nat DirectoryPtr

def dirSide (s : FileSystem) : DirSide :=
  { dirMetas := s.dirMetas
    freeDhs := s.freeDhs
    directories := s.directories
    nextDirectory := s.nextDirectory
    createdDirs := s.createdDirs
    createdDhs := s.createdDhs }

/-- What no step changes: the layout, and the extent of the device and of the file table. -/
structure SameLayout (s s' : FileSystem) : Prop where
  superMeta : s'.superMeta = s.superMeta
  maxBlockNum : s'.maxBlockNum = s.maxBlockNum
  diskSize : s'.disk.size = s.disk.size
  parentFiles : s'.parentFiles = s.parentFiles

/-- Two states that agree on everything the accounts read. -/
structure SameResources (s s' : FileSystem) : Prop where
  layout : SameLayout s s'
  nextFile : s'.nextFile = s.nextFile
  freeFhs : s'.freeFhs = s.freeFhs
  freeFbhs : s'.freeFbhs = s.freeFbhs
  blockIdPool : s'.blockIdPool = s.blockIdPool
  fileBlockMetas : s'.fileBlockMetas = s.fileBlockMetas
  metaSlot : ∀ f, (s'.files f).metaSlot = (s.files f).metaSlot
  itemMaps : ∀ f, (s'.files f).itemMaps = (s.files f).itemMaps
  fh : ∀ i, (s'.fileMetas i).fh = (s.fileMetas i).fh
  size : ∀ i, (s'.fileMetas i).size = (s.fileMetas i).size
  used : ∀ i, (s'.fileMetas i).used = (s.fileMetas i).used
  isTemp : ∀ i, (s'.fileMetas i).isTemp = (s.fileMetas i).isTemp

theorem SameLayout.refl (s : FileSystem) : SameLayout s s := ⟨rfl, rfl, rfl, rfl⟩

theorem SameLayout.trans {s₁ s₂ s₃ : FileSystem} (first : SameLayout s₁ s₂)
    (second : SameLayout s₂ s₃) : SameLayout s₁ s₃ where
  superMeta := second.superMeta.trans first.superMeta
  maxBlockNum := second.maxBlockNum.trans first.maxBlockNum
  diskSize := second.diskSize.trans first.diskSize
  parentFiles := second.parentFiles.trans first.parentFiles

theorem SameResources.refl (s : FileSystem) : SameResources s s := by
  constructor
  case layout => exact .refl s
  all_goals intros
  all_goals rfl

theorem SameResources.trans {s₁ s₂ s₃ : FileSystem} (first : SameResources s₁ s₂)
    (second : SameResources s₂ s₃) : SameResources s₁ s₃ where
  layout := first.layout.trans second.layout
  nextFile := second.nextFile.trans first.nextFile
  freeFhs := second.freeFhs.trans first.freeFhs
  freeFbhs := second.freeFbhs.trans first.freeFbhs
  blockIdPool := second.blockIdPool.trans first.blockIdPool
  fileBlockMetas := second.fileBlockMetas.trans first.fileBlockMetas
  metaSlot f := (second.metaSlot f).trans (first.metaSlot f)
  itemMaps f := (second.itemMaps f).trans (first.itemMaps f)
  fh i := (second.fh i).trans (first.fh i)
  size i := (second.size i).trans (first.size i)
  used i := (second.used i).trans (first.used i)
  isTemp i := (second.isTemp i).trans (first.isTemp i)

theorem SameResources.sameFile {s s' : FileSystem} (same : SameResources s s') (f : FilePtr) :
    SameFile s s' f where
  metaSlot := same.metaSlot f
  itemMaps := same.itemMaps f
  fh := by rw [fileMeta, fileMeta, same.metaSlot, same.fh]
  size := by rw [fileMeta, fileMeta, same.metaSlot, same.size]
  isTemp := by rw [fileMeta, fileMeta, same.metaSlot, same.isTemp]
  used := by rw [fileMeta, fileMeta, same.metaSlot, same.used]
  fileBlockMetas _ _ := by rw [same.fileBlockMetas]

theorem mem_range {s : FileSystem} {f : FilePtr} (bound : f < s.nextFile) :
    f ∈ Finset.range s.nextFile := Finset.mem_range.mpr bound

section Consistency
variable [Crc32]

/-- The accounts of file slots, file blocks and data blocks balance, what is free is clean, and
every file object has its representation. -/
structure Consistent (s : FileSystem) (lost : Lost) : Prop where
  super : s.superMeta = SuperBlock.formatAllMeta s.disk.size
  large : 675282944 ≤ s.disk.size
  count : s.maxBlockNum = blockCount s.disk.size
  parents : s.parentFiles = ∅
  slots : ∀ i, (s.fileMetas i).fh = i
  handles : Ledger.Balanced (Multiset.range kMaxFileNum) s.freeFhs (Finset.range s.nextFile)
    (fun f => {(s.files f).metaSlot}) lost.fhs
  fileBlocks : Ledger.Balanced (Multiset.range 133554) s.freeFbhs (Finset.range s.nextFile)
    (fun f => s.attached f) lost.fbhs
  blocks : Ledger.Balanced (Multiset.range s.maxBlockNum) s.blockIdPool (Finset.range s.nextFile)
    (fun f => s.blockIds f) lost.ids
  cleanFhs : ∀ i ∈ s.freeFhs, (s.fileMetas i).used = false ∧ (s.fileMetas i).size = 0
  cleanFbhs : ∀ b ∈ s.freeFbhs,
    (s.fileBlockMetas b).used = false ∧ (s.fileBlockMetas b).usedBlockNum = 0
  rep : ∀ f < s.nextFile, s.FileRep f

theorem Consistent.congr {s s' : FileSystem} {lost : Lost} (consistent : Consistent s lost)
    (same : SameResources s s') : Consistent s' lost where
  super := by rw [same.layout.superMeta, same.layout.diskSize, consistent.super]
  large := same.layout.diskSize ▸ consistent.large
  count := by rw [same.layout.maxBlockNum, same.layout.diskSize, consistent.count]
  parents := by rw [same.layout.parentFiles, consistent.parents]
  slots i := by rw [same.fh, consistent.slots]
  handles := by
    rw [same.freeFhs, same.nextFile]
    exact consistent.handles.congr fun f _ => by rw [same.metaSlot]
  fileBlocks := by
    rw [same.freeFbhs, same.nextFile]
    exact consistent.fileBlocks.congr fun f _ => by rw [(same.sameFile f).attached_eq]
  blocks := by
    rw [same.blockIdPool, same.nextFile, same.layout.maxBlockNum]
    exact consistent.blocks.congr fun f _ => by rw [(same.sameFile f).blockIds_eq]
  cleanFhs i member := by
    rw [same.used, same.size]
    exact consistent.cleanFhs i (same.freeFhs ▸ member)
  cleanFbhs b member := by
    rw [same.fileBlockMetas]
    exact consistent.cleanFbhs b (same.freeFbhs ▸ member)
  rep f bound := (same.sameFile f).fileRep (consistent.rep f (same.nextFile ▸ bound))

/-- A step that changes one file keeps the accounts if its trade balances at that file. -/
theorem Consistent.replace {s s' : FileSystem} {lost lost' : Lost} {f : FilePtr}
    (consistent : Consistent s lost) (bound : f < s.nextFile) (layout : SameLayout s s')
    (nextFile : s'.nextFile = s.nextFile)
    (others : ∀ g < s.nextFile, g ≠ f → SameFile s s' g)
    (slots : ∀ i, (s'.fileMetas i).fh = i)
    (handles : (s'.freeFhs + {(s'.files f).metaSlot} + lost'.fhs : Multiset Nat) =
      s.freeFhs + {(s.files f).metaSlot} + lost.fhs)
    (fileBlocks : (s'.freeFbhs + s'.attached f + lost'.fbhs : Multiset Nat) =
      s.freeFbhs + s.attached f + lost.fbhs)
    (blocks : (s'.blockIdPool + s'.blockIds f + lost'.ids : Multiset Nat) =
      s.blockIdPool + s.blockIds f + lost.ids)
    (cleanFhs : ∀ i ∈ s'.freeFhs, (s'.fileMetas i).used = false ∧ (s'.fileMetas i).size = 0)
    (cleanFbhs : ∀ b ∈ s'.freeFbhs,
      (s'.fileBlockMetas b).used = false ∧ (s'.fileBlockMetas b).usedBlockNum = 0)
    (rep : s'.FileRep f) : Consistent s' lost' where
  super := by rw [layout.superMeta, layout.diskSize, consistent.super]
  large := layout.diskSize ▸ consistent.large
  count := by rw [layout.maxBlockNum, layout.diskSize, consistent.count]
  parents := by rw [layout.parentFiles, consistent.parents]
  slots := slots
  handles := by
    rw [nextFile]
    refine consistent.handles.exchange (mem_range bound) (fun g member distinct => ?_) handles
    rw [(others g (Finset.mem_range.mp member) distinct).metaSlot]
  fileBlocks := by
    rw [nextFile]
    refine consistent.fileBlocks.exchange (mem_range bound) (fun g member distinct => ?_) fileBlocks
    rw [(others g (Finset.mem_range.mp member) distinct).attached_eq]
  blocks := by
    rw [nextFile, layout.maxBlockNum]
    refine consistent.blocks.exchange (mem_range bound) (fun g member distinct => ?_) blocks
    rw [(others g (Finset.mem_range.mp member) distinct).blockIds_eq]
  cleanFhs := cleanFhs
  cleanFbhs := cleanFbhs
  rep g member := by
    rw [nextFile] at member
    by_cases same : g = f
    · exact same ▸ rep
    · exact (others g member same).fileRep (consistent.rep g member)

/-- A step that leaves every file alone keeps the accounts if what it takes or puts back is made up
for by the lost resources. -/
theorem Consistent.untouched {s s' : FileSystem} {lost lost' : Lost}
    (consistent : Consistent s lost) (layout : SameLayout s s') (nextFile : s'.nextFile = s.nextFile)
    (same : ∀ f < s.nextFile, SameFile s s' f) (slots : ∀ i, (s'.fileMetas i).fh = i)
    (handles : (s'.freeFhs + lost'.fhs : Multiset Nat) = s.freeFhs + lost.fhs)
    (fileBlocks : (s'.freeFbhs + lost'.fbhs : Multiset Nat) = s.freeFbhs + lost.fbhs)
    (blocks : (s'.blockIdPool + lost'.ids : Multiset Nat) = s.blockIdPool + lost.ids)
    (cleanFhs : ∀ i ∈ s'.freeFhs, (s'.fileMetas i).used = false ∧ (s'.fileMetas i).size = 0)
    (cleanFbhs : ∀ b ∈ s'.freeFbhs,
      (s'.fileBlockMetas b).used = false ∧ (s'.fileBlockMetas b).usedBlockNum = 0) :
    Consistent s' lost' where
  super := by rw [layout.superMeta, layout.diskSize, consistent.super]
  large := layout.diskSize ▸ consistent.large
  count := by rw [layout.maxBlockNum, layout.diskSize, consistent.count]
  parents := by rw [layout.parentFiles, consistent.parents]
  slots := slots
  handles := by
    rw [nextFile]
    refine (consistent.handles.lose handles).congr fun f member => ?_
    rw [(same f (Finset.mem_range.mp member)).metaSlot]
  fileBlocks := by
    rw [nextFile]
    refine (consistent.fileBlocks.lose fileBlocks).congr fun f member => ?_
    rw [(same f (Finset.mem_range.mp member)).attached_eq]
  blocks := by
    rw [nextFile, layout.maxBlockNum]
    refine (consistent.blocks.lose blocks).congr fun f member => ?_
    rw [(same f (Finset.mem_range.mp member)).blockIds_eq]
  cleanFhs := cleanFhs
  cleanFbhs := cleanFbhs
  rep f bound := by
    rw [nextFile] at bound
    exact (same f bound).fileRep (consistent.rep f bound)

namespace Consistent
variable {s : FileSystem} {lost : Lost} (consistent : Consistent s lost) {f g : FilePtr}
include consistent

theorem fileMeta_fh (f : FilePtr) : (s.fileMeta f).fh = (s.files f).metaSlot :=
  consistent.slots _

theorem metaSlot_unique (hf : f < s.nextFile) (hg : g < s.nextFile)
    (same : (s.files f).metaSlot = (s.files g).metaSlot) : f = g :=
  consistent.handles.owner_unique (Multiset.nodup_range _) (mem_range hf) (mem_range hg)
    (Multiset.mem_singleton_self _) (same ▸ Multiset.mem_singleton_self _)

theorem metaSlot_not_free (hf : f < s.nextFile) {fh : Nat} (free : fh ∈ s.freeFhs) :
    (s.files f).metaSlot ≠ fh := by
  rintro rfl
  exact consistent.handles.not_free_of_held (Multiset.nodup_range _) (mem_range hf)
    (Multiset.mem_singleton_self _) free

theorem attached_unique (hf : f < s.nextFile) (hg : g < s.nextFile) {b : FileBlockPtr}
    (here : b ∈ s.attached f) (there : b ∈ s.attached g) : f = g :=
  consistent.fileBlocks.owner_unique (Multiset.nodup_range _) (mem_range hf) (mem_range hg) here there

theorem attached_not_free (hf : f < s.nextFile) {b : FileBlockPtr} (here : b ∈ s.attached f) :
    b ∉ s.freeFbhs :=
  consistent.fileBlocks.not_free_of_held (Multiset.nodup_range _) (mem_range hf) here

theorem blockIds_unique (hf : f < s.nextFile) (hg : g < s.nextFile) {id : Nat}
    (here : id ∈ s.blockIds f) (there : id ∈ s.blockIds g) : f = g :=
  consistent.blocks.owner_unique (Multiset.nodup_range _) (mem_range hf) (mem_range hg) here there

theorem blockIds_not_free (hf : f < s.nextFile) {id : Nat} (here : id ∈ s.blockIds f) :
    id ∉ s.blockIdPool :=
  consistent.blocks.not_free_of_held (Multiset.nodup_range _) (mem_range hf) here

theorem blockIds_nodup (hf : f < s.nextFile) : (s.blockIds f).Nodup :=
  consistent.blocks.holding_nodup (Multiset.nodup_range _) (mem_range hf)

theorem blockIds_lt (hf : f < s.nextFile) {id : Nat} (here : id ∈ s.blockIds f) :
    id < s.maxBlockNum :=
  Multiset.mem_range.mp (Multiset.mem_of_le (consistent.blocks.holding_le (mem_range hf)) here)

theorem pool_lt {id : Nat} (free : id ∈ s.blockIdPool) : id < s.maxBlockNum :=
  Multiset.mem_range.mp (Multiset.mem_of_le consistent.blocks.free_le free)

theorem pool_nodup : s.blockIdPool.Nodup :=
  consistent.blocks.free_nodup (Multiset.nodup_range _)

/-- Every counted block lies on the device. -/
theorem devOffset_le {id : Nat} (bound : id < s.maxBlockNum) :
    s.devOffset id 0 + kBlockSize ≤ s.disk.size := by
  have region := mul_blockCount_le consistent.large
  have start : s.superMeta.blockDataStartOffset = 675282944 := by rw [consistent.super]; rfl
  have size : s.superMeta.blockSize = kBlockSize := by rw [consistent.super]; rfl
  have next : kBlockSize * (id + 1) ≤ kBlockSize * blockCount s.disk.size :=
    Nat.mul_le_mul_left _ (consistent.count ▸ bound)
  rw [devOffset, start, size]
  rw [Nat.mul_succ] at next
  omega

end Consistent

omit [Crc32] in
theorem balanced_unowned (n : Nat) (holding : FilePtr → Multiset Nat) :
    Ledger.Balanced (Multiset.range n) (List.range' 0 n : List Nat) (Finset.range 0) holding 0 := by
  simp [Ledger.Balanced, Multiset.range, List.range_eq_range']

/-- A fresh mount has lost nothing. -/
theorem consistent_mounted {d : Disk} (large : 675282944 ≤ d.size) (env : Env) (attempts : Nat) :
    Consistent (mounted d env attempts) ⟨0, 0, 0⟩ where
  super := by simp [mounted, initialized, unmounted, Disk.formatted]
  large := by simpa [mounted, Disk.formatted] using large
  count := by simp [mounted, initialized, Disk.formatted]
  parents := rfl
  slots i := by simp [mounted, initialized, unmounted, Disk.formatted]
  handles := balanced_unowned kMaxFileNum _
  fileBlocks := balanced_unowned 133554 _
  blocks := balanced_unowned (blockCount d.size) _
  cleanFhs i _ := by simp [mounted, initialized, unmounted, Disk.formatted]
  cleanFbhs b _ := by simp [mounted, initialized, unmounted, Disk.formatted]
  rep f bound := absurd bound (Nat.not_lt_zero f)

end Consistency

end FileSystem

end BlockFs
