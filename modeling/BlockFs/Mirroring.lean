import BlockFs.Booting
import BlockFs.Refusals
import BlockFs.Lib.WriteBack

namespace BlockFs

open WriteBack

/-- What a mount reads back of a slot, apart from the times, which calls refresh in memory alone. -/
def DirMeta.untimed (m : DirMeta) : DirMeta := { m with crc := 0, mtime := 0, ctime := 0 }
def FileMeta.untimed (m : FileMeta) : FileMeta := { m with crc := 0, mtime := 0, ctime := 0 }

section Intact
variable [Crc32]

def DirMeta.Intact (m : DirMeta) : Prop := m.crc = m.calcCrc
def FileBlockMeta.Intact (m : FileBlockMeta) : Prop := m.crc = m.calcCrc

omit [Crc32] in
/-- No child is noted, as between the shrinks of a file, and a slot in use has a name and one of the
directories `homes`. -/
def FileMeta.Steady (homes : Set Nat) (m : FileMeta) : Prop :=
  m.childFh ≤ 0 ∧ (m.used = true → m.fileName ≠ [] ∧ m.dh ∈ homes)

def FileMeta.AtRest (homes : Set Nat) (m : FileMeta) : Prop := m.crc = m.calcCrc ∧ m.Steady homes

theorem DirMeta.sealed_intact (m : DirMeta) : m.sealed.Intact := rfl
theorem FileBlockMeta.sealed_intact (m : FileBlockMeta) : m.sealed.Intact := rfl

theorem FileMeta.sealed_atRest {homes : Set Nat} {m : FileMeta} (steady : m.Steady homes) : m.sealed.AtRest homes :=
  ⟨rfl, steady⟩

omit [Crc32] in
theorem FileMeta.clear_steady (homes : Set Nat) (m : FileMeta) : m.clear.Steady homes := by
  have unnamed : m.clear.childFh = -1 := rfl
  refine ⟨by omega, fun used => ?_⟩
  have unused : m.clear.used = false := rfl
  rw [unused] at used
  simp at used

end Intact

namespace FileSystem

/-- The tables in memory and on the device, and the handles of the directories there are. -/
structure Plates where
  createdDhs : Map Nat DirectoryPtr
  superMeta : SuperBlockMeta
  dirMetas : Nat → DirMeta
  fileMetas : Nat → FileMeta
  fileBlockMetas : Nat → FileBlockMeta
  diskSuper : SuperBlockMeta
  diskDirs : Nat → DirMeta
  diskFiles : Nat → FileMeta
  diskFileBlocks : Nat → FileBlockMeta

def plates (s : FileSystem) : Plates :=
  { createdDhs := s.createdDhs
    superMeta := s.superMeta
    dirMetas := s.dirMetas
    fileMetas := s.fileMetas
    fileBlockMetas := s.fileBlockMetas
    diskSuper := s.disk.superMeta
    diskDirs := s.disk.dirMetas
    diskFiles := s.disk.fileMetas
    diskFileBlocks := s.disk.fileBlockMetas }

/-- The handles of the directories there are. -/
def dirHandles (s : FileSystem) : Set Nat := {x | (s.createdDhs.lookup x).isSome}

section Mirrored
variable [Crc32]

/-- The device holds the tables, but for the slots of directories in `D`, of files in `F` and of file
blocks in `B`. -/
structure Mirrored (D F B : Set Nat) (s : FileSystem) : Prop where
  superMeta : s.disk.superMeta = s.superMeta
  dirMetaSize : s.superMeta.dirMetaSize = kBlockFsDirMetaSize
  fileMetaSize : s.superMeta.fileMetaSize = kBlockFsFileMetaSize
  dirs : Synced DirMeta.Intact DirMeta.untimed D s.dirMetas s.disk.dirMetas
  files : Synced (FileMeta.AtRest s.dirHandles) FileMeta.untimed F s.fileMetas s.disk.fileMetas
  fileBlocks : Synced FileBlockMeta.Intact id B s.fileBlockMetas s.disk.fileBlockMetas

/-- The device holds all there is in the tables. -/
def Flushed (s : FileSystem) : Prop := Mirrored ∅ ∅ ∅ s

variable {D F B : Set Nat} {s t : FileSystem} {env : Env}

theorem Mirrored.congr (mirrored : Mirrored D F B s) (same : t.plates = s.plates) : Mirrored D F B t := by
  obtain ⟨handles, super, dirs, files, fileBlocks, diskSuper, diskDirs, diskFiles, diskFileBlocks⟩ := Plates.mk.inj same
  have homes : t.dirHandles = s.dirHandles := by rw [dirHandles, dirHandles, handles]
  constructor
  · rw [diskSuper, super]
    exact mirrored.superMeta
  · rw [super]
    exact mirrored.dirMetaSize
  · rw [super]
    exact mirrored.fileMetaSize
  · rw [dirs, diskDirs]
    exact mirrored.dirs
  · rw [homes, files, diskFiles]
    exact mirrored.files
  · rw [fileBlocks, diskFileBlocks]
    exact mirrored.fileBlocks

theorem Mirrored.mono {D' F' B' : Set Nat} (mirrored : Mirrored D F B s) (dirs : D ⊆ D') (files : F ⊆ F')
    (fileBlocks : B ⊆ B') : Mirrored D' F' B' s where
  superMeta := mirrored.superMeta
  dirMetaSize := mirrored.dirMetaSize
  fileMetaSize := mirrored.fileMetaSize
  dirs := mirrored.dirs.mono dirs
  files := mirrored.files.mono files
  fileBlocks := mirrored.fileBlocks.mono fileBlocks

section Slots
variable {i : Nat}

/-- The slots of the page around slot `i`. -/
def page (perPage i : Nat) : Set Nat := {j | pageAlignIndex perPage i ≤ j ∧ j < pageAlignIndex perPage i + perPage}

instance (perPage i : Nat) : DecidablePred (· ∈ page perPage i) := fun j =>
  inferInstanceAs (Decidable (pageAlignIndex perPage i ≤ j ∧ j < pageAlignIndex perPage i + perPage))

omit [Crc32] in
theorem mem_page {perPage : Nat} (positive : 0 < perPage) (i : Nat) : i ∈ page perPage i := by
  have inside := Nat.mod_lt i positive
  have below := Nat.mod_le i perPage
  simp only [page, pageAlignIndex, Set.mem_ofPred_eq]
  omega

theorem Mirrored.modifyFileMeta (mirrored : Mirrored D F B s) (i : Nat) (g : FileMeta → FileMeta) :
    Mirrored D (insert i F) B (s.modifyFileMeta i g) :=
  { mirrored with files := mirrored.files.touch i _ }

theorem Mirrored.setFileBlockMeta (mirrored : Mirrored D F B s) (b : FileBlockPtr) (m : FileBlockMeta) :
    Mirrored D F (insert b B) (s.setFileBlockMeta b m) :=
  { mirrored with fileBlocks := mirrored.fileBlocks.touch b m }

theorem Mirrored.modifyDirMeta (mirrored : Mirrored D F B s) (i : Nat) (g : DirMeta → DirMeta) :
    Mirrored (insert i D) F B (s.modifyDirMeta i g) :=
  { mirrored with dirs := mirrored.dirs.touch i _ }

/-- A slot whose times alone are refreshed needs no write. -/
theorem Mirrored.restampFile (mirrored : Mirrored D F B s) {g : FileMeta → FileMeta} (clean : i ∉ F)
    (checked : (g (s.fileMetas i)).crc = (g (s.fileMetas i)).calcCrc)
    (unseen : (g (s.fileMetas i)).untimed = (s.fileMetas i).untimed) : Mirrored D F B (s.modifyFileMeta i g) := by
  have steady : (s.fileMetas i).untimed.Steady s.dirHandles := (mirrored.files.memory_good i clean).2
  rw [← unseen] at steady
  exact { mirrored with files := mirrored.files.retouch ⟨checked, steady⟩ unseen }

theorem Mirrored.restampDir (mirrored : Mirrored D F B s) {g : DirMeta → DirMeta}
    (checked : (g (s.dirMetas i)).Intact) (unseen : (g (s.dirMetas i)).untimed = (s.dirMetas i).untimed) :
    Mirrored D F B (s.modifyDirMeta i g) :=
  { mirrored with dirs := mirrored.dirs.retouch checked unseen }

theorem Mirrored.saveFile_image (mirrored : Mirrored D F B s) (i : Nat) : (s.saveFile i).disk.fileMetas =
    WriteBack.flush (page filesPerPage i) (Function.update s.fileMetas i (s.fileMetas i).sealed) s.disk.fileMetas := by
  have perPage : kBlockFsPageSize / s.superMeta.fileMetaSize = filesPerPage := by
    rw [mirrored.fileMetaSize, filesPerPage]
  rw [FileSystem.saveFile, filePage, perPage]
  rfl

/-- A file slot that is written is on the device. -/
theorem Mirrored.saveFile (mirrored : Mirrored D F B s) (steady : (s.fileMetas i).Steady s.dirHandles) :
    Mirrored D (F \ {i}) B (s.saveFile i) := by
  have inside : i ∈ page filesPerPage i := mem_page (by decide) i
  have written := mirrored.files.write inside (FileMeta.sealed_atRest steady)
  exact
    { mirrored with
      superMeta := mirrored.superMeta
      files := mirrored.saveFile_image i ▸ written }

/-- A slot that names a child is written as well, but is not there to stay. -/
theorem Mirrored.saveParent (mirrored : Mirrored D F B s) (i : Nat) : Mirrored D (insert i F) B (s.saveFile i) := by
  have written := (mirrored.files.touch i (s.fileMetas i).sealed).flush (page filesPerPage i)
  exact
    { mirrored with
      superMeta := mirrored.superMeta
      files := mirrored.saveFile_image i ▸ written }

theorem Mirrored.saveFileBlock (mirrored : Mirrored D F B s) (b : FileBlockPtr) :
    Mirrored D F (B \ {b}) (s.saveFileBlock b) := by
  have inside : b ∈ page 1 b := mem_page (by decide) b
  have written := mirrored.fileBlocks.write inside (s.fileBlockMetas b).sealed_intact
  have image : (s.saveFileBlock b).disk.fileBlockMetas =
      WriteBack.flush (page 1 b) (Function.update s.fileBlockMetas b (s.fileBlockMetas b).sealed) s.disk.fileBlockMetas := by
    funext j
    change Function.update s.disk.fileBlockMetas b (s.fileBlockMetas b).sealed j = _
    by_cases here : j = b
    · subst here
      rw [WriteBack.flush, if_pos inside, Function.update_self, Function.update_self]
    · have outside : j ∉ page 1 b := by
        simp only [page, pageAlignIndex, Set.mem_ofPred_eq, Nat.mod_one]
        omega
      rw [WriteBack.flush, if_neg outside, Function.update_of_ne here]
  exact
    { mirrored with
      superMeta := mirrored.superMeta
      fileBlocks := image ▸ written }

theorem Mirrored.writeDirMeta (mirrored : Mirrored D F B s) (ok : env.IoOk) (i : Nat) :
    ∃ t, s.writeDirMeta env i = (t, true) ∧ Mirrored (D \ {i}) F B t := by
  refine ⟨_, writeDirMeta_ok ok s i, ?_⟩
  have perPage : kBlockFsPageSize / s.superMeta.dirMetaSize = dirsPerPage := by
    rw [mirrored.dirMetaSize, dirsPerPage]
  have inside : i ∈ page dirsPerPage i := mem_page (by decide) i
  have written := mirrored.dirs.write inside (s.dirMetas i).sealed_intact
  rw [perPage]
  exact
    { mirrored with
      superMeta := mirrored.superMeta
      dirs := written }

/-- A file slot that is changed and written. -/
theorem Mirrored.rewriteFile (mirrored : Mirrored D F B s) {g : FileMeta → FileMeta}
    (steady : (g (s.fileMetas i)).Steady s.dirHandles) :
    Mirrored D (F \ {i}) B ((s.modifyFileMeta i g).saveFile i) := by
  have changed : ((s.modifyFileMeta i g).fileMetas i) = g (s.fileMetas i) := Function.update_self ..
  refine ((mirrored.modifyFileMeta i g).saveFile (by rwa [changed])).mono le_rfl ?_ le_rfl
  rintro j ⟨member, apart⟩
  exact ⟨member.resolve_left apart, apart⟩

theorem Mirrored.rewriteFileBlock (mirrored : Mirrored D F B s) (b : FileBlockPtr) (m : FileBlockMeta) :
    Mirrored D F (B \ {b}) ((s.setFileBlockMeta b m).saveFileBlock b) := by
  refine ((mirrored.setFileBlockMeta b m).saveFileBlock b).mono le_rfl le_rfl ?_
  rintro j ⟨member, apart⟩
  exact ⟨member.resolve_left apart, apart⟩

end Slots

theorem Flushed.steady (flushed : Flushed s) (i : Nat) : (s.fileMetas i).Steady s.dirHandles :=
  (flushed.files.memory_good i (Set.notMem_empty i)).2

theorem Flushed.congr (flushed : Flushed s) (same : t.plates = s.plates) : Flushed t :=
  Mirrored.congr flushed same

/-- Directories come and go, as long as none goes that a file slot in use names. -/
theorem Flushed.rehoused (flushed : Flushed s) (rest : { t.plates with createdDhs := s.createdDhs } = s.plates)
    (kept : ∀ i, (s.fileMetas i).used = true → (s.fileMetas i).dh ∈ t.dirHandles) : Flushed t := by
  have super : t.superMeta = s.superMeta := congrArg Plates.superMeta rest
  have dirs : t.dirMetas = s.dirMetas := congrArg Plates.dirMetas rest
  have files : t.fileMetas = s.fileMetas := congrArg Plates.fileMetas rest
  have fileBlocks : t.fileBlockMetas = s.fileBlockMetas := congrArg Plates.fileBlockMetas rest
  have diskSuper : t.disk.superMeta = s.disk.superMeta := congrArg Plates.diskSuper rest
  have diskDirs : t.disk.dirMetas = s.disk.dirMetas := congrArg Plates.diskDirs rest
  have diskFiles : t.disk.fileMetas = s.disk.fileMetas := congrArg Plates.diskFiles rest
  have diskFileBlocks : t.disk.fileBlockMetas = s.disk.fileBlockMetas := congrArg Plates.diskFileBlocks rest
  have steady {m : FileMeta} (i : Nat) (before : m.Steady s.dirHandles) (same : m.untimed = (s.fileMetas i).untimed) :
      m.Steady t.dirHandles := by
    have used : m.used = (s.fileMetas i).used := by
      have same' := congrArg FileMeta.used same
      exact same'
    have dh : m.dh = (s.fileMetas i).dh := by
      have same' := congrArg FileMeta.dh same
      exact same'
    refine ⟨before.1, fun inUse => ⟨(before.2 inUse).1, ?_⟩⟩
    rw [dh]
    exact kept i (used ▸ inUse)
  constructor
  · rw [diskSuper, super]
    exact flushed.superMeta
  · rw [super]
    exact flushed.dirMetaSize
  · rw [super]
    exact flushed.fileMetaSize
  · rw [dirs, diskDirs]
    exact flushed.dirs
  · rw [files, diskFiles]
    refine ⟨fun i clean => ?_, fun i clean => ?_, flushed.files.same⟩
    · obtain ⟨checked, before⟩ := flushed.files.memory_good i clean
      exact ⟨checked, steady i before rfl⟩
    · obtain ⟨checked, before⟩ := flushed.files.device_good i clean
      exact ⟨checked, steady i before (flushed.files.same i clean)⟩
  · rw [fileBlocks, diskFileBlocks]
    exact flushed.fileBlocks

/-- A file slot that is changed and written behind other slots that are all on the device. -/
theorem Flushed.rewriteFile (flushed : Flushed s) {i : Nat} {g : FileMeta → FileMeta}
    (steady : (g (s.fileMetas i)).Steady s.dirHandles) : Flushed ((s.modifyFileMeta i g).saveFile i) :=
  (Mirrored.rewriteFile flushed steady).mono le_rfl Set.sdiff_subset le_rfl

theorem Flushed.rewriteFileBlock (flushed : Flushed s) (b : FileBlockPtr) (m : FileBlockMeta) :
    Flushed ((s.setFileBlockMeta b m).saveFileBlock b) :=
  (Mirrored.rewriteFileBlock flushed b m).mono le_rfl le_rfl Set.sdiff_subset

section Truncating
variable {f : FilePtr} {n : Nat} {r : Int} {lost : Lost}

/-- The truncation gives up before it has taken anything, if it does. -/
def Settles (s : FileSystem) (f : FilePtr) (n : Nat) : Prop :=
  ¬((s.fileMeta f).size < n ∧ s.Overfull f n) ∧ ¬(n < (s.fileMeta f).size ∧ s.LosesSlot f n)

theorem Flushed.resized (flushed : Flushed s) (f : FilePtr) (n : Nat) : Flushed (s.resized f n) :=
  flushed.rewriteFile (flushed.steady _)

theorem Flushed.extension (flushed : Flushed s) (fits : ¬s.Overfull f n)
    (extension : Extension s env f n t r) : Flushed t := by
  cases extension with
  | refused => exact flushed
  | returned => exact flushed.congr rfl
  | @overfull b isNew rest slot found enough overflow => exact absurd ⟨b, isNew, rest, found, enough, overflow⟩ fits
  | inPlace => exact flushed.resized f n
  | @grown b isNew rest slot =>
    have filled : Flushed ((s.setFileBlockMeta b slot).saveFileBlock b) := flushed.rewriteFileBlock b slot
    refine Flushed.resized ?_ f n
    exact filled.congr rfl

/-- The child's file block waits to be written. -/
theorem Mirrored.childBlock {old : FileBlockPtr} {w : Nat} {fileBlock : Option FileBlockPtr} {ids : List Nat}
    (mirrored : Mirrored D F B s) (child : ChildBlock s env old w n t fileBlock ids) :
    Mirrored D F (B ∪ {b | b ∈ fileBlock}) t := by
  have whole (b : FileBlockPtr) (rest : List FileBlockPtr) :
      Mirrored D F (insert b B) (s.entrusted b rest (s.inherited w old b n)) :=
    (mirrored.setFileBlockMeta b (s.inherited w old b n)).congr rfl
  have entered (b : FileBlockPtr) : insert b B ⊆ B ∪ {c | c ∈ some b} := by
    rintro c (rfl | member)
    · exact .inr rfl
    · exact .inl member
  cases child with
  | unneeded => exact mirrored.mono le_rfl le_rfl Set.subset_union_left
  | @whole b rest => exact (whole b rest).mono le_rfl le_rfl (entered b)
  | @cut b rest id ids' =>
    obtain ⟨data, state⟩ := supplied_eq (s.entrusted b rest (s.inherited w old b n)) env b
      ((s.fileBlockMetas old).blockId (n / kBlockSize)) id n
    rw [state]
    have again := (whole b rest).setFileBlockMeta b
      (((s.entrusted b rest (s.inherited w old b n)).fileBlockMetas b).addBlockId id)
    rw [Set.insert_idem] at again
    refine Mirrored.mono ?_ le_rfl le_rfl (entered b)
    exact again.congr rfl

/-- The child slot and its file block are written before the slot that names the child. -/
theorem Mirrored.shrinkSaved {o w : Nat} {fileBlock : Option FileBlockPtr}
    (mirrored : Mirrored ∅ {o, w} {b | b ∈ fileBlock} s) (steady : (s.fileMetas w).Steady s.dirHandles) :
    Mirrored ∅ {o} ∅ (s.shrinkSaved w o fileBlock) := by
  have child : Mirrored ∅ {o} {b | b ∈ fileBlock} (s.saveFile w) := by
    refine (mirrored.saveFile steady).mono le_rfl ?_ le_rfl
    rintro j ⟨member, apart⟩
    exact member.resolve_right apart
  have parent {u : FileSystem} (behind : Mirrored ∅ {o} ∅ u) : Mirrored ∅ {o} ∅ (u.saveFile o) :=
    (behind.saveParent o).mono le_rfl (by simp) le_rfl
  cases fileBlock with
  | none =>
    refine parent (child.mono le_rfl le_rfl ?_)
    rintro b ⟨⟩
  | some b =>
    refine parent ((child.saveFileBlock b).mono le_rfl le_rfl ?_)
    rintro c ⟨member, apart⟩
    exact absurd (Option.some.inj member).symm apart

/-- The recycling of the parent makes its slot clean again. -/
theorem Mirrored.recycled {o n : Nat} (mirrored : Mirrored ∅ {o} ∅ s) (b : FileBlockPtr) :
    Flushed (s.recycled o b n) := by
  have released := (Mirrored.rewriteFileBlock mirrored b (s.fileBlockMetas b).clear).mono le_rfl le_rfl
    Set.sdiff_subset
  have cleared : Mirrored ∅ ∅ ∅
      ((((s.setFileBlockMeta b (s.fileBlockMetas b).clear).saveFileBlock b).modifyFileMeta o FileMeta.clear).saveFile o) :=
    (released.rewriteFile (FileMeta.clear_steady _ _)).mono le_rfl (by simp) le_rfl
  exact Mirrored.congr cleared rfl

theorem Mirrored.shrunk {o w : Nat} {dir : DirectoryPtr} {old : FileBlockPtr} {fileBlock : Option FileBlockPtr}
    (mirrored : Mirrored ∅ {o, w} {b | b ∈ fileBlock} s) (steady : (s.fileMetas w).Steady s.dirHandles) :
    Flushed (s.shrunk dir f o w n old fileBlock) := by
  have committed : Mirrored ∅ {o, w} {b | b ∈ fileBlock} (s.committed dir f o w n fileBlock) := by
    have sized := (mirrored.modifyFileMeta w fun m => { m with size := n }).congr
      (t := s.committed dir f o w n fileBlock) (by rw [committed_eq]; rfl)
    refine sized.mono le_rfl ?_ le_rfl
    rintro j (rfl | member)
    · exact .inr rfl
    · exact member
  have steady' : ((s.committed dir f o w n fileBlock).fileMetas w).Steady
      (s.committed dir f o w n fileBlock).dirHandles := by
    rw [committed_eq]
    change (Function.update s.fileMetas w { s.fileMetas w with size := n } w).Steady s.dirHandles
    rw [Function.update_self]
    exact steady
  have saved := committed.shrinkSaved steady'
  have recycled := saved.recycled (n := n) old
  exact Flushed.rewriteFile recycled (Flushed.steady recycled w)

/-- A shrink passes through states in which the old slot names the new one, and ends with both on the
device. -/
theorem Flushed.shrinkage {old : FileBlockPtr} (flushed : Flushed s) (consistent : Consistent s lost)
    (bound : f < s.nextFile) (alive : (s.fileMeta f).used = true) (keeps : ¬s.LosesSlot f n)
    (shrinkage : Shrinkage s env f n old t r) : Flushed t := by
  cases shrinkage with
  | noSlot => exact flushed.congr rfl
  | noFileBlock free positive none => exact absurd ⟨by simp [free], .inl ⟨positive, none⟩⟩ keeps
  | noBlock free _ uneven none => exact absurd ⟨by simp [free], .inr (.inl ⟨uneven, none⟩)⟩ keeps
  | noDirectory free _ none => exact absurd ⟨by simp [free], .inr (.inr none)⟩ keeps
  | @shrunk w rest u fileBlock ids dir free child found =>
    have taken : w ∈ s.freeFhs := by simp [free]
    have apart := consistent.metaSlot_not_free bound taken
    have started : Mirrored ∅ {w} ∅ (s.started f w rest n) := by
      have taken := (Mirrored.modifyFileMeta flushed w fun _ => (s.started f w rest n).fileMetas w).congr
        (t := s.started f w rest n) (by simp [FileSystem.started, plates])
      exact taken.mono le_rfl (by simp) le_rfl
    have adopted : Mirrored ∅ {(s.files f).metaSlot, w} {b | b ∈ fileBlock} (u.adopted (s.files f).metaSlot w) :=
      ((started.childBlock child).modifyFileMeta _ _).mono le_rfl le_rfl (by simp)
    refine adopted.shrunk ?_
    obtain ⟨pool, rest', blocks, data, state⟩ := child.frame
    have slot : (u.adopted (s.files f).metaSlot w).fileMetas w = (s.started f w rest n).fileMetas w := by
      rw [state]
      exact Function.update_of_ne apart.symm _ _
    have homes : (u.adopted (s.files f).metaSlot w).dirHandles = s.dirHandles := by
      rw [state]
      rfl
    -- The child slot copies the name and the directory of the file.
    have named : ((s.started f w rest n).fileMetas w).fileName = (s.fileMeta f).fileName ∧
        ((s.started f w rest n).fileMetas w).dh = (s.fileMeta f).dh ∧
        ((s.started f w rest n).fileMetas w).childFh = (s.fileMetas w).childFh := by
      simp [FileSystem.started]
    rw [slot, homes]
    refine ⟨named.2.2 ▸ (flushed.steady w).1, fun _ => ?_⟩
    rw [named.1, named.2.1]
    exact (flushed.steady _).2 alive

theorem Flushed.truncation (flushed : Flushed s) (consistent : Consistent s lost) (bound : f < s.nextFile)
    (alive : (s.fileMeta f).used = true) (settles : s.Settles f n) (truncation : Truncation s env f n t r) : Flushed t := by
  cases truncation with
  | grow grows extension => exact flushed.extension (fun full => settles.1 ⟨grows, full⟩) extension
  | shrink shrinks _ shrinkage =>
    exact flushed.shrinkage consistent bound alive (fun loses => settles.2 ⟨shrinks, loses⟩) shrinkage
  | keep => exact flushed

end Truncating

section Truncations
variable {f : FilePtr} {n : Nat} {r : Int} {lost : Lost}

omit [Crc32] in
theorem SameSides.settles (same : SameSides s t) (settles : s.Settles f n) : t.Settles f n := by
  have slot : t.fileMeta f = s.fileMeta f := same.fileMeta
  have pool : t.blockIdPool = s.blockIdPool := congrArg FileSide.blockIdPool same.fileSide
  have free : t.freeFbhs = s.freeFbhs := congrArg FileSide.freeFbhs same.fileSide
  have freeFhs : t.freeFhs = s.freeFhs := congrArg FileSide.freeFhs same.fileSide
  have slots : t.fileBlockMetas = s.fileBlockMetas := congrArg FileSide.fileBlockMetas same.fileSide
  have dirs : t.createdDhs = s.createdDhs := congrArg DirSide.createdDhs same.dirSide
  obtain ⟨fits, keeps⟩ := settles
  refine ⟨?_, ?_⟩
  · rintro ⟨grows, b, isNew, rest, found, enough, overflow⟩
    rw [slot] at grows enough overflow
    rw [pool] at enough
    rw [slots] at overflow
    exact fits ⟨grows, b, isNew, rest, same.symm.found found, enough, overflow⟩
  · rintro ⟨shrinks, loses⟩
    rw [LosesSlot, freeFhs, free, pool, dirs, slot] at loses
    exact keeps ⟨slot ▸ shrinks, loses⟩

/-- A truncation behind a change of `errno` leaves nothing behind in memory. -/
theorem Flushed.ftruncate (flushed : Flushed s) (coherent : Coherent s lost) (ok : env.IoOk)
    (same : SameSides s t) (plates : t.plates = s.plates) (known : s.Accessible f) (narrow : s.Narrow f n)
    (settles : s.Settles f n) {u : FileSystem} (ran : t.ftruncate env f n = .ok (u, r)) : Flushed u := by
  have coherent' := same.coherent coherent
  have bound := coherent'.registered.bound ((same.accessible.mpr known).registered coherent'.registered)
  obtain ⟨v, q, again, truncation⟩ := ftruncate_cases coherent'.consistent ok bound (same.narrow.mpr narrow)
  obtain ⟨rfl, rfl⟩ := Prod.mk.inj (Except.ok.inj (ran.symm.trans again))
  have alive := coherent'.alive f (same.accessible.mpr known)
  exact (flushed.congr plates).truncation coherent'.consistent bound alive (same.settles settles) truncation

end Truncations

end Mirrored

end FileSystem

end BlockFs
