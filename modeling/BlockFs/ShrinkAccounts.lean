import BlockFs.Shrink

namespace BlockFs.FileSystem

section Child
variable [Crc32] {s : FileSystem} {env : Env} {f : FilePtr} {offset : Nat} {old : FileBlockPtr}
  {lost : Lost}

theorem Consistent.entrusted_sameFile (consistent : Consistent s lost) {b : FileBlockPtr}
    {rest : List FileBlockPtr} (free : s.freeFbhs = b :: rest) (slot : FileBlockMeta) {g : FilePtr}
    (bound : g < s.nextFile) : SameFile s (s.entrusted b rest slot) g := by
  refine .of_agree rfl rfl fun c member => Function.update_of_ne ?_ _ _
  rintro rfl
  exact consistent.attached_not_free bound member (by simp [free])

/-- A file block taken for a child is lost until the child is in use. -/
theorem Consistent.entrusted (consistent : Consistent s lost) {b : FileBlockPtr}
    {rest : List FileBlockPtr} (free : s.freeFbhs = b :: rest) (slot : FileBlockMeta) :
    Consistent (s.entrusted b rest slot) { lost with fbhs := {b} + lost.fbhs } := by
  have nodup := consistent.fileBlocks.free_nodup (Multiset.nodup_range _)
  rw [free, Multiset.coe_nodup, List.nodup_cons] at nodup
  have listed : ((b :: rest : List Nat) : Multiset Nat) = {b} + rest := by simp
  refine consistent.untouched ⟨rfl, rfl, rfl, rfl⟩ rfl
    (fun g bound => consistent.entrusted_sameFile free slot bound) consistent.slots rfl ?_ rfl
    consistent.cleanFhs fun c member => ?_
  · rw [free, listed]
    dsimp only [FileSystem.entrusted]
    abel
  · have distinct : c ≠ b := fun same => nodup.1 (same ▸ member)
    simp only [FileSystem.entrusted, Function.update_of_ne distinct]
    exact consistent.cleanFbhs c (by simp only [free, List.mem_cons]; exact .inr member)

omit [Crc32] in
theorem supplied_eq (s : FileSystem) (env : Env) (b : FileBlockPtr) (src dst offset : Nat) :
    ∃ data, s.supplied env b src dst offset =
      { s with
        blockIdPool := (env.order s.blockIdPool).drop 1
        fileBlockMetas := Function.update s.fileBlockMetas b ((s.fileBlockMetas b).addBlockId dst)
        disk := { s.disk with data := data } } := by
  simp only [supplied, copied, Disk.pwriteCache]
  split <;> exact ⟨_, rfl⟩

theorem Consistent.supplied_sameFile (consistent : Consistent s lost) {b : FileBlockPtr}
    (unused : b ∈ lost.fbhs) (src dst : Nat) {g : FilePtr} (bound : g < s.nextFile) :
    SameFile s (s.supplied env b src dst offset) g := by
  obtain ⟨data, state⟩ := supplied_eq s env b src dst offset
  rw [state]
  refine .of_agree rfl rfl fun c member => Function.update_of_ne ?_ _ _
  rintro rfl
  exact consistent.fileBlocks.not_held_of_lost (Multiset.nodup_range _) unused (mem_range bound) member

/-- A block taken for a child is lost until the child is in use. -/
theorem Consistent.supplied (consistent : Consistent s lost) (env : Env) (offset src : Nat)
    {b : FileBlockPtr} (unused : b ∈ lost.fbhs) {id : Nat} {ids : List Nat}
    (order : env.order s.blockIdPool = id :: ids) :
    Consistent (s.supplied env b src id offset) { lost with ids := {id} + lost.ids } := by
  have same {g : FilePtr} (bound : g < s.nextFile) : SameFile s (s.supplied env b src id offset) g :=
    consistent.supplied_sameFile unused src id bound
  obtain ⟨data, state⟩ := supplied_eq s env b src id offset
  have pool : (s.blockIdPool : Multiset Nat) = {id} + ids := by
    rw [← Multiset.coe_eq_coe.mpr (env.order_perm s.blockIdPool), order]
    simp
  rw [state, order] at same ⊢
  refine consistent.untouched ⟨rfl, rfl, rfl, rfl⟩ rfl (fun g bound => same bound) consistent.slots
    rfl rfl ?_ consistent.cleanFhs fun c member => ?_
  · have rest : (id :: ids).drop 1 = ids := rfl
    rw [pool, rest]
    dsimp only
    abel
  · have distinct : c ≠ b := by
      rintro rfl
      exact consistent.fileBlocks.not_free_of_lost (Multiset.nodup_range _) unused member
    simp only [Function.update_of_ne distinct]
    exact consistent.cleanFbhs c member

/-- Providing a child leaves every file alone. -/
theorem ChildBlock.sameFile (consistent : Consistent s lost) {w : Nat} {t : FileSystem}
    {fileBlock : Option FileBlockPtr} {ids : List Nat}
    (child : ChildBlock s env old w offset t fileBlock ids) {g : FilePtr} (bound : g < s.nextFile) :
    SameFile s t g := by
  cases child with
  | unneeded => exact .refl s g
  | whole _ _ free => exact consistent.entrusted_sameFile free _ bound
  | cut _ free _ =>
    exact (consistent.entrusted_sameFile free _ bound).trans
      ((consistent.entrusted free _).supplied_sameFile (by simp) _ _ bound)

/-- The file block `b` of a child: it holds the inherited ids and those taken for it, which are as
many as the content needs. -/
structure ChildSlot (s : FileSystem) (old b : FileBlockPtr) (w offset : Nat) (taken : List Nat) :
    Prop where
  distinct : b ≠ old
  positive : 0 < offset
  used : (s.fileBlockMetas b).used = true
  fileCut : (s.fileBlockMetas b).fileCut = 0
  fh : (s.fileBlockMetas b).fh = (s.fileMetas w).fh
  isTemp : (s.fileBlockMetas b).isTemp = (s.fileMetas w).isTemp
  ids : (s.fileBlockMetas b).ids = (s.fileBlockMetas old).ids.take (offset / kBlockSize) ++ taken
  covers : offset ≤ (offset / kBlockSize + taken.length) * kBlockSize
  bounded : offset / kBlockSize + taken.length ≤ kFileBlockCapacity

omit [Crc32] in
/-- Before any block is copied, the child lists the first ids of the old file block. -/
theorem inherited_ids {w : Nat} {b : FileBlockPtr} (clean : (s.fileBlockMetas b).usedBlockNum = 0)
    (index : offset / kBlockSize < (s.fileBlockMetas old).usedBlockNum)
    (bounded : (s.fileBlockMetas old).usedBlockNum ≤ kFileBlockCapacity) :
    (s.inherited w old b offset).ids = (s.fileBlockMetas old).ids.take (offset / kBlockSize) ∧
      FileBlockMeta.SameSlot
        { s.fileBlockMetas b with
          used := true, fileCut := (s.fileBlockMetas old).fileCut, fh := (s.fileMetas w).fh,
          isTemp := (s.fileMetas w).isTemp }
        (s.inherited w old b offset) := by
  have capacity : kFileBlockCapacity = 1000 := rfl
  have narrow : offset / kBlockSize % 2 ^ 32 = offset / kBlockSize := Nat.mod_eq_of_lt (by omega)
  have empty : FileBlockMeta.ids { s.fileBlockMetas b with
      used := true, fileCut := (s.fileBlockMetas old).fileCut, fh := (s.fileMetas w).fh,
      isTemp := (s.fileMetas w).isTemp } = [] := by simp [FileBlockMeta.ids, clean]
  rw [inherited, narrow]
  dsimp only
  split
  · next zero => exact ⟨by rw [zero, List.take_zero, empty], .refl _⟩
  · next more =>
    obtain ⟨ids, same⟩ := FileBlockMeta.inherit_ids
      { s.fileBlockMetas b with
        used := true, fileCut := (s.fileBlockMetas old).fileCut, fh := (s.fileMetas w).fh,
        isTemp := (s.fileMetas w).isTemp }
      (s.fileBlockMetas old) (offset / kBlockSize) kFileBlockCapacity 0 0 (by omega)
      (index.le.trans bounded) (by dsimp only; omega)
    rw [empty, List.nil_append, Nat.sub_zero, ← FileBlockMeta.ids_take index.le] at ids
    exact ⟨ids, same⟩

/-- The cut of a shrinking file lies in one of its blocks. -/
theorem Consistent.cut_index (consistent : Consistent s lost) (bound : f < s.nextFile)
    (entries : (s.files f).itemMaps.entries = [⟨0, old⟩]) (inside : offset < (s.fileMeta f).size) :
    offset / kBlockSize < (s.fileBlockMetas old).usedBlockNum ∧
      (s.fileBlockMetas old).usedBlockNum ≤ kFileBlockCapacity ∧
      (s.fileBlockMetas old).fileCut = 0 := by
  obtain ⟨_, backs⟩ := (consistent.rep f bound).of_entries entries
  have covers := backs.covers
  refine ⟨?_, backs.bounded, backs.fileCut⟩
  rw [Nat.div_lt_iff_lt_mul kBlockSize_pos]
  omega

/-- What a provided child has, and that everything taken for it is accounted for. -/
theorem ChildBlock.provided (consistent : Consistent s lost) (bound : f < s.nextFile)
    (entries : (s.files f).itemMaps.entries = [⟨0, old⟩]) (inside : offset < (s.fileMeta f).size)
    {w : Nat} {t : FileSystem} {fileBlock : Option FileBlockPtr} {ids : List Nat}
    (child : ChildBlock s env old w offset t fileBlock ids) :
    Consistent t { lost with fbhs := fileBlock.toList + lost.fbhs, ids := ids + lost.ids } ∧
      t.fileBlockMetas old = s.fileBlockMetas old ∧
      (fileBlock = none → offset = 0 ∧ ids = []) ∧
      ∀ b, fileBlock = some b → ChildSlot t old b w offset ids := by
  obtain ⟨index, bounded, fileCut⟩ := consistent.cut_index bound entries inside
  have exact_ := Nat.div_add_mod offset kBlockSize
  cases child with
  | unneeded empty =>
    refine ⟨?_, rfl, fun _ => ⟨empty, rfl⟩, fun b impossible => by simp at impossible⟩
    simpa using consistent
  | @whole b rest positive even free =>
    have head : b ∈ s.freeFbhs := by simp [free]
    have distinct : b ≠ old := by
      rintro rfl
      exact consistent.attached_not_free bound (by simp [attached, entries]) head
    obtain ⟨ids, same⟩ := inherited_ids (w := w) (consistent.cleanFbhs b head).2 index bounded
    have slot : (s.entrusted b rest (s.inherited w old b offset)).fileBlockMetas b =
        s.inherited w old b offset := Function.update_self _ _ _
    have kept : (s.entrusted b rest (s.inherited w old b offset)).fileBlockMetas old =
        s.fileBlockMetas old := Function.update_of_ne distinct.symm _ _
    refine ⟨by simpa using consistent.entrusted free (s.inherited w old b offset), kept,
      fun impossible => by simp at impossible, fun c here => ?_⟩
    obtain rfl : b = c := Option.some.inj here
    exact
      { distinct := distinct
        positive := positive
        used := by rw [slot, same]
        fileCut := by rw [slot, same]; exact fileCut
        fh := by rw [slot, same]; rfl
        isTemp := by rw [slot, same]; rfl
        ids := by rw [slot, ids, kept, List.append_nil]
        covers := by
          rw [List.length_nil, Nat.add_zero, Nat.mul_comm]
          omega
        bounded := by
          rw [List.length_nil]
          omega }
  | @cut b rest id ids uneven free pool =>
    have head : b ∈ s.freeFbhs := by simp [free]
    have distinct : b ≠ old := by
      rintro rfl
      exact consistent.attached_not_free bound (by simp [attached, entries]) head
    obtain ⟨listed, same⟩ := inherited_ids (w := w) (consistent.cleanFbhs b head).2 index bounded
    have length := congrArg List.length listed
    rw [FileBlockMeta.ids_length, List.length_take, FileBlockMeta.ids_length] at length
    have added := FileBlockMeta.addBlockId_ids (m := s.inherited w old b offset) id (by omega)
    have consistent' := (consistent.entrusted free (s.inherited w old b offset)).supplied env
      offset ((s.fileBlockMetas old).blockId (offset / kBlockSize)) (b := b) (by simp) pool
    obtain ⟨data, state⟩ := supplied_eq (s.entrusted b rest (s.inherited w old b offset)) env b
      ((s.fileBlockMetas old).blockId (offset / kBlockSize)) id offset
    generalize (s.entrusted b rest (s.inherited w old b offset)).supplied env b
      ((s.fileBlockMetas old).blockId (offset / kBlockSize)) id offset = t at consistent' state ⊢
    have slot : t.fileBlockMetas b = (s.inherited w old b offset).addBlockId id := by
      simp [state, FileSystem.entrusted]
    have kept : t.fileBlockMetas old = s.fileBlockMetas old := by
      simp [state, FileSystem.entrusted, Function.update_of_ne distinct.symm]
    have metas : t.fileMetas = s.fileMetas := by rw [state]; rfl
    have same' := same.trans (FileBlockMeta.addBlockId_sameSlot _ id)
    refine ⟨by simpa using consistent', kept, fun impossible => by simp at impossible,
      fun c here => ?_⟩
    obtain rfl : b = c := Option.some.inj here
    exact
      { distinct := distinct
        positive := Nat.pos_of_ne_zero fun zero => uneven (by rw [zero, Nat.zero_mod])
        used := by rw [slot, same']
        fileCut := by rw [slot, same']; exact fileCut
        fh := by rw [slot, same', metas]
        isTemp := by rw [slot, same', metas]
        ids := by rw [slot, added, listed, kept]
        covers := by
          have short := Nat.mod_lt offset kBlockSize_pos
          rw [List.length_singleton, Nat.succ_mul, Nat.mul_comm]
          omega
        bounded := by
          rw [List.length_singleton]
          omega }

end Child

section Commit
variable [Crc32] {s : FileSystem} {env : Env} {f : FilePtr} {offset o w : Nat} {old : FileBlockPtr}
  {fileBlock : Option FileBlockPtr} {dir : DirectoryPtr} {lost : Lost}

/-- The slot of the child when all is done. -/
def childMeta (s : FileSystem) (w offset : Nat) : FileMeta :=
  { s.fileMetas w with size := offset, parentFh := -1, parentSize := 0 }.sealed

/-- The slots of the file blocks once that of the child has been sealed. -/
def sealedBlocks (s : FileSystem) : Option FileBlockPtr → FileBlockPtr → FileBlockMeta
  | none => s.fileBlockMetas
  | some b => Function.update s.fileBlockMetas b (s.fileBlockMetas b).sealed

/-- The slots of the files once those of the child and then of the parent have been sealed. -/
def sealedMetas (s : FileSystem) (w o : Nat) : Nat → FileMeta :=
  Function.update (Function.update s.fileMetas w (s.fileMetas w).sealed) o (s.fileMetas o).sealed

/-- The first writes of the commit: the child's slot, its file block and the parent's slot. -/
def savedWrites (s : FileSystem) (w o : Nat) (fileBlock : Option FileBlockPtr) : List MetaWrite :=
  s.filePage w (Function.update s.fileMetas w (s.fileMetas w).sealed) ::
    (fileBlock.toList.map fun b => .fileBlock b (s.fileBlockMetas b).sealed) ++
      [s.filePage o (s.sealedMetas w o)]

theorem shrinkSaved_eq (distinct : w ≠ o) :
    s.shrinkSaved w o fileBlock =
      { s with
        fileMetas := s.sealedMetas w o
        fileBlockMetas := s.sealedBlocks fileBlock }.persist (s.savedWrites w o fileBlock) := by
  cases fileBlock <;>
    simp [shrinkSaved, saveFile, saveFileBlock, sealedMetas, sealedBlocks, savedWrites, persist,
      filePage, Function.update_of_ne distinct.symm]

theorem recycled_eq :
    s.recycled o old offset =
      { s with
        parentFiles := s.parentFiles.erase o
        blockIdPool := refilled s.blockIdPool
          ((s.fileBlockMetas old).ids.drop (offset / kBlockSize % 2 ^ 32))
        freeFbhs := s.freeFbhs ++ [old]
        freeFhs := s.freeFhs ++ [o]
        fileMetas := Function.update s.fileMetas o (s.fileMetas o).clear.sealed
        fileBlockMetas := Function.update s.fileBlockMetas old (s.fileBlockMetas old).clear.sealed
      }.persist [.fileBlock old (s.fileBlockMetas old).clear.sealed,
        s.filePage o (Function.update s.fileMetas o (s.fileMetas o).clear.sealed)] := by
  simp [recycled, releasedFileBlock, saveFile, saveFileBlock, persist, filePage]

theorem orphaned_eq :
    s.orphaned w =
      { s with
        fileMetas := Function.update s.fileMetas w
          { s.fileMetas w with parentFh := -1, parentSize := 0 }.sealed }.persist
        [s.filePage w (Function.update s.fileMetas w
          { s.fileMetas w with parentFh := -1, parentSize := 0 }.sealed)] := by
  simp [orphaned, saveFile, persist, filePage]

omit [Crc32] in
theorem erase_singleton {κ ν : Type} [DecidableEq κ] (k : κ) (v : ν) :
    AList.erase k (AList.singleton k v : Map κ ν) = ∅ := by
  apply AList.ext
  change List.kerase k [(⟨k, v⟩ : Sigma fun _ : κ => ν)] = []
  simp [List.kerase]

/-- What `ShrinkFile` changes once its child is provided. -/
structure ShrunkTo (s s' : FileSystem) (dir : DirectoryPtr) (f : FilePtr) (o w offset : Nat)
    (old : FileBlockPtr) (fileBlock : Option FileBlockPtr) : Prop where
  layout : SameLayout s s'
  nextFile : s'.nextFile = s.nextFile
  freeFhs : s'.freeFhs = s.freeFhs ++ [o]
  freeFbhs : s'.freeFbhs = s.freeFbhs ++ [old]
  blockIdPool : s'.blockIdPool =
    refilled s.blockIdPool ((s.fileBlockMetas old).ids.drop (offset / kBlockSize % 2 ^ 32))
  files : s'.files = Function.update s.files f
    { s.files f with metaSlot := w, itemMaps := s.itemsFor fileBlock }
  fileMetas : s'.fileMetas = Function.update (Function.update s.fileMetas w (s.childMeta w offset)) o
    (s.fileMetas o).clear.sealed
  fileBlockMetas : s'.fileBlockMetas = Function.update (s.sealedBlocks fileBlock) old
    (s.fileBlockMetas old).clear.sealed
  dirSide : { s'.dirSide with directories := s.directories } = s.dirSide
  directories : s'.directories = (s.shrinkSwitch dir f w).directories
  createdFiles : s'.createdFiles = (s.shrinkSwitch dir f w).createdFiles
  createdFhs : s'.createdFhs = (s.shrinkSwitch dir f w).createdFhs
  openFiles : s'.openFiles = s.openFiles
  data : s'.disk.data = s.disk.data

theorem shrunkTo (dir : DirectoryPtr) (f : FilePtr) (offset : Nat) (old : FileBlockPtr)
    (fileBlock : Option FileBlockPtr) (distinct : w ≠ o) (parents : s.parentFiles = ∅)
    (apart : ∀ b, fileBlock = some b → b ≠ old) :
    ShrunkTo s (s.shrunk dir f o w offset old fileBlock) dir f o w offset old fileBlock := by
  have state := committed_eq s dir f o w offset fileBlock
  have slot : s.sealedBlocks fileBlock old = s.fileBlockMetas old := by
    cases fileBlock with
    | none => rfl
    | some b => exact Function.update_of_ne (apart b rfl).symm _ _
  rw [shrunk, orphaned_eq, recycled_eq, shrinkSaved_eq distinct, state]
  have blocks (t : FileSystem) (same : t.fileBlockMetas = s.fileBlockMetas) :
      t.sealedBlocks fileBlock = s.sealedBlocks fileBlock := by
    cases fileBlock <;> simp [sealedBlocks, same]
  refine
    { layout := ⟨rfl, rfl, ?_, ?_⟩
      nextFile := rfl
      freeFhs := rfl
      freeFbhs := rfl
      blockIdPool := ?_
      files := rfl
      fileMetas := ?_
      fileBlockMetas := ?_
      dirSide := rfl
      directories := rfl
      createdFiles := rfl
      createdFhs := rfl
      openFiles := rfl
      data := ?_ }
  · simp [persist]
  · simp only [persist, parents, AList.insert_empty, erase_singleton]
  · exact congrArg (fun slot : FileBlockMeta => refilled s.blockIdPool (slot.ids.drop _))
      ((congrFun (blocks _ rfl) old).trans slot)
  · simp only [persist, sealedMetas]
    funext i
    by_cases child : i = w
    · subst child
      simp [Function.update_of_ne distinct]
      rfl
    · by_cases parent : i = o
      · subst parent
        simp [Function.update_of_ne child]
        rfl
      · simp [Function.update_of_ne child, Function.update_of_ne parent]
  · refine (congrArg (fun table : FileBlockPtr → FileBlockMeta =>
      Function.update table old (table old).clear.sealed) (blocks _ rfl)).trans ?_
    rw [slot]
  · simp [persist]

namespace ShrunkTo
variable {s' : FileSystem} (shrunk : ShrunkTo s s' dir f o w offset old fileBlock)
include shrunk

theorem file : s'.files f = { s.files f with metaSlot := w, itemMaps := s.itemsFor fileBlock } := by
  rw [shrunk.files, Function.update_self]

theorem fileMeta_eq (distinct : w ≠ o) : s'.fileMeta f = s.childMeta w offset := by
  rw [fileMeta, shrunk.file, shrunk.fileMetas, Function.update_of_ne distinct, Function.update_self]

theorem attached_eq : s'.attached f = fileBlock.toList := by
  rw [attached, shrunk.file]
  cases fileBlock <;> rfl

theorem fileBlock_eq {b : FileBlockPtr} (same : fileBlock = some b) (distinct : b ≠ old) :
    s'.fileBlockMetas b = (s.fileBlockMetas b).sealed := by
  rw [shrunk.fileBlockMetas, same, Function.update_of_ne distinct]
  exact Function.update_self _ _ _

theorem fileBlock_other {c : FileBlockPtr} (apart : c ≠ old) (other : fileBlock ≠ some c) :
    s'.fileBlockMetas c = s.fileBlockMetas c := by
  rw [shrunk.fileBlockMetas, Function.update_of_ne apart]
  cases fileBlock with
  | none => rfl
  | some b => exact Function.update_of_ne (fun same => other (by rw [same])) _ _

theorem fileMeta_other {i : Nat} (parent : i ≠ o) (child : i ≠ w) :
    s'.fileMetas i = s.fileMetas i := by
  rw [shrunk.fileMetas, Function.update_of_ne parent, Function.update_of_ne child]

/-- The file lists the ids it inherited and those taken for it. -/
theorem blockIds_eq {taken : List Nat} (empty : fileBlock = none → offset = 0 ∧ taken = [])
    (child : ∀ b, fileBlock = some b → ChildSlot s old b w offset taken) :
    s'.blockIds f = (s.fileBlockMetas old).ids.take (offset / kBlockSize) ++ taken := by
  rw [blockIds, shrunk.attached_eq]
  cases same : fileBlock with
  | none =>
    obtain ⟨zero, none⟩ := empty same
    rw [zero, none, Nat.zero_div]
    rfl
  | some b =>
    have slot := child b same
    rw [Option.toList_some, List.flatMap_singleton, shrunk.fileBlock_eq same slot.distinct,
      FileBlockMeta.ids_sealed, slot.ids]

end ShrunkTo

/-- A shrink leaves all other files alone. -/
theorem ShrunkTo.sameFile {s' : FileSystem} {fhs fbhs ids : Multiset Nat}
    (consistent : Consistent s { fhs := {w} + fhs, fbhs := fileBlock.toList + fbhs, ids := ids })
    (bound : f < s.nextFile) (slot : (s.files f).metaSlot = o)
    (entries : (s.files f).itemMaps.entries = [⟨0, old⟩])
    (shrunk : ShrunkTo s s' dir f o w offset old fileBlock) {g : FilePtr} (hg : g < s.nextFile)
    (apart : g ≠ f) : SameFile s s' g := by
  refine .of_agree ?_ (shrunk.fileMeta_other ?_ fun same => ?_) fun c member =>
    shrunk.fileBlock_other ?_ fun same => ?_
  · rw [shrunk.files, Function.update_of_ne apart]
  · exact fun same => apart (consistent.metaSlot_unique hg bound (same.trans slot.symm))
  · exact consistent.handles.not_held_of_lost (Multiset.nodup_range _) (by simp) (mem_range hg)
      (Multiset.mem_singleton.mpr same.symm)
  · rintro rfl
    exact apart (consistent.attached_unique hg bound member (by simp [attached, entries]))
  · exact consistent.fileBlocks.not_held_of_lost (Multiset.nodup_range _)
      (show c ∈ (fileBlock.toList + fbhs : Multiset Nat) by simp [same]) (mem_range hg) member

/-- A file block of the child and its ids replace those of the file, whose old ones are free again. -/
theorem Consistent.shrunk {taken : List Nat} (consistent : Consistent s
      { fhs := {w} + lost.fhs, fbhs := fileBlock.toList + lost.fbhs, ids := taken + lost.ids })
    (bound : f < s.nextFile) (slot : (s.files f).metaSlot = o)
    (entries : (s.files f).itemMaps.entries = [⟨0, old⟩]) (inside : offset < (s.fileMeta f).size)
    (empty : fileBlock = none → offset = 0 ∧ taken = [])
    (child : ∀ b, fileBlock = some b → ChildSlot s old b w offset taken)
    {s' : FileSystem} (shrunk : ShrunkTo s s' dir f o w offset old fileBlock) : Consistent s' lost := by
  obtain ⟨index, bounded, _⟩ := consistent.cut_index bound entries inside
  have capacity : kFileBlockCapacity = 1000 := rfl
  have narrow : offset / kBlockSize % 2 ^ 32 = offset / kBlockSize := Nat.mod_eq_of_lt (by omega)
  have attached : s.attached f = [old] := by simp [FileSystem.attached, entries]
  have ids : s.blockIds f = (s.fileBlockMetas old).ids := by simp [blockIds, attached]
  have gone : w ∈ ({w} + lost.fhs : Multiset Nat) := by simp
  have distinct : w ≠ o := fun same =>
    consistent.handles.not_held_of_lost (Multiset.nodup_range _) gone (mem_range bound)
      (Multiset.mem_singleton.mpr (same.trans slot.symm))
  have unused (b : FileBlockPtr) (same : fileBlock = some b) :
      b ∈ (fileBlock.toList + lost.fbhs : Multiset Nat) := by simp [same]
  have pool : (s'.blockIdPool : Multiset Nat) =
      (s.fileBlockMetas old).ids.drop (offset / kBlockSize) + s.blockIdPool := by
    rw [shrunk.blockIdPool, narrow]
    refine refilled_perm ?_ fun id member => ?_
    · exact (List.drop_sublist _ _).nodup (ids ▸ consistent.blockIds_nodup bound)
    · exact consistent.blockIds_not_free bound (ids ▸ List.mem_of_mem_drop member)
  refine consistent.replace bound shrunk.layout shrunk.nextFile
    (fun g hg apart => shrunk.sameFile consistent bound slot entries hg apart) (fun i => ?_)
    ?_ ?_ ?_ (fun i member => ?_) (fun c member => ?_) ?_
  · rw [shrunk.fileMetas]
    simp only [Function.update_apply]
    split
    · next same => rw [same]; exact consistent.slots o
    · split
      · next same => rw [same]; exact consistent.slots w
      · exact consistent.slots i
  · rw [shrunk.freeFhs, shrunk.file, slot, ← Multiset.coe_add, Multiset.coe_singleton]
    dsimp only
    abel
  · rw [shrunk.freeFbhs, shrunk.attached_eq, attached, ← Multiset.coe_add]
    dsimp only
    abel
  · rw [pool, shrunk.blockIds_eq empty child, ids, ← Multiset.coe_add]
    have split : ((s.fileBlockMetas old).ids : Multiset Nat) =
        (s.fileBlockMetas old).ids.take (offset / kBlockSize) +
        (s.fileBlockMetas old).ids.drop (offset / kBlockSize) := by
      rw [Multiset.coe_add, List.take_append_drop]
    conv_rhs => rw [split]
    dsimp only
    abel
  · rw [shrunk.freeFhs, List.mem_append, List.mem_singleton] at member
    rcases member with free | rfl
    · have apart : i ≠ w := by
        rintro rfl
        exact consistent.handles.not_free_of_lost (Multiset.nodup_range _) gone free
      have apart' : i ≠ o := fun same =>
        consistent.metaSlot_not_free bound free (slot.trans same.symm)
      rw [shrunk.fileMeta_other apart' apart]
      exact consistent.cleanFhs i free
    · rw [shrunk.fileMetas, Function.update_self]
      exact ⟨rfl, rfl⟩
  · rw [shrunk.freeFbhs, List.mem_append, List.mem_singleton] at member
    rcases member with free | rfl
    · have apart : c ≠ old := by
        rintro rfl
        exact consistent.attached_not_free bound (by simp [attached]) free
      rw [shrunk.fileBlock_other apart fun same =>
        consistent.fileBlocks.not_free_of_lost (Multiset.nodup_range _) (unused c same) free]
      exact consistent.cleanFbhs c free
    · rw [shrunk.fileBlockMetas, Function.update_self]
      exact ⟨rfl, rfl⟩
  · have size : (s'.fileMeta f).size = offset := by rw [shrunk.fileMeta_eq distinct]; rfl
    cases same : fileBlock with
    | none => exact .empty (size.trans (empty same).1) (by rw [shrunk.file, same]; rfl)
    | some b =>
      have slot := child b same
      have listed := congrArg List.length slot.ids
      rw [FileBlockMeta.ids_length, List.length_append, List.length_take, FileBlockMeta.ids_length,
        Nat.min_eq_left index.le] at listed
      refine .backed b (by rw [size]; exact slot.positive) ?_ ?_
      · rw [shrunk.file, same, itemsFor, slot.fileCut]
        rfl
      · rw [shrunk.fileBlock_eq same slot.distinct, shrunk.fileMeta_eq distinct]
        exact
          { used := slot.used
            fileCut := slot.fileCut
            fh := slot.fh
            isTemp := slot.isTemp
            covers := by
              rw [FileBlockMeta.sealed_usedBlockNum, listed]
              exact slot.covers
            bounded := by
              rw [FileBlockMeta.sealed_usedBlockNum, listed]
              exact slot.bounded }

end Commit

section Outcomes
variable [Crc32] {s : FileSystem} {env : Env} {f : FilePtr} {offset : Nat} {old : FileBlockPtr}
  {lost : Lost}

/-- The condition under which `ShrinkFile` gives up after it has taken a slot. -/
def LosesSlot (s : FileSystem) (f : FilePtr) (offset : Nat) : Prop :=
  s.freeFhs ≠ [] ∧
    ((0 < offset ∧ s.freeFbhs = []) ∨ (offset % kBlockSize ≠ 0 ∧ s.blockIdPool = []) ∨
      s.createdDhs.lookup (s.fileMeta f).dh = none)

/-- The condition under which `ShrinkFile` gives up after it has taken a file block. -/
def LosesFileBlock (s : FileSystem) (f : FilePtr) (offset : Nat) : Prop :=
  s.freeFhs ≠ [] ∧ s.freeFbhs ≠ [] ∧ 0 < offset ∧
    ((offset % kBlockSize ≠ 0 ∧ s.blockIdPool = []) ∨ s.createdDhs.lookup (s.fileMeta f).dh = none)

omit [Crc32] in
theorem adopted_sameResources (s : FileSystem) (o w : Nat) : SameResources s (s.adopted o w) := by
  have agree {α : Type} (g : FileMeta → α) (blind : ∀ m, g { m with childFh := (w : Int) } = g m)
      (i : Nat) : g ((s.adopted o w).fileMetas i) = g (s.fileMetas i) := by
    simp only [adopted, modifyFileMeta, Function.update_apply]
    split
    · next same => rw [blind, same]
    · rfl
  exact
    { layout := ⟨rfl, rfl, rfl, rfl⟩
      nextFile := rfl
      freeFhs := rfl
      freeFbhs := rfl
      blockIdPool := rfl
      fileBlockMetas := rfl
      metaSlot := fun _ => rfl
      itemMaps := fun _ => rfl
      fh := agree (·.fh) fun _ => rfl
      size := agree (·.size) fun _ => rfl
      used := agree (·.used) fun _ => rfl
      isTemp := agree (·.isTemp) fun _ => rfl }

omit [Crc32] in
theorem ChildSlot.adopted {b : FileBlockPtr} {o w : Nat} {taken : List Nat}
    (slot : ChildSlot s old b w offset taken) : ChildSlot (s.adopted o w) old b w offset taken :=
  { slot with
    fh := slot.fh.trans ((adopted_sameResources s o w).fh w).symm
    isTemp := slot.isTemp.trans ((adopted_sameResources s o w).isTemp w).symm }

/-- Shrinking keeps the accounts; only one that gives up half-way loses anything. -/
theorem Shrinkage.consistent (consistent : Consistent s lost) (bound : f < s.nextFile)
    (entries : (s.files f).itemMaps.entries = [⟨0, old⟩]) (shrinks : offset < (s.fileMeta f).size)
    {s' : FileSystem} {r : Int} (shrinkage : Shrinkage s env f offset old s' r) :
    ∃ lost', (¬s.LosesSlot f offset → lost'.fhs = lost.fhs) ∧
      (¬s.LosesFileBlock f offset → lost'.fbhs = lost.fbhs ∧ lost'.ids = lost.ids) ∧
      Consistent s' lost' := by
  have started {w : Nat} {rest : List Nat} (free : s.freeFhs = w :: rest) :
      (s.started f w rest offset).fileMeta f = s.fileMeta f :=
    Function.update_of_ne (consistent.metaSlot_not_free bound (by simp [free])) _ _
  cases shrinkage with
  | noSlot free =>
    refine ⟨lost, fun _ => rfl, fun _ => ⟨rfl, rfl⟩, consistent.congr ?_⟩
    constructor
    case layout => exact ⟨rfl, rfl, rfl, rfl⟩
    all_goals intros
    all_goals rfl
  | @noFileBlock w rest free positive none =>
    refine ⟨{ lost with fhs := {w} + lost.fhs }, fun safe => absurd ?_ safe, fun _ => ⟨rfl, rfl⟩,
      consistent.started free f offset⟩
    exact ⟨by simp [free], .inl ⟨positive, none⟩⟩
  | @noBlock w rest b rest' free free' uneven none =>
    have positive : 0 < offset := Nat.pos_of_ne_zero fun zero => uneven (by rw [zero, Nat.zero_mod])
    refine ⟨_, fun safe => absurd ?_ safe, fun safe => absurd ?_ safe,
      (consistent.started free f offset).entrusted free' _⟩
    · exact ⟨by simp [free], .inr (.inl ⟨uneven, none⟩)⟩
    · exact ⟨by simp [free], by simp [free'], positive, .inl ⟨uneven, none⟩⟩
  | @noDirectory w rest t fileBlock ids free child none =>
    obtain ⟨consistent', _, empty, slot⟩ := child.provided (consistent.started free f offset) bound entries
      (started free ▸ shrinks)
    refine ⟨_, fun safe => absurd ?_ safe, fun safe => ?_,
      consistent'.congr (adopted_sameResources t _ w)⟩
    · exact ⟨by simp [free], .inr (.inr none)⟩
    · cases same : fileBlock with
      | none => simp [(empty same).2]
      | some b =>
        refine absurd ?_ safe
        refine ⟨by simp [free], ?_, (slot b same).positive, .inr none⟩
        subst same
        cases child with
        | whole _ _ free' => simpa [FileSystem.started] using free' ▸ List.cons_ne_nil _ _
        | cut _ free' _ => simpa [FileSystem.started] using free' ▸ List.cons_ne_nil _ _
  | @shrunk w rest t fileBlock ids dir free child found =>
    obtain ⟨consistent', kept, empty, slot⟩ := child.provided (consistent.started free f offset) bound entries
      (started free ▸ shrinks)
    have distinct := consistent.metaSlot_not_free bound (show w ∈ s.freeFhs by simp [free])
    obtain ⟨pool, rest', blocks, data, state⟩ := child.frame
    have file : t.files = s.files := by rw [state]; rfl
    have next : t.nextFile = s.nextFile := by rw [state]; rfl
    have size : (t.fileMeta f).size = (s.fileMeta f).size := by rw [← started free, state]; rfl
    have same := adopted_sameResources t (s.files f).metaSlot w
    refine ⟨lost, fun _ => rfl, fun _ => ⟨rfl, rfl⟩,
      (consistent'.congr same).shrunk (o := (s.files f).metaSlot) (by rw [same.nextFile, next]; exact bound)
        (by rw [same.metaSlot, file]) (by rw [same.itemMaps, file]; exact entries)
        (by rw [(same.sameFile f).size, size]; exact shrinks) empty
        (fun b here => (slot b here).adopted)
        (shrunkTo _ _ _ _ _ distinct.symm ?_ fun b here => (slot b here).distinct)⟩
    rw [same.layout.parentFiles, consistent'.parents]

end Outcomes

end BlockFs.FileSystem
