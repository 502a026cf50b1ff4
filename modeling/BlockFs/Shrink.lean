import BlockFs.Recycle

namespace BlockFs.FileSystem

section Persist
variable [Crc32] {s : FileSystem} {env : Env} {f : FilePtr} {w o : Nat} {b : FileBlockPtr}
  {fileBlock : Option FileBlockPtr}

/-- The child slot `w`, its file block and the parent slot `o` have been written, in this order. -/
def shrinkSaved (s : FileSystem) (w o : Nat) (fileBlock : Option FileBlockPtr) : FileSystem :=
  let s := s.saveFile w
  let s := match fileBlock with
    | none => s
    | some b => s.saveFileBlock b
  s.saveFile o

/-- The child slot has forgotten its parent and been written again. -/
def orphaned (s : FileSystem) (w : Nat) : FileSystem :=
  (s.modifyFileMeta w fun m => { m with parentFh := -1, parentSize := 0 }).saveFile w

theorem shrinkSaved_fileMetas (distinct : w ≠ o) :
    (s.shrinkSaved w o fileBlock).fileMetas =
      Function.update (Function.update s.fileMetas w (s.fileMetas w).sealed) o
        (s.fileMetas o).sealed := by
  cases fileBlock <;>
    simp [shrinkSaved, saveFile, saveFileBlock, persist, Function.update_of_ne distinct.symm]

theorem recycled_fileMetas {offset : Nat} :
    (s.recycled o b offset).fileMetas =
      Function.update s.fileMetas o (s.fileMetas o).clear.sealed := by
  simp [recycled, releasedFileBlock, saveFile, saveFileBlock, persist]

theorem orphaned_fileMetas :
    (s.orphaned w).fileMetas =
      Function.update s.fileMetas w
        { s.fileMetas w with parentFh := -1, parentSize := 0 }.sealed := by
  simp [orphaned, saveFile, persist]

theorem recycleParentFh_ok (ok : env.IoOk) {parent : ParentFile}
    (slot : (s.files f).metaSlot = w) (fhs : ∀ i, (s.fileMetas i).fh = i)
    (found : s.parentFiles.lookup o = some parent) (parentSlot : parent.metaSlot = o)
    (entries : parent.fbMaps.entries = [⟨0, b⟩]) :
    s.recycleParentFh env f o = .ok ((s.recycled o b parent.offset).orphaned w, 0) := by
  have recycledFh : ((s.recycled o b parent.offset).fileMetas w).fh = w := by
    rw [recycled_fileMetas, Function.update_apply]
    split
    · next same => rw [same]; exact fhs o
    · exact fhs w
  have file : ((s.recycled o b parent.offset).files f).metaSlot = w := slot
  rw [recycleParentFh, removeParentFile_recycled ok (fhs o) found parentSlot entries, Except.ok_bind]
  generalize s.recycled o b parent.offset = t at recycledFh file ⊢
  have fh : ((t.modifyFileMeta w fun m =>
      { m with parentFh := -1, parentSize := 0 }).fileMeta f).fh = w := by
    simp [fileMeta, file, recycledFh]
  simp only [Bool.not_true, Bool.false_eq_true, if_false, file]
  rw [writeMeta, fh, writeFileMeta_ok ok]
  rfl

/-- The metadata writes that end a shrink all succeed, and the parent is recycled between them. -/
theorem shrinkPersist_ok (ok : env.IoOk) (f : FilePtr) (parent : ParentFile) (b : FileBlockPtr)
    (fileBlock : Option FileBlockPtr) (distinct : w ≠ o)
    (slot : (s.files f).metaSlot = w) (fhs : ∀ i, (s.fileMetas i).fh = i)
    (found : s.parentFiles.lookup o = some parent) (parentSlot : parent.metaSlot = o)
    (entries : parent.fbMaps.entries = [⟨0, b⟩]) :
    s.shrinkPersist env f o fileBlock =
      .ok ((((s.shrinkSaved w o fileBlock).recycled o b parent.offset).orphaned w), 0) := by
  have fh : (s.fileMeta f).fh = w := by rw [fileMeta, slot, fhs]
  have savedFhs (i : Nat) : ((s.shrinkSaved w o fileBlock).fileMetas i).fh = i := by
    rw [shrinkSaved_fileMetas distinct, Function.update_apply, Function.update_apply]
    split
    · next same => rw [same]; exact fhs o
    · split
      · next same => rw [same]; exact fhs w
      · exact fhs i
  have file : ((s.shrinkSaved w o fileBlock).files f).metaSlot = w := by
    cases fileBlock <;> exact slot
  have parents : (s.shrinkSaved w o fileBlock).parentFiles.lookup o = some parent := by
    cases fileBlock <;> exact found
  rw [← recycleParentFh_ok ok file savedFhs parents parentSlot entries, shrinkPersist, writeMeta, fh, writeFileMeta_ok ok]
  cases fileBlock with
  | none =>
    dsimp only
    rw [writeFileMeta_ok ok]
    rfl
  | some b =>
    dsimp only
    rw [writeFileBlockMeta_ok ok]
    dsimp only
    rw [writeFileMeta_ok ok]
    rfl

end Persist

section Copy
variable {s : FileSystem} {env : Env} {src dst len : Nat}

/-- A state whose device has `len` bytes copied from the start of block `src` to that of `dst`. -/
def copied (s : FileSystem) (src dst len : Nat) : FileSystem :=
  { s with
    disk := (s.disk.pwriteCache (fun i => s.disk.data (s.devOffset src 0 + i)) 0 len
      (s.devOffset dst 0)).1 }

/-- Less than a block is copied in one round, where neither transfer is refused. -/
theorem copyData_within (ok : env.IoOk) (positive : 0 < len) (short : len < kBlockSize)
    (readable : ¬s.disk.size < (s.devOffset src 0 + len) % 2 ^ 64)
    (writable : ¬s.disk.size < (s.devOffset dst 0 + len) % 2 ^ 64) :
    s.copyData env src dst 0 len = (s.copied src dst len, true) := by
  have rounds : len / (4 * M) = 0 := Nat.div_eq_of_lt short
  have whole : min len (4 * M) = len := Nat.min_eq_left short.le
  have nonzero : len ≠ 0 := by omega
  have loop : s.copyLoop src dst 1 0 len = (s.copied src dst len, true) := by
    rw [copyLoop, if_neg nonzero, whole]
    simp only [Disk.preadCache, if_neg readable, Disk.pwriteCache, if_neg writable, ne_eq,
      not_true_eq_false, if_false, Nat.sub_self, copyLoop, decide_true, copied]
    congr 3
    funext x
    split
    · next inside =>
      rw [if_pos (by omega)]
      congr 1
    · rfl
  rw [copyData, rounds, loop]
  simp only [ok.2]

theorem copyData_ok (ok : env.IoOk) (positive : 0 < len) (short : len < kBlockSize)
    (source : s.devOffset src 0 + len ≤ s.disk.size)
    (target : s.devOffset dst 0 + len ≤ s.disk.size) :
    s.copyData env src dst 0 len = (s.copied src dst len, true) :=
  copyData_within ok positive short (not_lt.mpr ((Nat.mod_le _ _).trans source))
    (not_lt.mpr ((Nat.mod_le _ _).trans target))

end Copy

/-- The child slot `w` has been taken and prepared for the content of `f` up to the last whole
block below `offset`. -/
def started (s : FileSystem) (f : FilePtr) (w : Nat) (rest : List Nat) (offset : Nat) : FileSystem :=
  { s with
    freeFhs := rest
    fileMetas := Function.update s.fileMetas w
      { s.fileMetas w with
        used := true, fh := w, dh := (s.fileMeta f).dh, fileName := (s.fileMeta f).fileName,
        isTemp := (s.fileMeta f).isTemp, parentFh := (s.fileMeta f).fh,
        parentSize := offset / kBlockSize % 2 ^ 32 * kBlockSize,
        size := offset / kBlockSize % 2 ^ 32 * kBlockSize } }

/-- The file block of the child slot with the ids inherited from `old`. -/
def inherited (s : FileSystem) (w : Nat) (old b : FileBlockPtr) (offset : Nat) : FileBlockMeta :=
  let new := { s.fileBlockMetas b with
    used := true, fileCut := (s.fileBlockMetas old).fileCut, fh := (s.fileMetas w).fh,
    isTemp := (s.fileMetas w).isTemp }
  if offset / kBlockSize % 2 ^ 32 = 0 then new
  else (s.fileBlockMetas old).inherit (offset / kBlockSize % 2 ^ 32) kFileBlockCapacity 0 0 new

/-- A free file block has been taken and filled for the child slot. -/
def entrusted (s : FileSystem) (b : FileBlockPtr) (rest : List FileBlockPtr) (slot : FileBlockMeta) :
    FileSystem :=
  { s with freeFbhs := rest, fileBlockMetas := Function.update s.fileBlockMetas b slot }

/-- The last, partial block has been copied to a new one, which the file block now lists. -/
def supplied (s : FileSystem) (env : Env) (b : FileBlockPtr) (src dst offset : Nat) : FileSystem :=
  let s := { s with blockIdPool := (env.order s.blockIdPool).drop 1 }.copied src dst
    (offset % kBlockSize)
  s.setFileBlockMeta b ((s.fileBlockMetas b).addBlockId dst)

/-- How the child slot of a file whose content is in `old` gets its file block: the state behind it,
the file block, and the block ids taken for it. -/
inductive ChildBlock (s : FileSystem) (env : Env) (old : FileBlockPtr) (w offset : Nat) :
    FileSystem → Option FileBlockPtr → List Nat → Prop
  | unneeded (empty : offset = 0) : ChildBlock s env old w offset s none []
  | whole {b rest} (positive : 0 < offset) (even : offset % kBlockSize = 0)
    (free : s.freeFbhs = b :: rest) :
    ChildBlock s env old w offset (s.entrusted b rest (s.inherited w old b offset)) (some b) []
  | cut {b rest id ids} (uneven : offset % kBlockSize ≠ 0) (free : s.freeFbhs = b :: rest)
    (pool : env.order s.blockIdPool = id :: ids) :
    ChildBlock s env old w offset
      ((s.entrusted b rest (s.inherited w old b offset)).supplied env b
        ((s.fileBlockMetas old).blockId (offset / kBlockSize)) id offset) (some b) [id]

/-- The old slot `o` of the file names the child slot. -/
def adopted (s : FileSystem) (o w : Nat) : FileSystem :=
  s.modifyFileMeta o fun m => { m with childFh := w }

/-- The file has moved to the child slot and left its file blocks to a parent. -/
def committed (s : FileSystem) (dir : DirectoryPtr) (f : FilePtr) (o w offset : Nat)
    (fileBlock : Option FileBlockPtr) : FileSystem :=
  let s := s.shrinkSwitch dir f w
  let parent : ParentFile := { metaSlot := o, offset := offset, fbMaps := (s.files f).itemMaps }
  let s := s.modifyFile f fun g => { g with itemMaps := ∅ }
  let s := { s with parentFiles := s.parentFiles.insert o parent }
  let s := match fileBlock with
    | none => s
    | some b => (s.addFileBlockNoLock f b).1
  s.modifyFileMeta w fun m => { m with size := offset }

/-- The file has moved on to the child slot `w` and the parent slot `o` has been recycled. -/
def shrunk [Crc32] (s : FileSystem) (dir : DirectoryPtr) (f : FilePtr) (o w offset : Nat)
    (old : FileBlockPtr) (fileBlock : Option FileBlockPtr) : FileSystem :=
  (((s.committed dir f o w offset fileBlock).shrinkSaved w o fileBlock).recycled o old
    offset).orphaned w

/-- What `ShrinkFile` can do to a consistent file system whose I/O succeeds. -/
inductive Shrinkage [Crc32] (s : FileSystem) (env : Env) (f : FilePtr) (offset : Nat)
    (old : FileBlockPtr) : FileSystem → Int → Prop
  | noSlot (free : s.freeFhs = []) : Shrinkage s env f offset old { s with errno := ENFILE } (-1)
  | noFileBlock {w rest} (free : s.freeFhs = w :: rest) (positive : 0 < offset)
    (none : s.freeFbhs = []) : Shrinkage s env f offset old (s.started f w rest offset) (-1)
  | noBlock {w rest b rest'} (free : s.freeFhs = w :: rest) (free' : s.freeFbhs = b :: rest')
    (uneven : offset % kBlockSize ≠ 0) (none : s.blockIdPool = []) :
    Shrinkage s env f offset old
      ((s.started f w rest offset).entrusted b rest'
        ((s.started f w rest offset).inherited w old b offset)) (-1)
  | noDirectory {w rest t fileBlock ids} (free : s.freeFhs = w :: rest)
    (child : ChildBlock (s.started f w rest offset) env old w offset t fileBlock ids)
    (none : s.createdDhs.lookup (s.fileMeta f).dh = none) :
    Shrinkage s env f offset old (t.adopted (s.files f).metaSlot w) (-1)
  | shrunk {w rest t fileBlock ids dir} (free : s.freeFhs = w :: rest)
    (child : ChildBlock (s.started f w rest offset) env old w offset t fileBlock ids)
    (found : s.createdDhs.lookup (s.fileMeta f).dh = some dir) :
    Shrinkage s env f offset old
      ((t.adopted (s.files f).metaSlot w).shrunk dir f (s.files f).metaSlot w offset old fileBlock) 0

section Outcomes
variable [Crc32] {s : FileSystem} {env : Env} {f : FilePtr} {offset : Nat} {old : FileBlockPtr}
  {lost : Lost}

omit [Crc32] in
theorem getFreeBlockIdLock_one {id : Nat} {ids : List Nat} (some_ : s.blockIdPool ≠ [])
    (order : env.order s.blockIdPool = id :: ids) :
    s.getFreeBlockIdLock env 1 =
      some ({ s with blockIdPool := (env.order s.blockIdPool).drop 1 }, [id]) := by
  have enough := List.length_pos_of_ne_nil some_
  rw [getFreeBlockIdLock, if_neg (by omega), order]
  rfl

theorem Consistent.newFreeFileMeta_cons (consistent : Consistent s lost) (dh : Nat) (name : Name)
    {w : Nat} {rest : List Nat} (free : s.freeFhs = w :: rest) :
    s.newFreeFileMeta dh name =
      ({ s.modifyFileMeta w fun m => { m with used := true, fh := w, dh := dh, fileName := name } with
          freeFhs := rest }, some w) := by
  obtain ⟨unused, empty⟩ := consistent.cleanFhs w (by simp [free])
  simp [newFreeFileMeta, free, unused, empty, consistent.slots]

theorem Consistent.started_sameFile (consistent : Consistent s lost) {w : Nat} {rest : List Nat}
    (free : s.freeFhs = w :: rest) {g : FilePtr} (bound : g < s.nextFile) :
    SameFile s (s.started f w rest offset) g := by
  have distinct := consistent.metaSlot_not_free bound (show w ∈ s.freeFhs by simp [free])
  exact .of_agree rfl (Function.update_of_ne distinct _ _) fun _ _ => rfl

/-- Taking a slot for the child leaves every file alone; until the child is in use the slot is lost. -/
theorem Consistent.started (consistent : Consistent s lost) {w : Nat} {rest : List Nat}
    (free : s.freeFhs = w :: rest) (f : FilePtr) (offset : Nat) :
    Consistent (s.started f w rest offset) { lost with fhs := {w} + lost.fhs } := by
  have nodup := consistent.handles.free_nodup (Multiset.nodup_range _)
  rw [free, Multiset.coe_nodup, List.nodup_cons] at nodup
  have listed : ((w :: rest : List Nat) : Multiset Nat) = {w} + rest := by simp
  refine consistent.untouched ⟨rfl, rfl, rfl, rfl⟩ rfl
    (fun g bound => consistent.started_sameFile free bound) (fun i => ?_) ?_ rfl rfl
    (fun i member => ?_) consistent.cleanFbhs
  · simp only [FileSystem.started, Function.update_apply]
    split
    · next same => exact same.symm
    · exact consistent.slots i
  · rw [free, listed]
    dsimp only [FileSystem.started]
    abel
  · have distinct : i ≠ w := fun same => nodup.1 (same ▸ member)
    simp only [FileSystem.started, Function.update_of_ne distinct]
    exact consistent.cleanFhs i (by simp only [free, List.mem_cons]; exact .inr member)

/-- The middle of `ShrinkFile` fails for lack of a file block or of a block, or provides the child. -/
theorem shrinkFileBlock_cases (consistent : Consistent s lost) (ok : env.IoOk)
    (bound : f < s.nextFile) (entries : (s.files f).itemMaps.entries = [⟨0, old⟩])
    (inside : offset < (s.fileMeta f).size) (w : Nat) :
    (0 < offset ∧ s.freeFbhs = [] ∧ s.shrinkFileBlock env f w offset = .ok (s, none)) ∨
    (∃ b rest, s.freeFbhs = b :: rest ∧ offset % kBlockSize ≠ 0 ∧ s.blockIdPool = [] ∧
      s.shrinkFileBlock env f w offset =
        .ok (s.entrusted b rest (s.inherited w old b offset), none)) ∨
    ∃ t fileBlock ids, s.shrinkFileBlock env f w offset = .ok (t, some fileBlock) ∧
      ChildBlock s env old w offset t fileBlock ids := by
  obtain ⟨_, backs⟩ := (consistent.rep f bound).of_entries entries
  have item : s.getFileBlock f 0 = some old := by
    rw [getFileBlock, AList.lookup, entries]
    rfl
  have covers := backs.covers
  have bounded := backs.bounded
  have index : offset / kBlockSize < (s.fileBlockMetas old).usedBlockNum := by
    rw [Nat.div_lt_iff_lt_mul kBlockSize_pos]
    omega
  have capacity : kFileBlockCapacity = 1000 := rfl
  have narrow : offset / kBlockSize % 2 ^ 32 = offset / kBlockSize := Nat.mod_eq_of_lt (by omega)
  have within : offset / kBlockSize % kFileBlockCapacity = offset / kBlockSize :=
    Nat.mod_eq_of_lt (by omega)
  have exact_ := Nat.div_add_mod offset kBlockSize
  unfold shrinkFileBlock
  dsimp only
  rw [narrow, within]
  by_cases empty : offset = 0
  · exact .inr (.inr ⟨s, none, [], by simp [empty], .unneeded empty⟩)
  have positive : 0 < offset := by omega
  have needs : ¬(offset / kBlockSize = 0 ∧ offset % kBlockSize = 0) := by
    rintro ⟨first, second⟩
    rw [first, second] at exact_
    omega
  rw [if_neg needs]
  cases free : s.freeFbhs with
  | nil => exact .inl ⟨positive, rfl, by simp [getFileBlockLock, free]⟩
  | cons b rest =>
    refine .inr ?_
    have item' : getFileBlock { s with freeFbhs := rest } f 0 = some old := item
    rw [consistent.getFileBlockLock_cons free, Except.ok_bind]
    dsimp only
    rw [item']
    dsimp only
    rw [if_neg (by simp [backs.fileCut])]
    have slot : (if offset / kBlockSize = 0 then
        { s.fileBlockMetas b with
          used := true, fileCut := (s.fileBlockMetas old).fileCut, fh := (s.fileMetas w).fh,
          isTemp := (s.fileMetas w).isTemp }
        else (s.fileBlockMetas old).inherit (offset / kBlockSize) kFileBlockCapacity 0 0
          { s.fileBlockMetas b with
            used := true, fileCut := (s.fileBlockMetas old).fileCut, fh := (s.fileMetas w).fh,
            isTemp := (s.fileMetas w).isTemp }) = s.inherited w old b offset := by
      rw [inherited, narrow]
    rw [slot]
    by_cases even : offset % kBlockSize = 0
    · rw [if_pos even]
      exact .inr ⟨_, _, _, rfl, .whole positive even free⟩
    rw [if_neg even]
    by_cases pool : s.blockIdPool = []
    · exact .inl ⟨b, rest, rfl, even, pool, by simp [getFreeBlockIdLock, pool, entrusted]⟩
    refine .inr ?_
    have length := (env.order_perm s.blockIdPool).length_eq
    have some_ := List.length_pos_of_ne_nil pool
    obtain ⟨id, ids, order⟩ := List.exists_cons_of_ne_nil
      (List.ne_nil_of_length_pos (length ▸ some_))
    have free' : id ∈ s.blockIdPool := by
      rw [← (env.order_perm s.blockIdPool).mem_iff, order]
      simp
    have target := consistent.devOffset_le (consistent.pool_lt free')
    have listed : (s.fileBlockMetas old).blockId (offset / kBlockSize) ∈ s.blockIds f := by
      simp only [blockIds, attached, entries, List.map_cons, List.map_nil, List.flatMap_cons,
        List.flatMap_nil, List.append_nil]
      exact FileBlockMeta.mem_ids.mpr ⟨_, index, rfl⟩
    have source := consistent.devOffset_le (consistent.blockIds_lt bound listed)
    have short := Nat.mod_lt offset kBlockSize_pos
    have taken : (s.entrusted b rest (s.inherited w old b offset)).getFreeBlockIdLock env 1 = _ :=
      getFreeBlockIdLock_one pool order
    have copy : { s.entrusted b rest (s.inherited w old b offset) with
          blockIdPool := (env.order s.blockIdPool).drop 1 }.copyData env
            ((s.fileBlockMetas old).blockId (offset / kBlockSize)) id 0 (offset % kBlockSize) = _ :=
      copyData_ok ok (by omega) short ((Nat.add_le_add_left short.le _).trans source)
        ((Nat.add_le_add_left short.le _).trans target)
    simp only [entrusted] at taken copy
    simp only [setFileBlockMeta, taken, List.headD_cons, copy]
    exact ⟨_, _, _, rfl, .cut even free order⟩

omit [Crc32] in
/-- Providing the child touches the block pool, the file blocks and the data on the device only. -/
theorem ChildBlock.frame {w : Nat} {t : FileSystem} {fileBlock : Option FileBlockPtr}
    {ids : List Nat} (child : ChildBlock s env old w offset t fileBlock ids) :
    ∃ pool rest blocks data,
      t = { s with
        blockIdPool := pool, freeFbhs := rest, fileBlockMetas := blocks
        disk := { s.disk with data := data } } := by
  cases child with
  | unneeded => exact ⟨_, _, _, _, rfl⟩
  | whole => exact ⟨_, _, _, _, rfl⟩
  | cut =>
    simp only [supplied, copied, Disk.pwriteCache]
    split <;> exact ⟨_, _, _, _, rfl⟩

omit [Crc32] in
theorem removeFileFromoDirectory_frame (s : FileSystem) (dir : DirectoryPtr) (f : FilePtr) :
    ∃ directories names fhs, (s.removeFileFromoDirectory dir f).1 =
      { s with directories := directories, createdFiles := names, createdFhs := fhs } := by
  unfold removeFileFromoDirectory removeChildFile
  split
  · next missing =>
    split at missing <;> simp at missing
    exact missing ▸ ⟨_, _, _, rfl⟩
  · next removed =>
    split at removed <;> simp at removed
    rw [← removed]
    unfold removeFileNoLock
    split
    · exact ⟨_, _, _, rfl⟩
    · dsimp only
      split <;> exact ⟨_, _, _, rfl⟩

omit [Crc32] in
theorem addFileToDirectory_frame (s : FileSystem) (dir : DirectoryPtr) (f : FilePtr) :
    s.addFileToDirectory dir f =
      { s with
        directories := (s.addChildFile dir f).1.directories
        createdFhs := s.createdFhs.insert (s.fileMeta f).fh f
        createdFiles := s.createdFiles.insert ((s.fileMeta f).dh, (s.fileMeta f).fileName) f } := by
  unfold addFileToDirectory addChildFile
  split <;> rfl

omit [Crc32] in
theorem shrinkSwitch_frame (s : FileSystem) (dir : DirectoryPtr) (f : FilePtr) (w : Nat) :
    ∃ directories names fhs, s.shrinkSwitch dir f w =
      { s with
        directories := directories, createdFiles := names, createdFhs := fhs
        files := Function.update s.files f { s.files f with metaSlot := w } } := by
  obtain ⟨directories, names, fhs, removed⟩ := removeFileFromoDirectory_frame s dir f
  have added := addFileToDirectory_frame
    (modifyFile { s with directories := directories, createdFiles := names, createdFhs := fhs } f
      fun g => { g with metaSlot := w }) dir f
  rw [shrinkSwitch, removed]
  exact ⟨_, _, _, added⟩

/-- The item map of the child: its file block, if it has one, at the cut written in its slot. -/
def itemsFor (s : FileSystem) : Option FileBlockPtr → Map Nat FileBlockPtr
  | none => ∅
  | some b => (∅ : Map Nat FileBlockPtr).insert (s.fileBlockMetas b).fileCut b

omit [Crc32] in
/-- Apart from the index switch, the commit changes the item map, the child slot and the table of
parents. -/
theorem committed_eq (s : FileSystem) (dir : DirectoryPtr) (f : FilePtr) (o w offset : Nat)
    (fileBlock : Option FileBlockPtr) :
    s.committed dir f o w offset fileBlock =
      { s with
        directories := (s.shrinkSwitch dir f w).directories
        createdFiles := (s.shrinkSwitch dir f w).createdFiles
        createdFhs := (s.shrinkSwitch dir f w).createdFhs
        files := Function.update s.files f
          { s.files f with metaSlot := w, itemMaps := s.itemsFor fileBlock }
        fileMetas := Function.update s.fileMetas w { s.fileMetas w with size := offset }
        parentFiles := s.parentFiles.insert o
          { metaSlot := o, offset := offset, fbMaps := (s.files f).itemMaps } } := by
  obtain ⟨directories, names, fhs, moved⟩ := shrinkSwitch_frame s dir f w
  cases fileBlock with
  | none => simp [committed, moved, itemsFor]
  | some b => simp [committed, moved, itemsFor, addFileBlockNoLock]

omit [Crc32] in
theorem adopted_fh {o w : Nat} (fhs : ∀ i, (s.fileMetas i).fh = i) (i : Nat) :
    ((s.adopted o w).fileMetas i).fh = i := by
  simp only [adopted, modifyFileMeta, Function.update_apply]
  split
  · next same => rw [same]; exact fhs o
  · exact fhs i

/-- The second half of `ShrinkFile` fails for lack of the directory, or runs to its end. -/
theorem shrinkCommit_cases (ok : env.IoOk) (f : FilePtr) (offset : Nat) {o w : Nat}
    (slot : (s.files f).metaSlot = o)
    (distinct : w ≠ o) (fhs : ∀ i, (s.fileMetas i).fh = i) (parents : s.parentFiles = ∅)
    (entries : (s.files f).itemMaps.entries = [⟨0, old⟩]) (fileBlock : Option FileBlockPtr) :
    (s.createdDhs.lookup (s.fileMeta f).dh = none ∧
      s.shrinkCommit env f w o offset fileBlock = .ok (s.adopted o w, -1)) ∨
    ∃ dir, s.createdDhs.lookup (s.fileMeta f).dh = some dir ∧
      s.shrinkCommit env f w o offset fileBlock =
        .ok ((s.adopted o w).shrunk dir f o w offset old fileBlock, 0) := by
  have named : ((s.adopted o w).fileMeta f).dh = (s.fileMeta f).dh := by
    have file : ((s.adopted o w).files f).metaSlot = o := slot
    rw [fileMeta, fileMeta, slot, file]
    simp [adopted]
  have child : (s.modifyFileMeta o fun m => { m with childFh := (s.fileMetas w).fh }) =
      s.adopted o w := by rw [fhs w]; rfl
  have dirs : (s.adopted o w).createdDhs = s.createdDhs := rfl
  unfold shrinkCommit
  rw [child]
  dsimp only
  rw [named, dirs]
  cases found : s.createdDhs.lookup (s.fileMeta f).dh with
  | none => exact .inl ⟨rfl, rfl⟩
  | some dir =>
    refine .inr ⟨dir, rfl, ?_⟩
    obtain ⟨directories, names, handles, switched⟩ := shrinkSwitch_frame (s.adopted o w) dir f w
    have state := committed_eq (s.adopted o w) dir f o w offset fileBlock
    have committedFhs (i : Nat) :
        (((s.adopted o w).committed dir f o w offset fileBlock).fileMetas i).fh = i := by
      rw [state]
      simp only [Function.update_apply]
      split
      · next same => rw [same]; exact adopted_fh fhs w
      · exact adopted_fh fhs i
    have persisted := shrinkPersist_ok ok f
      { metaSlot := o, offset := offset, fbMaps := (s.files f).itemMaps } old fileBlock distinct
      (by rw [state]; simp) committedFhs (by rw [state]; exact AList.lookup_insert _) rfl entries
    have metas : ((s.adopted o w).shrinkSwitch dir f w).fileMetas = (s.adopted o w).fileMetas := by
      rw [switched]
    have noParent : ((s.adopted o w).shrinkSwitch dir f w).parentFiles = ∅ := by
      rw [switched]
      exact parents
    have key : (((s.adopted o w).shrinkSwitch dir f w).fileMetas o).fh = o := by
      rw [metas, adopted_fh fhs]
    have unparented : ¬(((s.adopted o w).shrinkSwitch dir f w).parentFiles.lookup
        (((s.adopted o w).shrinkSwitch dir f w).fileMetas o).fh).isSome = true := by
      rw [noParent, AList.lookup_empty]
      simp
    rw [shrunk, ← persisted]
    unfold committed
    split
    · next impossible => simp at impossible
    · next dir' same =>
      obtain rfl : dir = dir' := Option.some.inj same
      split
      · next parented => exact absurd parented unparented
      · dsimp only [modifyFile]
        rw [key]
        cases fileBlock with
        | none => simp [Function.update_of_ne distinct.symm, key]
        | some b => simp [addFileBlockNoLock, Function.update_of_ne distinct.symm, key]

/-- `ShrinkFile` runs into none of its assertions. -/
theorem shrinkFile_cases (consistent : Consistent s lost) (ok : env.IoOk) (bound : f < s.nextFile)
    (entries : (s.files f).itemMaps.entries = [⟨0, old⟩])
    (shrinks : offset < (s.fileMeta f).size) :
    ∃ s' r, s.shrinkFile env f offset = .ok (s', r) ∧ Shrinkage s env f offset old s' r := by
  cases free : s.freeFhs with
  | nil =>
    have none : s.newFreeFileMeta (s.fileMeta f).dh (s.fileMeta f).fileName =
        ({ s with errno := ENFILE }, none) := by rw [newFreeFileMeta, free]
    exact ⟨_, _, by rw [shrinkFile, none], .noSlot free⟩
  | cons w rest =>
    have slot := consistent.metaSlot_not_free bound (show w ∈ s.freeFhs by simp [free])
    have consistent' := consistent.started free f offset
    have same : (s.started f w rest offset).fileMeta f = s.fileMeta f := Function.update_of_ne slot _ _
    have prepared : s.shrinkFile env f offset =
        (match (s.started f w rest offset).shrinkFileBlock env f w offset with
        | .error fault => .error fault
        | .ok (t, none) => .ok (t, -1)
        | .ok (t, some fileBlock) =>
          t.shrinkCommit env f w (s.files f).metaSlot offset fileBlock) := by
      rw [shrinkFile, consistent.newFreeFileMeta_cons _ _ free]
      dsimp only [modifyFileMeta]
      rw [Function.update_idem, Function.update_self, Function.update_of_ne slot]
      change (s.started f w rest offset).shrinkFileBlock env f w offset >>= _ = _
      cases (s.started f w rest offset).shrinkFileBlock env f w offset with
      | error fault => rfl
      | ok result =>
        obtain ⟨t, fileBlock⟩ := result
        cases fileBlock <;> rfl
    rcases shrinkFileBlock_cases consistent' ok bound entries (same ▸ shrinks) w with
      ⟨positive, empty, result⟩ | ⟨b, rest', free', uneven, empty, result⟩ |
      ⟨t, fileBlock, ids, result, child⟩
    · exact ⟨_, _, by rw [prepared, result], .noFileBlock free positive empty⟩
    · exact ⟨_, _, by rw [prepared, result], .noBlock free free' uneven empty⟩
    · obtain ⟨pool, rest', blocks, data, state⟩ := child.frame
      have file : t.files = s.files := by rw [state]; rfl
      have dirs : t.createdDhs = s.createdDhs := by rw [state]; rfl
      have name : t.fileMeta f = s.fileMeta f := by rw [← same, state]; rfl
      have handles (i : Nat) : (t.fileMetas i).fh = i := by rw [state]; exact consistent'.slots i
      have parents : t.parentFiles = ∅ := by rw [state]; exact consistent.parents
      rcases shrinkCommit_cases ok f offset (by rw [file]) slot.symm handles parents
          (by rw [file]; exact entries) fileBlock with ⟨missing, failed⟩ | ⟨dir, found, done⟩
      · rw [dirs, name] at missing
        exact ⟨_, _, by rw [prepared, result]; exact failed, .noDirectory free child missing⟩
      · rw [dirs, name] at found
        exact ⟨_, _, by rw [prepared, result]; exact done, .shrunk free child found⟩

end Outcomes

end BlockFs.FileSystem
