import BlockFs.Resources

namespace BlockFs.FileSystem

theorem lastBlockLeft_covered {size used : Nat} (covered : size ≤ used * kBlockSize) :
    size + lastBlockLeft size ≤ used * kBlockSize := by
  unfold lastBlockLeft
  split
  · omega
  · simp only [kBlockSize_eq] at *
    omega

/-- The needed blocks behind blocks that cover the old size cover the new one. -/
theorem blocksNeeded_covers {size offset used : Nat} (grows : size ≤ offset)
    (covered : size ≤ used * kBlockSize) :
    offset ≤ (used + blocksNeeded size offset) * kBlockSize := by
  have left := lastBlockLeft_covered covered
  unfold blocksNeeded alignUp
  dsimp only
  split
  · rw [Nat.add_zero]
    omega
  · simp only [kBlockSize_eq] at *
    omega

theorem blocksNeeded_pos {offset : Nat} (positive : 0 < offset) : 0 < blocksNeeded 0 offset := by
  have left : lastBlockLeft 0 = 0 := rfl
  unfold blocksNeeded alignUp
  dsimp only
  rw [left, if_neg (by omega), kBlockSize_eq]
  omega

theorem numBlocksNeeded_eq {size offset : Nat} (narrow : blocksNeeded size offset < 2 ^ 32) :
    numBlocksNeeded size offset = blocksNeeded size offset := Nat.mod_eq_of_lt narrow

/-- The slot of a file takes a new size and is written. -/
def resized [Crc32] (s : FileSystem) (f : FilePtr) (offset : Nat) : FileSystem :=
  (s.modifyFileMeta (s.files f).metaSlot fun m => { m with size := offset }).saveFile
    (s.files f).metaSlot

/-- The file block `ExtendFile` fills: the one at hand, or a free one prepared for the file. -/
def targetSlot (s : FileSystem) (f : FilePtr) (b : FileBlockPtr) (isNew : Bool) : FileBlockMeta :=
  if isNew then
    { s.fileBlockMetas b with
      used := true, fileCut := 0, fh := (s.fileMeta f).fh, isTemp := (s.fileMeta f).isTemp }
  else s.fileBlockMetas b

/-- A growth that took `needed` blocks into the file block `b`, which is now `slot`. -/
def grown [Crc32] (s : FileSystem) (env : Env) (f : FilePtr) (offset needed : Nat) (b : FileBlockPtr)
    (slot : FileBlockMeta) (items : Map Nat FileBlockPtr) : FileSystem :=
  ((({ s with
      blockIdPool := (env.order s.blockIdPool).drop needed
      fileBlockMetas := Function.update s.fileBlockMetas b slot }.saveFileBlock b).modifyFile f
    fun o => { o with itemMaps := items }).resized f offset)

section ExtendBlocks
variable [Crc32] {s : FileSystem} {env : Env} {f : FilePtr} {offset needed : Nat} {b : FileBlockPtr}
  {isNew : Bool}

theorem extendBlocks_short (needs : 0 < needed) (short : s.blockIdPool.length < needed) :
    s.extendBlocks env f offset needed b isNew =
      (if isNew then s.putFileBlockLock b else s, -1) := by
  simp [extendBlocks, getFreeBlockIdLock, needs, short]

theorem extendBlocks_overfull (needs : 0 < needed) (enough : needed ≤ s.blockIdPool.length)
    {slot : FileBlockMeta}
    (full : (s.targetSlot f b isNew).fill ((env.order s.blockIdPool).take needed) = (slot, false)) :
    s.extendBlocks env f offset needed b isNew =
      ({ s with
          blockIdPool := (env.order s.blockIdPool).drop needed
          fileBlockMetas := Function.update s.fileBlockMetas b slot }, -1) := by
  unfold targetSlot at full
  rw [extendBlocks, if_pos needs, getFreeBlockIdLock, if_neg (not_lt.mpr enough)]
  simp only [fileMeta] at full ⊢
  simp only [full, setFileBlockMeta]

omit [Crc32] in
theorem addFileBlockNoLock_empty (empty : (s.files f).itemMaps.entries = []) :
    s.addFileBlockNoLock f b =
      (s.modifyFile f fun o =>
        { o with itemMaps := o.itemMaps.insert (s.fileBlockMetas b).fileCut b }, true) := by
  rw [addFileBlockNoLock, AList.lookup, empty]
  rfl

omit [Crc32] in
theorem taken_ne_nil (env : Env) (needs : 0 < needed) (enough : needed ≤ s.blockIdPool.length) :
    ((env.order s.blockIdPool).take needed).isEmpty = false := by
  have length := (env.order_perm s.blockIdPool).length_eq
  cases list : (env.order s.blockIdPool).take needed with
  | cons _ _ => rfl
  | nil =>
    have zero := congrArg List.length list
    rw [List.length_take, List.length_nil] at zero
    omega

theorem extendBlocks_grown (ok : env.IoOk) (fh : (s.fileMeta f).fh = (s.files f).metaSlot)
    (needs : 0 < needed) (enough : needed ≤ s.blockIdPool.length)
    (empty : isNew = true → (s.files f).itemMaps.entries = []) {slot : FileBlockMeta}
    (filled : (s.targetSlot f b isNew).fill ((env.order s.blockIdPool).take needed) = (slot, true))
    (cut : slot.fileCut = 0) :
    s.extendBlocks env f offset needed b isNew =
      (s.grown env f offset needed b slot
        (if isNew then (s.files f).itemMaps.insert 0 b else (s.files f).itemMaps), 0) := by
  have taken := taken_ne_nil env needs enough
  unfold targetSlot at filled
  rw [extendBlocks, if_pos needs, getFreeBlockIdLock, if_neg (not_lt.mpr enough)]
  simp only [fileMeta] at filled fh ⊢
  simp only [filled, taken, setFileBlockMeta, writeFileBlockMeta_ok ok]
  cases isNew with
  | false =>
    simp [grown, resized, saveFileBlock, persist, writeMeta, writeFileMeta_ok ok, fileMeta, fh]
  | true =>
    rw [if_neg (by simp)]
    simp only [Bool.not_false, Bool.and_self, if_true]
    rw [addFileBlockNoLock_empty (by simpa [saveFileBlock, persist] using empty rfl)]
    simp [grown, resized, saveFileBlock, persist, writeMeta, writeFileMeta_ok ok, fileMeta, fh, cut]

theorem extendBlocks_inPlace (ok : env.IoOk) (fh : (s.fileMeta f).fh = (s.files f).metaSlot) :
    s.extendBlocks env f offset 0 b false = (s.resized f offset, 0) := by
  rw [fileMeta] at fh
  simp [extendBlocks, FileBlockMeta.fill, writeMeta, writeFileMeta_ok ok, fileMeta, fh, resized]

end ExtendBlocks

/-- The file block `ExtendFile` works on, whether it is new to the file, and the free list after it
was taken. -/
inductive Found (s : FileSystem) (f : FilePtr) : FileBlockPtr → Bool → List FileBlockPtr → Prop
  | new {b rest} (size : (s.fileMeta f).size = 0) (entries : (s.files f).itemMaps.entries = [])
    (free : s.freeFbhs = b :: rest) : Found s f b true rest
  | old {b} (size : 0 < (s.fileMeta f).size) (entries : (s.files f).itemMaps.entries = [⟨0, b⟩])
    (room : (s.fileBlockMetas b).usedBlockNum ≠ kFileBlockCapacity) : Found s f b false s.freeFbhs

/-- The block ids a growth takes, and the list of free ones behind them. -/
def takenIds (s : FileSystem) (env : Env) (needed : Nat) : List Nat :=
  (env.order s.blockIdPool).take needed

/-- What `ExtendFile` can do to a consistent file system whose I/O succeeds. -/
inductive Extension [Crc32] (s : FileSystem) (env : Env) (f : FilePtr) (offset : Nat) :
    FileSystem → Int → Prop
  | refused (cause : s.superMeta.deviceSize < offset ∨ ((s.fileMeta f).size = 0 ∧ s.freeFbhs = []) ∨
      ∃ b, (s.files f).itemMaps.entries = [⟨0, b⟩] ∧
        ((s.fileBlockMetas b).usedBlockNum = kFileBlockCapacity ∨
          s.blockIdPool.length < blocksNeeded (s.fileMeta f).size offset)) :
    Extension s env f offset s (-1)
  | returned {b rest} (found : Found s f b true rest)
    (short : s.blockIdPool.length < blocksNeeded (s.fileMeta f).size offset) :
    Extension s env f offset { s with freeFbhs := rest ++ [b] } (-1)
  | overfull {b isNew rest slot} (found : Found s f b isNew rest)
    (enough : blocksNeeded (s.fileMeta f).size offset ≤ s.blockIdPool.length)
    (overflow : kFileBlockCapacity <
      (s.fileBlockMetas b).usedBlockNum + blocksNeeded (s.fileMeta f).size offset)
    (same : FileBlockMeta.SameSlot (s.targetSlot f b isNew) slot)
    (ids : slot.ids = (s.fileBlockMetas b).ids ++
      (s.takenIds env (blocksNeeded (s.fileMeta f).size offset)).take
        (kFileBlockCapacity - (s.fileBlockMetas b).usedBlockNum)) :
    Extension s env f offset
      { s with
        freeFbhs := rest
        blockIdPool := (env.order s.blockIdPool).drop (blocksNeeded (s.fileMeta f).size offset)
        fileBlockMetas := Function.update s.fileBlockMetas b slot } (-1)
  | inPlace {b rest} (found : Found s f b false rest)
    (none : blocksNeeded (s.fileMeta f).size offset = 0) :
    Extension s env f offset (s.resized f offset) 0
  | grown {b isNew rest slot} (found : Found s f b isNew rest)
    (needs : 0 < blocksNeeded (s.fileMeta f).size offset)
    (enough : blocksNeeded (s.fileMeta f).size offset ≤ s.blockIdPool.length)
    (fits : (s.fileBlockMetas b).usedBlockNum + blocksNeeded (s.fileMeta f).size offset ≤
      kFileBlockCapacity)
    (same : FileBlockMeta.SameSlot (s.targetSlot f b isNew) slot)
    (ids : slot.ids = (s.fileBlockMetas b).ids ++
      s.takenIds env (blocksNeeded (s.fileMeta f).size offset)) :
    Extension s env f offset
      ({ s with freeFbhs := rest }.grown env f offset (blocksNeeded (s.fileMeta f).size offset) b slot
        (if isNew then (s.files f).itemMaps.insert 0 b else (s.files f).itemMaps)) 0

section ExtendFile
variable [Crc32] {s : FileSystem} {env : Env} {f : FilePtr} {offset : Nat} {lost : Lost}

theorem Consistent.getFileBlockLock_cons (consistent : Consistent s lost) {b : FileBlockPtr}
    {rest : List FileBlockPtr} (free : s.freeFbhs = b :: rest) :
    s.getFileBlockLock = .ok ({ s with freeFbhs := rest }, some b) := by
  obtain ⟨unused, empty⟩ := consistent.cleanFbhs b (by simp [free])
  simp [getFileBlockLock, free, unused, empty]

omit [Crc32] in
theorem takenIds_length (env : Env) {needed : Nat} (enough : needed ≤ s.blockIdPool.length) :
    (s.takenIds env needed).length = needed := by
  have length := (env.order_perm s.blockIdPool).length_eq
  rw [takenIds, List.length_take]
  omega

omit [Crc32] in
theorem targetSlot_usedBlockNum (b : FileBlockPtr) (isNew : Bool) :
    (s.targetSlot f b isNew).usedBlockNum = (s.fileBlockMetas b).usedBlockNum := by
  cases isNew <;> rfl

omit [Crc32] in
theorem targetSlot_ids (b : FileBlockPtr) (isNew : Bool) :
    (s.targetSlot f b isNew).ids = (s.fileBlockMetas b).ids := by
  cases isNew <;> rfl

omit [Crc32] in
/-- The file block found has room left, and it is at cut 0 once it is prepared. -/
theorem Found.targetSlot_fileCut (rep : s.FileRep f) {b : FileBlockPtr} {isNew : Bool}
    {rest : List FileBlockPtr} (found : Found s f b isNew rest) :
    (s.targetSlot f b isNew).fileCut = 0 := by
  cases found with
  | new => rfl
  | old size entries room =>
    cases rep with
    | empty zero => omega
    | backed c _ entries' backs =>
      obtain rfl : c = b := by simpa using entries'.symm.trans entries
      exact backs.fileCut

/-- Once the file block is found, the rest of `ExtendFile` runs to one of its outcomes. -/
theorem Found.extension (consistent : Consistent s lost) (ok : env.IoOk) (rep : s.FileRep f)
    {b : FileBlockPtr} {isNew : Bool} {rest : List FileBlockPtr} (found : Found s f b isNew rest)
    (grows : (s.fileMeta f).size < offset)
    (bounded : (s.fileBlockMetas b).usedBlockNum ≤ kFileBlockCapacity) :
    ∃ s' r, { s with freeFbhs := rest }.extendBlocks env f offset
        (blocksNeeded (s.fileMeta f).size offset) b isNew = (s', r) ∧
      Extension s env f offset s' r := by
  have fh := consistent.fileMeta_fh f
  have cut := found.targetSlot_fileCut rep
  by_cases needs : 0 < blocksNeeded (s.fileMeta f).size offset
  · by_cases enough : blocksNeeded (s.fileMeta f).size offset ≤ s.blockIdPool.length
    · have length := takenIds_length env enough
      have used := targetSlot_usedBlockNum (s := s) (f := f) b isNew
      by_cases fits : (s.fileBlockMetas b).usedBlockNum +
          blocksNeeded (s.fileMeta f).size offset ≤ kFileBlockCapacity
      · obtain ⟨done, ids, same⟩ := FileBlockMeta.fill_of_fits (m := s.targetSlot f b isNew)
          (s.takenIds env (blocksNeeded (s.fileMeta f).size offset)) (by omega)
        generalize filled : (s.targetSlot f b isNew).fill
          (s.takenIds env (blocksNeeded (s.fileMeta f).size offset)) = result at done ids same
        obtain ⟨slot, flag⟩ := result
        dsimp only at done ids same
        subst done
        have empty (new : isNew = true) : (s.files f).itemMaps.entries = [] := by
          subst new
          cases found with
          | new _ entries => exact entries
        have slotCut : slot.fileCut = 0 := by
          rw [same]
          exact cut
        rw [targetSlot_ids] at ids
        exact ⟨_, _, extendBlocks_grown (s := { s with freeFbhs := rest }) ok fh needs enough empty
          filled slotCut, .grown found needs enough fits same ids⟩
      · obtain ⟨failed, ids, same⟩ := FileBlockMeta.fill_of_overflow (m := s.targetSlot f b isNew)
          (s.takenIds env (blocksNeeded (s.fileMeta f).size offset)) (by omega) (by omega)
        generalize filled : (s.targetSlot f b isNew).fill
          (s.takenIds env (blocksNeeded (s.fileMeta f).size offset)) = result at failed ids same
        obtain ⟨slot, flag⟩ := result
        dsimp only at failed ids same
        subst failed
        rw [targetSlot_ids, used] at ids
        exact ⟨_, _, extendBlocks_overfull (s := { s with freeFbhs := rest }) needs enough filled,
          .overfull found enough (by omega) same ids⟩
    · have short := not_le.mp enough
      refine ⟨_, _, extendBlocks_short (s := { s with freeFbhs := rest }) needs short, ?_⟩
      cases found with
      | new size entries free => exact .returned (.new size entries free) short
      | old _ entries _ => exact .refused (.inr (.inr ⟨b, entries, .inr short⟩))
  · have none : blocksNeeded (s.fileMeta f).size offset = 0 := by omega
    rw [none]
    cases found with
    | new size =>
      have positive := blocksNeeded_pos (show 0 < offset by omega)
      rw [size] at none
      omega
    | old size entries room =>
      exact ⟨_, _, extendBlocks_inPlace ok fh, .inPlace (.old size entries room) none⟩

/-- `ExtendFile` runs into none of its assertions. -/
theorem extendFile_cases (consistent : Consistent s lost) (ok : env.IoOk) (bound : f < s.nextFile)
    (grows : (s.fileMeta f).size < offset)
    (narrow : s.superMeta.deviceSize < offset ∨ blocksNeeded (s.fileMeta f).size offset < 2 ^ 32) :
    ∃ s' r, s.extendFile env f offset = .ok (s', r) ∧ Extension s env f offset s' r := by
  by_cases large : s.superMeta.deviceSize < offset
  · exact ⟨s, -1, by rw [extendFile, if_pos large], .refused (.inl large)⟩
  have count := numBlocksNeeded_eq (narrow.resolve_left large)
  have rep := consistent.rep f bound
  cases rep with
  | empty size entries =>
    cases free : s.freeFbhs with
    | nil =>
      refine ⟨s, -1, ?_, .refused (.inr (.inl ⟨size, free⟩))⟩
      simp [extendFile, large, size, entries, getFileBlockLock, free]
    | cons b rest =>
      obtain ⟨_, none⟩ := consistent.cleanFbhs b (by simp [free])
      obtain ⟨s', r, result, outcome⟩ := Found.extension consistent ok (.empty size entries)
        (Found.new size entries free) grows (by omega)
      refine ⟨s', r, ?_, outcome⟩
      rw [extendFile, if_neg large]
      simp only [count]
      rw [if_pos size, entries, if_neg (by simp), consistent.getFileBlockLock_cons free,
        Except.ok_bind]
      exact congrArg Except.ok result
  | backed b size entries backs =>
    have positive : (s.fileMeta f).size ≠ 0 := by omega
    have item : s.getFileBlock f ((s.files f).itemMaps.entries.length - 1) = some b := by
      rw [getFileBlock, AList.lookup, entries]
      rfl
    by_cases full : (s.fileBlockMetas b).isBlockFull = true
    · refine ⟨s, -1, ?_, .refused (.inr (.inr ⟨b, entries, .inl ?_⟩))⟩
      · rw [extendFile, if_neg large]
        simp only
        rw [if_neg positive, item, entries, if_neg (by simp)]
        simp only
        rw [if_pos full]
      · simpa [FileBlockMeta.isBlockFull] using full
    · have room : (s.fileBlockMetas b).usedBlockNum ≠ kFileBlockCapacity := by
        simpa [FileBlockMeta.isBlockFull] using full
      obtain ⟨s', r, result, outcome⟩ := Found.extension consistent ok
        (.backed b size entries backs) (Found.old size entries room) grows backs.bounded
      refine ⟨s', r, ?_, outcome⟩
      rw [extendFile, if_neg large]
      simp only [count]
      rw [if_neg positive, item, entries, if_neg (by simp)]
      simp only
      rw [if_neg full]
      exact congrArg Except.ok result

end ExtendFile

section Frames
variable [Crc32] {s : FileSystem} {env : Env} {f : FilePtr} {offset needed : Nat} {b : FileBlockPtr}
  {slot : FileBlockMeta} {items : Map Nat FileBlockPtr}

theorem resized_fileMetas :
    (s.resized f offset).fileMetas =
      Function.update s.fileMetas (s.files f).metaSlot
        { s.fileMeta f with size := offset }.sealed := by
  simp [resized, saveFile, persist, fileMeta]

theorem resized_sameLayout : SameLayout s (s.resized f offset) where
  superMeta := rfl
  maxBlockNum := rfl
  diskSize := by simp [resized, saveFile, persist]
  parentFiles := rfl

theorem grown_fileMetas :
    (s.grown env f offset needed b slot items).fileMetas =
      Function.update s.fileMetas (s.files f).metaSlot
        { s.fileMeta f with size := offset }.sealed := by
  simp [grown, resized, saveFile, saveFileBlock, persist, fileMeta]

theorem grown_files :
    (s.grown env f offset needed b slot items).files =
      Function.update s.files f { s.files f with itemMaps := items } := rfl

theorem grown_fileBlockMetas :
    (s.grown env f offset needed b slot items).fileBlockMetas =
      Function.update s.fileBlockMetas b slot.sealed := by
  simp [grown, resized, saveFile, saveFileBlock, persist]

theorem grown_sameLayout : SameLayout s (s.grown env f offset needed b slot items) where
  superMeta := rfl
  maxBlockNum := rfl
  diskSize := by simp [grown, resized, saveFile, saveFileBlock, persist]
  parentFiles := rfl

end Frames

section Preservation
variable [Crc32] {s : FileSystem} {env : Env} {f : FilePtr} {offset : Nat} {lost : Lost}

/-- The files other than `f` after a change of the slot and item map of `f` and of one file block no
other file has. -/
theorem Consistent.others (consistent : Consistent s lost) (bound : f < s.nextFile) {s' : FileSystem}
    {b : FileBlockPtr} {m : FileMeta} {slot : FileBlockMeta} {o : File}
    (files : s'.files = Function.update s.files f o)
    (fileMetas : s'.fileMetas = Function.update s.fileMetas (s.files f).metaSlot m)
    (fileBlockMetas : s'.fileBlockMetas = Function.update s.fileBlockMetas b slot)
    (foreign : ∀ g < s.nextFile, g ≠ f → b ∉ s.attached g) :
    ∀ g < s.nextFile, g ≠ f → SameFile s s' g := by
  intro g hg distinct
  refine SameFile.of_agree ?_ ?_ fun c member => ?_
  · rw [files, Function.update_of_ne distinct]
  · rw [fileMetas, Function.update_of_ne]
    exact fun same => distinct (consistent.metaSlot_unique hg bound same)
  · rw [fileBlockMetas, Function.update_of_ne]
    rintro rfl
    exact foreign g hg distinct member

/-- The file block found belongs to no other file. -/
theorem Found.foreign (consistent : Consistent s lost) (bound : f < s.nextFile) {b : FileBlockPtr}
    {isNew : Bool} {rest : List FileBlockPtr} (found : Found s f b isNew rest) :
    ∀ g < s.nextFile, g ≠ f → b ∉ s.attached g := by
  intro g hg distinct member
  cases found with
  | new _ _ free => exact consistent.attached_not_free hg member (by simp [free])
  | old _ entries _ =>
    have mine : b ∈ s.attached f := by simp [attached, entries]
    exact distinct (consistent.attached_unique hg bound member mine)

omit [Crc32] in
/-- The file block found is the only one in the item map after the growth. -/
theorem Found.items {b : FileBlockPtr} {isNew : Bool} {rest : List FileBlockPtr}
    (found : Found s f b isNew rest) :
    (if isNew then (s.files f).itemMaps.insert 0 b else (s.files f).itemMaps).entries = [⟨0, b⟩] := by
  cases found with
  | new _ entries _ =>
    rw [if_pos rfl, AList.entries_insert, entries]
    rfl
  | old _ entries _ => exact entries

theorem Consistent.inPlace (consistent : Consistent s lost) (bound : f < s.nextFile)
    {b : FileBlockPtr} {rest : List FileBlockPtr} (found : Found s f b false rest)
    (grows : (s.fileMeta f).size < offset)
    (none : blocksNeeded (s.fileMeta f).size offset = 0) :
    Consistent (s.resized f offset) lost := by
  have slots (i : Nat) : ((s.resized f offset).fileMetas i).fh = i := by
    rw [resized_fileMetas, Function.update_apply]
    split
    · next here => rw [here]; exact consistent.fileMeta_fh f
    · exact consistent.slots i
  have same : (s.resized f offset).fileMeta f = { s.fileMeta f with size := offset }.sealed := by
    rw [fileMeta, resized_fileMetas]
    exact Function.update_self _ _ _
  refine consistent.replace bound resized_sameLayout rfl ?_ slots rfl rfl rfl ?_ consistent.cleanFbhs ?_
  · exact consistent.others bound (Function.update_eq_self f _).symm resized_fileMetas
      (Function.update_eq_self b _).symm (found.foreign consistent bound)
  · intro i free
    rw [resized_fileMetas, Function.update_of_ne (consistent.metaSlot_not_free bound free).symm]
    exact consistent.cleanFhs i free
  · cases found with
    | old size entries room =>
      cases consistent.rep f bound with
      | empty zero => omega
      | backed c _ entries' backs =>
        obtain rfl : c = b := by simpa using entries'.symm.trans entries
        have covers := blocksNeeded_covers grows.le backs.covers
        rw [none, Nat.add_zero] at covers
        refine .backed c (by rw [same]; exact Nat.zero_lt_of_lt grows) entries ?_
        rw [same]
        exact { backs with covers := covers }

omit [Crc32] in
/-- The trade of a growth: the ids it takes leave the pool for the file block. -/
theorem taken_add_rest (env : Env) (needed : Nat) :
    (((env.order s.blockIdPool).drop needed : List Nat) + (s.takenIds env needed : List Nat) :
      Multiset Nat) = s.blockIdPool := by
  rw [takenIds, add_comm, Multiset.coe_add, List.take_append_drop]
  exact Multiset.coe_eq_coe.mpr (env.order_perm _)

/-- Before the growth, the ids of the file block are those of the file. -/
theorem Found.ids_eq (consistent : Consistent s lost) {b : FileBlockPtr} {isNew : Bool}
    {rest : List FileBlockPtr} (found : Found s f b isNew rest) :
    (s.fileBlockMetas b).ids = s.blockIds f := by
  cases found with
  | new _ entries free =>
    have none := (consistent.cleanFbhs b (by simp [free])).2
    simp [blockIds, attached, entries, FileBlockMeta.ids, none]
  | old _ entries _ => simp [blockIds, attached, entries]

omit [Crc32] in
theorem Found.attached_trade {b : FileBlockPtr} {isNew : Bool} {rest : List FileBlockPtr}
    (found : Found s f b isNew rest) :
    ((rest : List Nat) + ([b] : List Nat) : Multiset Nat) = s.freeFbhs + s.attached f := by
  cases found with
  | new _ entries free =>
    simp only [attached, entries, free, List.map_nil, Multiset.coe_add, Multiset.coe_eq_coe]
    simp
  | old _ entries _ => simp [attached, entries]

/-- What a growth into the file block `b` changes. -/
structure GrownTo (s s' : FileSystem) (env : Env) (f : FilePtr) (offset needed : Nat)
    (b : FileBlockPtr) (slot : FileBlockMeta) (items : Map Nat FileBlockPtr)
    (rest : List FileBlockPtr) : Prop where
  layout : SameLayout s s'
  nextFile : s'.nextFile = s.nextFile
  freeFhs : s'.freeFhs = s.freeFhs
  freeFbhs : s'.freeFbhs = rest
  blockIdPool : s'.blockIdPool = (env.order s.blockIdPool).drop needed
  files : s'.files = Function.update s.files f { s.files f with itemMaps := items }
  fileMetas : s'.fileMetas = Function.update s.fileMetas (s.files f).metaSlot
    { s.fileMeta f with size := offset }.sealed
  fileBlockMetas : s'.fileBlockMetas = Function.update s.fileBlockMetas b slot.sealed

theorem grownTo {needed : Nat} {b : FileBlockPtr} {slot : FileBlockMeta}
    {items : Map Nat FileBlockPtr} {rest : List FileBlockPtr} :
    GrownTo s ({ s with freeFbhs := rest }.grown env f offset needed b slot items) env f offset
      needed b slot items rest where
  layout := { superMeta := rfl, maxBlockNum := rfl, diskSize := grown_sameLayout.diskSize,
              parentFiles := rfl }
  nextFile := rfl
  freeFhs := rfl
  freeFbhs := rfl
  blockIdPool := rfl
  files := rfl
  fileMetas := by rw [grown_fileMetas]; rfl
  fileBlockMetas := grown_fileBlockMetas

namespace GrownTo
variable {s' : FileSystem} {needed : Nat} {b : FileBlockPtr} {slot : FileBlockMeta}
  {items : Map Nat FileBlockPtr} {rest : List FileBlockPtr}
  (grown : GrownTo s s' env f offset needed b slot items rest)
include grown

theorem file : s'.files f = { s.files f with itemMaps := items } := by
  rw [grown.files, Function.update_self]

theorem fileMeta_eq : s'.fileMeta f = { s.fileMeta f with size := offset }.sealed := by
  rw [fileMeta, grown.file, grown.fileMetas]
  exact Function.update_self _ _ _

theorem fileBlock : s'.fileBlockMetas b = slot.sealed := by
  rw [grown.fileBlockMetas, Function.update_self]

theorem attached_eq (entries : items.entries = [⟨0, b⟩]) : s'.attached f = [b] := by
  rw [attached, grown.file, entries]
  rfl

theorem blockIds_eq (entries : items.entries = [⟨0, b⟩]) : s'.blockIds f = slot.ids := by
  rw [blockIds, grown.attached_eq entries, List.flatMap_singleton, grown.fileBlock,
    FileBlockMeta.ids_sealed]

end GrownTo

theorem Consistent.grown (consistent : Consistent s lost) (bound : f < s.nextFile)
    {s' : FileSystem} {needed : Nat} {b : FileBlockPtr} {isNew : Bool} {rest : List FileBlockPtr}
    {slot : FileBlockMeta} {items : Map Nat FileBlockPtr} (found : Found s f b isNew rest)
    (grown : GrownTo s s' env f offset needed b slot items rest)
    (entries : items.entries = [⟨0, b⟩])
    (ids : slot.ids = (s.fileBlockMetas b).ids ++ s.takenIds env needed)
    (backs : Backs slot.sealed { s.fileMeta f with size := offset }.sealed) (grows : 0 < offset) :
    Consistent s' lost := by
  have slots (i : Nat) : (s'.fileMetas i).fh = i := by
    rw [grown.fileMetas, Function.update_apply]
    split
    · next here => rw [here]; exact consistent.fileMeta_fh f
    · exact consistent.slots i
  refine consistent.replace bound grown.layout grown.nextFile
    (consistent.others bound grown.files grown.fileMetas grown.fileBlockMetas
      (found.foreign consistent bound)) slots
    (by rw [grown.freeFhs, grown.file]) ?_ ?_ ?_ ?_ ?_
  · rw [grown.freeFbhs, grown.attached_eq entries, found.attached_trade]
  · rw [grown.blockIdPool, grown.blockIds_eq entries, ids, found.ids_eq consistent,
      ← Multiset.coe_add, add_comm (s.blockIds f : Multiset Nat), ← add_assoc, taken_add_rest]
  · intro i member
    rw [grown.freeFhs] at member
    rw [grown.fileMetas, Function.update_of_ne (consistent.metaSlot_not_free bound member).symm]
    exact consistent.cleanFhs i member
  · intro c member
    rw [grown.freeFbhs] at member
    have distinct : c ≠ b := by
      rintro rfl
      have nodup := consistent.fileBlocks.free_nodup (Multiset.nodup_range _)
      cases found with
      | new _ _ list =>
        rw [list, Multiset.coe_nodup, List.nodup_cons] at nodup
        exact nodup.1 member
      | old _ entries _ =>
        exact consistent.attached_not_free bound (by simp [attached, entries]) member
    rw [grown.fileBlockMetas, Function.update_of_ne distinct]
    refine consistent.cleanFbhs c ?_
    cases found with
    | new _ _ list => simp [list, member]
    | old => exact member
  · refine .backed b (by rw [grown.fileMeta_eq]; exact grows) (by rw [grown.file]; exact entries) ?_
    rw [grown.fileBlock, grown.fileMeta_eq]
    exact backs

omit [Crc32] in
/-- The file block found, once prepared, holds the content the file has so far. -/
theorem Found.backs (rep : s.FileRep f) {b : FileBlockPtr} {isNew : Bool} {rest : List FileBlockPtr}
    (found : Found s f b isNew rest)
    (bounded : (s.fileBlockMetas b).usedBlockNum ≤ kFileBlockCapacity) :
    Backs (s.targetSlot f b isNew) (s.fileMeta f) := by
  cases found with
  | new size _ _ =>
    exact
      { used := rfl
        fileCut := rfl
        fh := rfl
        isTemp := rfl
        covers := by rw [size]; exact Nat.zero_le _
        bounded := bounded }
  | old size entries _ =>
    cases rep with
    | empty zero => omega
    | backed c _ entries' backs =>
      obtain rfl : c = b := by simpa using entries'.symm.trans entries
      exact backs

/-- The condition under which `ExtendFile` fails after it has taken blocks: they do not fit in the
table of the file block. -/
def Overfull (s : FileSystem) (f : FilePtr) (offset : Nat) : Prop :=
  ∃ b isNew rest, Found s f b isNew rest ∧
    blocksNeeded (s.fileMeta f).size offset ≤ s.blockIdPool.length ∧
    kFileBlockCapacity < (s.fileBlockMetas b).usedBlockNum + blocksNeeded (s.fileMeta f).size offset

/-- A growth that does not fit in the table of its file block loses the ids that are left over, and
the file block itself if it was new. -/
theorem Consistent.overfull (consistent : Consistent s lost) (bound : f < s.nextFile)
    {needed : Nat} {b : FileBlockPtr} {isNew : Bool} {rest : List FileBlockPtr}
    {slot : FileBlockMeta} (found : Found s f b isNew rest)
    (enough : needed ≤ s.blockIdPool.length)
    (overflow : kFileBlockCapacity < (s.fileBlockMetas b).usedBlockNum + needed)
    (same : FileBlockMeta.SameSlot (s.targetSlot f b isNew) slot)
    (ids : slot.ids = (s.fileBlockMetas b).ids ++
      (s.takenIds env needed).take (kFileBlockCapacity - (s.fileBlockMetas b).usedBlockNum)) :
    ∃ lost', lost'.fhs = lost.fhs ∧
      Consistent
        { s with
          freeFbhs := rest
          blockIdPool := (env.order s.blockIdPool).drop needed
          fileBlockMetas := Function.update s.fileBlockMetas b slot } lost' := by
  have others : ∀ g < s.nextFile, g ≠ f → SameFile s
      { s with
        freeFbhs := rest
        blockIdPool := (env.order s.blockIdPool).drop needed
        fileBlockMetas := Function.update s.fileBlockMetas b slot } g :=
    consistent.others bound (Function.update_eq_self f _).symm (Function.update_eq_self _ _).symm rfl
      (found.foreign consistent bound)
  have layout : SameLayout s
      { s with
        freeFbhs := rest
        blockIdPool := (env.order s.blockIdPool).drop needed
        fileBlockMetas := Function.update s.fileBlockMetas b slot } := ⟨rfl, rfl, rfl, rfl⟩
  have taken := taken_add_rest (s := s) env needed
  cases found with
  | new size entries free =>
    have attached : s.attached f = [] := by simp [attached, entries]
    have listed : ((b :: rest : List Nat) : Multiset Nat) = {b} + rest := by simp
    refine ⟨{ lost with fbhs := {b} + lost.fbhs, ids := (s.takenIds env needed : Multiset Nat) +
      lost.ids }, rfl, consistent.replace bound layout rfl others consistent.slots rfl ?_ ?_
      consistent.cleanFhs ?_ (.empty size entries)⟩
    · change ((rest : Multiset Nat) + s.attached f + ({b} + lost.fbhs)) = _
      rw [free, listed, attached, Multiset.coe_nil, add_zero, add_zero, ← add_assoc,
        add_comm (rest : Multiset Nat)]
    · have none : s.blockIds f = [] := by rw [blockIds, attached, List.flatMap_nil]
      have none' : blockIds
          { s with
            freeFbhs := rest
            blockIdPool := (env.order s.blockIdPool).drop needed
            fileBlockMetas := Function.update s.fileBlockMetas b slot } f = [] := by
        rw [blockIds]
        exact (congrArg (List.flatMap _) attached).trans List.flatMap_nil
      rw [none, none', ← taken, Multiset.coe_nil]
      dsimp only
      abel
    · intro c member
      have nodup := consistent.fileBlocks.free_nodup (Multiset.nodup_range _)
      rw [free, Multiset.coe_nodup, List.nodup_cons] at nodup
      have distinct : c ≠ b := fun same => nodup.1 (same ▸ member)
      simp only [Function.update_of_ne distinct]
      exact consistent.cleanFbhs c (by simp [free, member])
  | old size entries room =>
    have attached : s.attached f = [b] := by simp [attached, entries]
    obtain ⟨_, backs⟩ := (consistent.rep f bound).of_entries entries
    have length := congrArg List.length ids
    have count := takenIds_length env enough
    rw [List.length_append, FileBlockMeta.ids_length, FileBlockMeta.ids_length, List.length_take,
      count] at length
    have bounded := backs.bounded
    have idsAfter : blockIds
        { s with
          blockIdPool := (env.order s.blockIdPool).drop needed
          fileBlockMetas := Function.update s.fileBlockMetas b slot } f = slot.ids := by
      rw [blockIds]
      refine (congrArg (List.flatMap _) attached).trans ?_
      simp
    refine ⟨{ lost with ids := ((s.takenIds env needed).drop
      (kFileBlockCapacity - (s.fileBlockMetas b).usedBlockNum) : Multiset Nat) + lost.ids }, rfl,
      consistent.replace bound layout rfl others consistent.slots rfl rfl ?_ consistent.cleanFhs ?_ ?_⟩
    · have split : (s.takenIds env needed : Multiset Nat) =
          (s.takenIds env needed).take (kFileBlockCapacity - (s.fileBlockMetas b).usedBlockNum) +
          (s.takenIds env needed).drop (kFileBlockCapacity - (s.fileBlockMetas b).usedBlockNum) := by
        rw [Multiset.coe_add, List.take_append_drop]
      rw [idsAfter, ids, ← taken, split, ← Found.ids_eq consistent (.old size entries room),
        ← Multiset.coe_add]
      dsimp only
      abel
    · intro c member
      have distinct : c ≠ b := by
        rintro rfl
        exact consistent.attached_not_free bound (by simp [attached]) member
      simp only [Function.update_of_ne distinct]
      exact consistent.cleanFbhs c member
    · refine .backed b size entries ?_
      simp only [Function.update_self]
      have covers : (s.fileMeta f).size ≤ slot.usedBlockNum * kBlockSize :=
        backs.covers.trans (Nat.mul_le_mul_right _ (by omega))
      exact backs.longer same covers (by omega)

/-- A growth leaves all other files alone. -/
theorem Extension.others (consistent : Consistent s lost) (bound : f < s.nextFile)
    {s' : FileSystem} {r : Int} (extension : Extension s env f offset s' r) :
    ∀ g < s.nextFile, g ≠ f → SameFile s s' g := by
  cases extension with
  | refused => exact fun g _ _ => .refl s g
  | returned => exact fun g _ _ => .of_agree rfl rfl fun _ _ => rfl
  | overfull found =>
    exact consistent.others bound (Function.update_eq_self f _).symm (Function.update_eq_self _ _).symm
      rfl (found.foreign consistent bound)
  | @inPlace b _ found =>
    exact consistent.others bound (Function.update_eq_self f _).symm resized_fileMetas
      (Function.update_eq_self b _).symm (found.foreign consistent bound)
  | grown found =>
    exact consistent.others bound grownTo.files grownTo.fileMetas grownTo.fileBlockMetas
      (found.foreign consistent bound)

/-- Growing keeps the accounts; only a growth that overfills its file block loses anything. -/
theorem Extension.consistent (consistent : Consistent s lost) (bound : f < s.nextFile)
    (grows : (s.fileMeta f).size < offset) {s' : FileSystem} {r : Int}
    (extension : Extension s env f offset s' r) :
    ∃ lost', lost'.fhs = lost.fhs ∧ (¬s.Overfull f offset → lost' = lost) ∧
      Consistent s' lost' := by
  have rep := consistent.rep f bound
  cases extension with
  | refused => exact ⟨lost, rfl, fun _ => rfl, consistent⟩
  | @returned b rest found short =>
    cases found with
    | new size entries free =>
      have rotated : ((rest ++ [b] : List Nat) : Multiset Nat) = s.freeFbhs := by
        rw [free, Multiset.coe_eq_coe]
        exact List.perm_append_singleton b rest
      refine ⟨lost, rfl, fun _ => rfl, consistent.untouched ⟨rfl, rfl, rfl, rfl⟩ rfl
        (fun g _ => .of_agree rfl rfl fun _ _ => rfl) consistent.slots rfl ?_ rfl consistent.cleanFhs
        fun c member => consistent.cleanFbhs c ?_⟩
      · exact congrArg (· + lost.fbhs) rotated
      · rw [← Multiset.mem_coe, ← rotated]
        exact member
  | overfull found enough overflow same ids =>
    obtain ⟨lost', fhs, consistent'⟩ := consistent.overfull bound found enough overflow same ids
    exact ⟨lost', fhs, fun fits => absurd ⟨_, _, _, found, enough, overflow⟩ fits, consistent'⟩
  | inPlace found none =>
    exact ⟨lost, rfl, fun _ => rfl, consistent.inPlace bound found grows none⟩
  | @grown b isNew rest slot found needs enough fits same ids =>
    have length := congrArg List.length ids
    rw [List.length_append, FileBlockMeta.ids_length, FileBlockMeta.ids_length,
      takenIds_length env enough] at length
    have before := found.backs rep (by omega)
    have covers := blocksNeeded_covers grows.le before.covers
    rw [targetSlot_usedBlockNum, ← length] at covers
    exact ⟨lost, rfl, fun _ => rfl, consistent.grown bound found grownTo found.items ids
      (before.longer same covers (by omega)).sealed (by omega)⟩

end Preservation

end BlockFs.FileSystem
