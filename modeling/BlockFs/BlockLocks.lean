import BlockFs.Assertions
import BlockFs.FreeLists

namespace BlockFs

/-- An entry of a table that `planTransfer` looks up. -/
theorem planBlocks_blockId {super : SuperBlockMeta} {m : FileBlockMeta}
    {size fuel curr index inBlock : Nat} {plan : List BlockData}
    (planned : planBlocks super m size fuel curr index inBlock = .ok plan) :
    ∀ block ∈ plan, ∃ i, block.blockId = m.blockId i := by
  induction fuel generalizing curr index inBlock plan with
  | zero => simp [planBlocks] at planned
  | succ fuel ih =>
    unfold planBlocks at planned
    obtain ⟨id, entry, planned⟩ := Except.bind_eq_ok.mp planned
    have here : id = m.blockId index := by
      unfold FileBlockMeta.getBlockId at entry
      split at entry
      · exact (Except.ok.inj entry).symm
      · simp at entry
    dsimp only at planned
    generalize (if 0 < inBlock then min size (kBlockSize - inBlock) else min (size - curr) kBlockSize) = moved
      at planned
    split at planned
    · obtain rfl := Except.ok.inj planned
      intro block member
      rw [List.mem_singleton.mp member]
      exact ⟨index, here⟩
    · obtain ⟨rest, later, planned⟩ := Except.bind_eq_ok.mp planned
      obtain rfl := Except.ok.inj planned
      intro block member
      rcases List.mem_cons.mp member with rfl | there
      · exact ⟨index, here⟩
      · exact ih later block there

namespace FileSystem

/-- The block ids in the pool and in the tables of file blocks, stale entries included; 0 is what a
cleared table holds. -/
def known (s : FileSystem) : Set Nat :=
  {id | id = 0 ∨ id ∈ s.blockIdPool ∨ ∃ b i, (s.fileBlockMetas b).blockId i = id}

/-- Where the known block ids are. -/
def numbers (s : FileSystem) : List Nat × (FileBlockPtr → Nat → Nat) :=
  (s.blockIdPool, fun b => (s.fileBlockMetas b).blockId)

section Known
variable {s s' : FileSystem} {b : FileBlockPtr} {id : Nat}

theorem known_congr (same : s'.numbers = s.numbers) : s'.known = s.known := by
  have pool : s'.blockIdPool = s.blockIdPool := congrArg Prod.fst same
  have tables (b : FileBlockPtr) : (s'.fileBlockMetas b).blockId = (s.fileBlockMetas b).blockId :=
    congrFun (congrArg Prod.snd same) b
  simp only [known, pool, tables]

theorem zero_known (s : FileSystem) : 0 ∈ s.known := .inl rfl

theorem pool_known (member : id ∈ s.blockIdPool) : id ∈ s.known := .inr (.inl member)

theorem table_known (s : FileSystem) (b : FileBlockPtr) (i : Nat) :
    (s.fileBlockMetas b).blockId i ∈ s.known := .inr (.inr ⟨b, i, rfl⟩)

theorem ids_known (member : id ∈ (s.fileBlockMetas b).ids) : id ∈ s.known := by
  obtain ⟨i, _, rfl⟩ := FileBlockMeta.mem_ids.mp member
  exact table_known s b i

theorem setFileBlockMeta_known {m : FileBlockMeta} {ids : Set Nat} (within : s.known ⊆ ids)
    (entries : ∀ i, m.blockId i ∈ ids) : (s.setFileBlockMeta b m).known ⊆ ids := by
  rintro id (rfl | member | ⟨c, i, rfl⟩)
  · exact within (zero_known s)
  · exact within (pool_known member)
  · rw [setFileBlockMeta]
    dsimp only
    by_cases here : c = b
    · rw [here, Function.update_self]
      exact entries i
    · rw [Function.update_of_ne here]
      exact within (table_known s c i)

theorem blockIdPool_known {pool : List Nat} (entries : ∀ id ∈ pool, id ∈ s.known) :
    { s with blockIdPool := pool }.known ⊆ s.known := by
  rintro id (rfl | member | ⟨c, i, rfl⟩)
  · exact zero_known s
  · exact entries id member
  · exact table_known s c i

theorem putFreeBlockIdLock_known (known : id ∈ s.known) : (s.putFreeBlockIdLock id).known ⊆ s.known :=
  blockIdPool_known fun x member => by
    rcases List.mem_insert_iff.mp member with rfl | there
    · exact known
    · exact pool_known there

theorem putFreeBlockIdLock_knows (x : Nat) (known : id ∈ s.known) : id ∈ (s.putFreeBlockIdLock x).known := by
  rcases known with rfl | member | ⟨c, i, rfl⟩
  · exact zero_known _
  · exact pool_known (List.mem_insert_of_mem member)
  · exact .inr (.inr ⟨c, i, rfl⟩)

theorem putFreeBlockIdsLock_known {ids : List Nat} (known : ∀ id ∈ ids, id ∈ s.known) :
    (s.putFreeBlockIdsLock ids).known ⊆ s.known := by
  induction ids generalizing s with
  | nil => exact subset_rfl
  | cons id ids ih =>
    have first := putFreeBlockIdLock_known (known id List.mem_cons_self)
    have rest (x : Nat) (member : x ∈ ids) : x ∈ (s.putFreeBlockIdLock id).known :=
      putFreeBlockIdLock_knows id (known x (List.mem_cons_of_mem id member))
    exact (ih rest).trans first

theorem getFreeBlockIdLock_known {env : Env} {n : Nat} {ids : List Nat}
    (taken : s.getFreeBlockIdLock env n = some (s', ids)) :
    s'.known ⊆ s.known ∧ ∀ id ∈ ids, id ∈ s.known := by
  unfold getFreeBlockIdLock at taken
  split at taken
  · simp at taken
  · obtain ⟨rfl, rfl⟩ := Prod.mk.inj (Option.some.inj taken)
    have pooled {id : Nat} (member : id ∈ env.order s.blockIdPool) : id ∈ s.known :=
      pool_known ((env.order_perm s.blockIdPool).mem_iff.mp member)
    exact ⟨blockIdPool_known fun id member => pooled (List.mem_of_mem_drop member),
      fun id member => pooled (List.mem_of_mem_take member)⟩

theorem recycleIds_known {blockNum index : Nat} {ids : List Nat} (known : ∀ id ∈ ids, id ∈ s.known) :
    (recycleIds blockNum ids index s).1.known ⊆ s.known := by
  induction ids generalizing s index with
  | nil => exact subset_rfl
  | cons id ids ih =>
    unfold recycleIds
    split
    · exact ih fun x member => known x (List.mem_cons_of_mem id member)
    · have first := putFreeBlockIdLock_known (known id List.mem_cons_self)
      have rest (x : Nat) (member : x ∈ ids) : x ∈ (s.putFreeBlockIdLock id).known :=
        putFreeBlockIdLock_knows id (known x (List.mem_cons_of_mem id member))
      exact (ih rest).trans first

/-- The entries of a table that new ids are appended to. -/
theorem addBlockId_entries {m : FileBlockMeta} {ids : Set Nat} (entries : ∀ i, m.blockId i ∈ ids)
    (new : id ∈ ids) (i : Nat) : (m.addBlockId id).blockId i ∈ ids := by
  unfold FileBlockMeta.addBlockId
  split
  · exact entries i
  · dsimp only
    by_cases here : i = m.usedBlockNum
    · rw [here, Function.update_self]
      exact new
    · rw [Function.update_of_ne here]
      exact entries i

theorem fill_entries {m : FileBlockMeta} {ids : Set Nat} {taken : List Nat}
    (entries : ∀ i, m.blockId i ∈ ids) (new : ∀ id ∈ taken, id ∈ ids) (i : Nat) :
    (m.fill taken).1.blockId i ∈ ids := by
  induction taken generalizing m with
  | nil => exact entries i
  | cons id taken ih =>
    unfold FileBlockMeta.fill
    split
    · exact entries i
    · exact ih (addBlockId_entries entries (new id List.mem_cons_self))
        fun x member => new x (List.mem_cons_of_mem id member)

theorem inherit_entries {m old : FileBlockMeta} {ids : Set Nat} {blockNum fuel j copied : Nat}
    (entries : ∀ i, m.blockId i ∈ ids) (inherited : ∀ i, old.blockId i ∈ ids) (i : Nat) :
    (old.inherit blockNum fuel j copied m).blockId i ∈ ids := by
  induction fuel generalizing m j copied with
  | zero => exact entries i
  | succ fuel ih =>
    have added := addBlockId_entries entries (inherited j)
    unfold FileBlockMeta.inherit
    dsimp only
    split
    · exact added i
    · exact ih added

end Known

section Frames
variable [Crc32] (s : FileSystem) (env : Env) (f : FilePtr)

omit [Crc32] in
theorem pwriteDirect_numbers (w : MetaWrite) : (s.pwriteDirect env w).1.numbers = s.numbers := by
  unfold pwriteDirect
  split <;> rfl

theorem writeFileMeta_numbers (fh : Nat) : (s.writeFileMeta env fh).1.numbers = s.numbers :=
  (pwriteDirect_numbers _ env _).trans rfl

theorem writeMeta_numbers : (s.writeMeta env f).1.numbers = s.numbers := writeFileMeta_numbers s env _

theorem writeFileBlockMeta_numbers (b : FileBlockPtr) :
    (s.writeFileBlockMeta env b).1.numbers = s.numbers := by
  have tables : (fun c => (Function.update s.fileBlockMetas b (s.fileBlockMetas b).sealed c).blockId) =
      fun c => (s.fileBlockMetas c).blockId := by
    funext c
    exact view_update s.fileBlockMetas b c (·.blockId) rfl
  exact (pwriteDirect_numbers _ env _).trans (congrArg (s.blockIdPool, ·) tables)

omit [Crc32] in
theorem getFileBlockLock_numbers {s' : FileSystem} {b : Option FileBlockPtr}
    (taken : s.getFileBlockLock = .ok (s', b)) : s'.numbers = s.numbers := by
  unfold getFileBlockLock at taken
  split at taken
  · obtain ⟨rfl, _⟩ := Prod.mk.inj (Except.ok.inj taken)
    rfl
  split at taken
  · simp at taken
  split at taken
  · simp at taken
  · obtain ⟨rfl, _⟩ := Prod.mk.inj (Except.ok.inj taken)
    rfl

omit [Crc32] in
theorem addFileBlockNoLock_numbers (b : FileBlockPtr) :
    (s.addFileBlockNoLock f b).1.numbers = s.numbers := by
  unfold addFileBlockNoLock
  split <;> rfl

omit [Crc32] in
theorem copyLoop_numbers (src dst fuel offset len : Nat) :
    (s.copyLoop src dst fuel offset len).1.numbers = s.numbers := by
  induction fuel generalizing s offset len with
  | zero => rfl
  | succ fuel ih =>
    have stored (d : Disk) : { s with disk := d }.numbers = s.numbers := rfl
    unfold copyLoop
    grind only

omit [Crc32] in
theorem copyData_numbers (src dst offset len : Nat) :
    (s.copyData env src dst offset len).1.numbers = s.numbers := by
  have kept := copyLoop_numbers s src dst (len / (4 * M) + 1) offset len
  unfold copyData
  split <;> next t same =>
    rw [same] at kept
    exact kept

omit [Crc32] in
theorem addChildFile_numbers (d : DirectoryPtr) : (s.addChildFile d f).1.numbers = s.numbers := by
  unfold addChildFile
  split <;> rfl

omit [Crc32] in
theorem removeFileFromoDirectory_numbers (d : DirectoryPtr) :
    (s.removeFileFromoDirectory d f).1.numbers = s.numbers := by
  obtain ⟨done, ⟨result, _⟩ | result⟩ := removeFileFromoDirectory_cases s d f <;> rw [result] <;> rfl

omit [Crc32] in
theorem addFileToDirectory_numbers (d : DirectoryPtr) :
    (s.addFileToDirectory d f).numbers = s.numbers :=
  (rfl : ((s.addChildFile d f).1.addFileNoLock f).numbers = _).trans (addChildFile_numbers s f d)

omit [Crc32] in
theorem shrinkSwitch_numbers (d : DirectoryPtr) (w : Nat) :
    (s.shrinkSwitch d f w).numbers = s.numbers := by
  have left := removeFileFromoDirectory_numbers s f d
  unfold shrinkSwitch
  exact (addFileToDirectory_numbers _ f d).trans left

end Frames

section Truncation
variable [Crc32] {s s' : FileSystem} {env : Env} {f : FilePtr} {r : Int}

theorem releaseMyself_known (b : FileBlockPtr) : (s.releaseMyself env b).1.known ⊆ s.known := by
  have cleared : (s.setFileBlockMeta b (s.fileBlockMetas b).clear).known ⊆ s.known :=
    setFileBlockMeta_known subset_rfl fun _ => zero_known s
  have written := known_congr
    (writeFileBlockMeta_numbers (s.setFileBlockMeta b (s.fileBlockMetas b).clear) env b)
  unfold releaseMyself
  dsimp only
  split <;> next t same =>
    rw [same] at written
    exact written.subset.trans cleared

theorem releaseAll_known (b : FileBlockPtr) : (s.releaseAll env b).1.known ⊆ s.known :=
  (releaseMyself_known b).trans (putFreeBlockIdsLock_known fun _ => ids_known)

theorem recycleFileBlocks_known {fbMaps : Map Nat FileBlockPtr} {blockNum fuel i index : Nat}
    (done : recycleFileBlocks env fbMaps blockNum fuel i index s = .ok s') : s'.known ⊆ s.known := by
  induction fuel generalizing s i index with
  | zero =>
    obtain rfl := Except.ok.inj done
    exact subset_rfl
  | succ fuel ih =>
    unfold recycleFileBlocks at done
    split at done
    · simp at done
    · next b found =>
      have ids := @recycleIds_known s blockNum index _
        fun id (member : id ∈ (s.fileBlockMetas b).ids) => ids_known member
      split at done
      next t index' same =>
        rw [same] at ids
        exact (ih done).trans ((releaseMyself_known b).trans ids)

theorem recycle_known {parent : ParentFile} {b : Bool} (done : s.recycle env parent = .ok (s', b)) :
    s'.known ⊆ s.known := by
  obtain ⟨t, blocks, rest⟩ := Except.bind_eq_ok.mp done
  have freed := recycleFileBlocks_known blocks
  have cleared : (t.modifyFileMeta parent.metaSlot FileMeta.clear).known = t.known := rfl
  generalize t.modifyFileMeta parent.metaSlot FileMeta.clear = u at rest cleared
  have written := known_congr (writeFileMeta_numbers u env (u.fileMetas parent.metaSlot).fh)
  dsimp only at rest
  split at rest <;> next v same =>
    obtain ⟨rfl, _⟩ := Prod.mk.inj (Except.ok.inj rest)
    rw [same] at written
    exact written.subset.trans (cleared.subset.trans freed)

theorem removeParentFile_known {fh : Nat} {b : Bool}
    (done : s.removeParentFile env fh = .ok (s', b)) : s'.known ⊆ s.known := by
  unfold removeParentFile at done
  split at done
  · obtain ⟨rfl, _⟩ := Prod.mk.inj (Except.ok.inj done)
    exact subset_rfl
  · exact (recycle_known done).trans
      (known_congr (rfl : { s with parentFiles := s.parentFiles.erase fh }.numbers = s.numbers)).subset

theorem recycleParentFh_known {fh : Nat} (done : s.recycleParentFh env f fh = .ok (s', r)) :
    s'.known ⊆ s.known := by
  obtain ⟨⟨t, recycled⟩, first, rest⟩ := Except.bind_eq_ok.mp done
  have kept := removeParentFile_known first
  dsimp only at rest
  split at rest
  · obtain ⟨rfl, _⟩ := Prod.mk.inj (Except.ok.inj rest)
    exact kept
  · have written := known_congr (writeMeta_numbers (t.modifyFileMeta (t.files f).metaSlot
      fun m => { m with parentFh := -1, parentSize := 0 }) env f)
    split at rest <;> next u same =>
      obtain ⟨rfl, _⟩ := Prod.mk.inj (Except.ok.inj rest)
      rw [same] at written
      exact written.subset.trans kept

theorem shrinkPersist_known {oldFh : Nat} {fileBlock : Option FileBlockPtr}
    (done : s.shrinkPersist env f oldFh fileBlock = .ok (s', r)) : s'.known ⊆ s.known := by
  have written := known_congr (writeMeta_numbers s env f)
  unfold shrinkPersist at done
  split at done
  · next t same =>
    obtain ⟨rfl, _⟩ := Prod.mk.inj (Except.ok.inj done)
    rw [same] at written
    exact written.subset
  · next t same =>
    rw [same] at written
    split at done
    · next u same' =>
      obtain ⟨rfl, _⟩ := Prod.mk.inj (Except.ok.inj done)
      cases fileBlock with
      | none => simp at same'
      | some b =>
        have block := known_congr (writeFileBlockMeta_numbers t env b)
        rw [show t.writeFileBlockMeta env b = (u, false) from same'] at block
        exact (block.trans written).subset
    · next u same' =>
      have block : u.known = t.known := by
        cases fileBlock with
        | none =>
          obtain rfl := congrArg Prod.fst same'
          rfl
        | some b =>
          have kept := known_congr (writeFileBlockMeta_numbers t env b)
          rw [show t.writeFileBlockMeta env b = (u, true) from same'] at kept
          exact kept
      have old := known_congr (writeFileMeta_numbers u env oldFh)
      split at done
      · next v same'' =>
        obtain ⟨rfl, _⟩ := Prod.mk.inj (Except.ok.inj done)
        rw [same''] at old
        exact (old.trans (block.trans written)).subset
      · next v same'' =>
        rw [same''] at old
        exact (recycleParentFh_known done).trans (old.trans (block.trans written)).subset

theorem shrinkCommit_known {newFh oldSlot offset : Nat} {fileBlock : Option FileBlockPtr}
    (done : s.shrinkCommit env f newFh oldSlot offset fileBlock = .ok (s', r)) : s'.known ⊆ s.known := by
  have marked : (s.modifyFileMeta oldSlot fun m => { m with childFh := (s.fileMetas newFh).fh }).known =
      s.known := rfl
  unfold shrinkCommit at done
  dsimp only at done
  generalize s.modifyFileMeta oldSlot (fun m => { m with childFh := (s.fileMetas newFh).fh }) = t
    at done marked
  split at done
  · obtain ⟨rfl, _⟩ := Prod.mk.inj (Except.ok.inj done)
    exact marked.subset
  · next dir found =>
    have switched := (known_congr (shrinkSwitch_numbers t f dir newFh)).trans marked
    generalize t.shrinkSwitch dir f newFh = u at done switched
    split at done
    · obtain ⟨rfl, _⟩ := Prod.mk.inj (Except.ok.inj done)
      exact switched.subset
    · cases fileBlock with
      | none => exact (shrinkPersist_known done).trans switched.subset
      | some b =>
        have added := known_congr (addFileBlockNoLock_numbers
          { u.modifyFile f fun o => { o with itemMaps := ∅ } with
            parentFiles := u.parentFiles.insert (u.fileMetas oldSlot).fh
              { metaSlot := oldSlot, offset := offset, fbMaps := (u.files f).itemMaps } } f b)
        exact (shrinkPersist_known done).trans (added.trans switched).subset

omit [Crc32] in
theorem shrinkFileBlock_known {newFh offset : Nat} {result : Option (Option FileBlockPtr)}
    (done : s.shrinkFileBlock env f newFh offset = .ok (s', result)) : s'.known ⊆ s.known := by
  unfold shrinkFileBlock at done
  dsimp only at done
  split at done
  · obtain ⟨rfl, _⟩ := Prod.mk.inj (Except.ok.inj done)
    exact subset_rfl
  · obtain ⟨⟨t, taken⟩, first, rest⟩ := Except.bind_eq_ok.mp done
    have kept := known_congr (getFileBlockLock_numbers s first)
    cases taken with
    | none =>
      obtain ⟨rfl, _⟩ := Prod.mk.inj (Except.ok.inj rest)
      exact kept.subset
    | some b =>
      dsimp only at rest
      split at rest
      · simp at rest
      split at rest
      · simp at rest
      next old item cut =>
      -- The child's table takes its entries from the parent's.
      have inherited (m : FileBlockMeta) (table : m.blockId = (t.fileBlockMetas b).blockId) (blockNum : Nat) :
          ∀ i, (if blockNum = 0 then m
            else (t.fileBlockMetas old).inherit blockNum kFileBlockCapacity 0 0 m).blockId i ∈ t.known := by
        have entries (i : Nat) : m.blockId i ∈ t.known := by
          rw [table]
          exact table_known t b i
        intro i
        split
        · exact entries i
        · exact inherit_entries entries (table_known t old) i
      have first := (@setFileBlockMeta_known t b _ _ subset_rfl (inherited { t.fileBlockMetas b with
        used := true, fileCut := (t.fileBlockMetas old).fileCut, fh := (t.fileMetas newFh).fh,
        isTemp := (t.fileMetas newFh).isTemp } rfl (offset / kBlockSize % 2 ^ 32))).trans kept.subset
      generalize (t.setFileBlockMeta b _) = u at rest first
      split at rest
      · obtain ⟨rfl, _⟩ := Prod.mk.inj (Except.ok.inj rest)
        exact first
      split at rest
      · obtain ⟨rfl, _⟩ := Prod.mk.inj (Except.ok.inj rest)
        exact first
      next v ids taken =>
      obtain ⟨drawn, new⟩ := getFreeBlockIdLock_known taken
      have copied := known_congr (copyData_numbers v env
        ((t.fileBlockMetas old).blockId (offset / kBlockSize % 2 ^ 32 % kFileBlockCapacity))
        (ids.headD 0) 0 (offset % kBlockSize))
      split at rest
      · next w same =>
        obtain ⟨rfl, _⟩ := Prod.mk.inj (Except.ok.inj rest)
        rw [same] at copied
        exact copied.subset.trans (drawn.trans first)
      · next w same =>
        obtain ⟨rfl, _⟩ := Prod.mk.inj (Except.ok.inj rest)
        rw [same] at copied
        have within : w.known ⊆ u.known := copied.subset.trans drawn
        have head : ids.headD 0 ∈ u.known := by
          cases ids with
          | nil => exact zero_known u
          | cons id _ => exact new id List.mem_cons_self
        have filled := addBlockId_entries (fun i => within (table_known w b i)) head
        exact (setFileBlockMeta_known within filled).trans first

theorem shrinkFile_known {offset : Nat} (done : s.shrinkFile env f offset = .ok (s', r)) :
    s'.known ⊆ s.known := by
  unfold shrinkFile at done
  rcases newFreeFileMeta_cases s f with ⟨e, refused⟩ | ⟨w, rest, _, _, drawn⟩
  · rw [refused] at done
    obtain ⟨rfl, _⟩ := Prod.mk.inj (Except.ok.inj done)
    exact (known_congr rfl).subset
  · rw [drawn] at done
    obtain ⟨⟨u, fileBlock⟩, blocks, commit⟩ := Except.bind_eq_ok.mp done
    have taken := shrinkFileBlock_known blocks
    have kept : u.known ⊆ s.known := taken.trans (known_congr rfl).subset
    cases fileBlock with
    | none =>
      obtain ⟨rfl, _⟩ := Prod.mk.inj (Except.ok.inj commit)
      exact kept
    | some fileBlock => exact (shrinkCommit_known commit).trans kept

theorem extendBlocks_known (offset needed : Nat) (b : FileBlockPtr) (isNew : Bool) :
    (s.extendBlocks env f offset needed b isNew).1.known ⊆ s.known := by
  have put (t : FileSystem) : (t.putFileBlockLock b).known = t.known := known_congr rfl
  have table (t : FileSystem) (ids : List Nat) (m slot : FileBlockMeta) (full : Bool)
      (drawn : t.known ⊆ s.known ∧ ∀ id ∈ ids, id ∈ s.known)
      (same : m.blockId = (t.fileBlockMetas b).blockId) (filled : m.fill ids = (slot, full)) :
      (t.setFileBlockMeta b slot).known ⊆ s.known := by
    have entries (i : Nat) : m.blockId i ∈ s.known := by
      rw [same]
      exact drawn.1 (table_known t b i)
    refine setFileBlockMeta_known drawn.1 fun i => ?_
    have kept := fill_entries entries drawn.2 i
    rw [filled] at kept
    exact kept
  unfold extendBlocks
  split
  · split
    · exact (put _).subset
    · exact (known_congr rfl).subset
  · next t ids taken =>
    have drawn : t.known ⊆ s.known ∧ ∀ id ∈ ids, id ∈ s.known := by
      split at taken
      · exact getFreeBlockIdLock_known taken
      · obtain ⟨rfl, rfl⟩ := Prod.mk.inj (Option.some.inj taken)
        exact ⟨subset_rfl, by simp⟩
    have fresh (m : FileBlockMeta) : (if isNew then
        { m with used := true, fileCut := 0, fh := (t.fileMeta f).fh, isTemp := (t.fileMeta f).isTemp }
        else m).blockId = m.blockId := by split <;> rfl
    dsimp only
    split
    · next slot filled => exact table t ids _ slot false drawn (fresh _) filled
    · next slot filled =>
      have kept := table t ids _ slot true drawn (fresh _) filled
      generalize t.setFileBlockMeta b slot = u at kept
      split
      · next v same =>
        split at same
        · simp at same
        · have written := known_congr (writeFileBlockMeta_numbers u env b)
          rw [same] at written
          exact written.subset.trans kept
      · next v same =>
        have persisted : v.known ⊆ s.known := by
          split at same
          · obtain ⟨rfl, _⟩ := Prod.mk.inj same
            exact kept
          · have written := known_congr (writeFileBlockMeta_numbers u env b)
            rw [same] at written
            exact written.subset.trans kept
        have attached : (if !ids.isEmpty && isNew then (v.addFileBlockNoLock f b).1 else v).known ⊆
            s.known := by
          split
          · exact (known_congr (addFileBlockNoLock_numbers v f b)).subset.trans persisted
          · exact persisted
        generalize (if !ids.isEmpty && isNew then (v.addFileBlockNoLock f b).1 else v) = w at attached
        have written := known_congr (writeMeta_numbers
          (w.modifyFileMeta (w.files f).metaSlot fun m => { m with size := offset }) env f)
        split
        · next x same' =>
          rw [same'] at written
          exact written.subset.trans attached
        · next x same' =>
          rw [same'] at written
          exact written.subset.trans attached

theorem extendFile_known {offset : Nat} (done : s.extendFile env f offset = .ok (s', r)) :
    s'.known ⊆ s.known := by
  unfold extendFile at done
  dsimp only at done
  split at done
  · obtain ⟨rfl, _⟩ := Prod.mk.inj (Except.ok.inj done)
    exact subset_rfl
  · split at done
    · split at done
      · simp at done
      · obtain ⟨⟨t, block⟩, first, rest⟩ := Except.bind_eq_ok.mp done
        have kept := known_congr (getFileBlockLock_numbers s first)
        cases block with
        | none =>
          obtain ⟨rfl, _⟩ := Prod.mk.inj (Except.ok.inj rest)
          exact kept.subset
        | some b =>
          have extended := @extendBlocks_known _ t env f offset
            (numBlocksNeeded (s.fileMeta f).size offset) b true
          rw [congrArg Prod.fst (Except.ok.inj rest)] at extended
          exact extended.trans kept.subset
    · split at done
      · simp at done
      · split at done
        · obtain ⟨rfl, _⟩ := Prod.mk.inj (Except.ok.inj done)
          exact subset_rfl
        · next b _ =>
          split at done
          · obtain ⟨rfl, _⟩ := Prod.mk.inj (Except.ok.inj done)
            exact subset_rfl
          · have extended := @extendBlocks_known _ s env f offset
              (numBlocksNeeded (s.fileMeta f).size offset) b false
            rw [congrArg Prod.fst (Except.ok.inj done)] at extended
            exact extended

theorem ftruncate_known {offset : Nat} (done : s.ftruncate env f offset = .ok (s', r)) :
    s'.known ⊆ s.known := by
  unfold ftruncate at done
  split at done
  · exact extendFile_known done
  · split at done
    · exact shrinkFile_known done
    · obtain ⟨rfl, _⟩ := Prod.mk.inj (Except.ok.inj done)
      exact subset_rfl

end Truncation

section Files
variable [Crc32] {s s' : FileSystem} {env : Env} {f : FilePtr} {r : Int}

theorem releaseEntries_known (bs : List FileBlockPtr) (s : FileSystem) :
    (releaseEntries env bs s).1.known ⊆ s.known := by
  induction bs generalizing s with
  | nil => exact subset_rfl
  | cons b bs ih =>
    have released := @releaseAll_known _ s env b
    unfold releaseEntries
    split
    · next t same =>
      rw [same] at released
      exact released
    · next t same =>
      rw [same] at released
      exact (ih t).trans released

theorem removeAllFileBlock_known : (s.removeAllFileBlock env f).1.known ⊆ s.known := by
  have released := @releaseEntries_known _ env ((s.files f).itemMaps.entries.map (·.2)) s
  unfold removeAllFileBlock
  split <;> next t same =>
    rw [same] at released
    exact released

theorem release_known : (s.release env f).1.known = s.known :=
  (known_congr (writeMeta_numbers (s.modifyFileMeta (s.files f).metaSlot FileMeta.clear) env f)).trans rfl

/-- The content and the slot of a file go, and it leaves its directory. -/
theorem deletes_known (dir : DirectoryPtr) {t u : FileSystem} {b b' : Bool}
    (emptied : s.removeAllFileBlock env f = (t, b)) (cleared : t.release env f = (u, b')) :
    t.known ⊆ s.known ∧ u.known ⊆ s.known ∧ (u.removeFileFromoDirectory dir f).1.known ⊆ s.known := by
  have first := @removeAllFileBlock_known _ s env f
  rw [emptied] at first
  have second := @release_known _ t env f
  rw [cleared] at second
  have third := known_congr (removeFileFromoDirectory_numbers u f dir)
  exact ⟨first, second.subset.trans first, third.subset.trans (second.subset.trans first)⟩

theorem unlinkFileNolock_known (fh : Nat) : (s.unlinkFileNolock env fh).1.known ⊆ s.known := by
  unfold unlinkFileNolock
  split
  · exact subset_rfl
  · next f found =>
    split
    · exact subset_rfl
    · next dir home =>
      have stamped : (s.modifyFileMeta (s.files f).metaSlot fun m =>
        { m with mtime := env.now, ctime := env.now }).known ⊆ s.known := subset_rfl
      dsimp only
      generalize (s.modifyFileMeta (s.files f).metaSlot fun m =>
        { m with mtime := env.now, ctime := env.now }) = u at stamped
      split
      · exact stamped
      · cases emptied : u.removeAllFileBlock env f with
        | mk v b =>
          cases cleared : v.release env f with
          | mk w b' =>
            obtain ⟨first, second, third⟩ := deletes_known dir emptied cleared
            cases b with
            | false => exact first.trans stamped
            | true =>
              dsimp only
              rw [cleared]
              cases b' with
              | false => exact second.trans stamped
              | true =>
                dsimp only
                cases left : w.removeFileFromoDirectory dir f with
                | mk x b'' =>
                  rw [left] at third
                  cases b'' <;> exact third.trans stamped

theorem unlink_known (path : Name) : (s.unlink env path).1.known ⊆ s.known := by
  unfold unlink
  split
  · exact subset_rfl
  · next e _ =>
    dsimp only
    split
    · exact subset_rfl
    · next dirname name _ =>
      split
      · exact subset_rfl
      · next dir f found =>
        have noted : (s.storeErrno e).known ⊆ s.known := subset_rfl
        generalize s.storeErrno e = u at noted
        split
        · exact noted
        · cases emptied : u.removeAllFileBlock env f with
          | mk v b =>
            cases cleared : v.release env f with
            | mk w b' =>
              obtain ⟨first, second, third⟩ := deletes_known dir emptied cleared
              cases b with
              | false => exact first.trans noted
              | true =>
                dsimp only
                rw [cleared]
                cases b' with
                | false => exact second.trans noted
                | true =>
                  dsimp only
                  cases left : w.removeFileFromoDirectory dir f with
                  | mk x b'' =>
                    rw [left] at third
                    cases b'' <;> exact third.trans noted

theorem createFile_numbers (filename : Name) (tmpfile : Bool) :
    (s.createFile env filename tmpfile).1.numbers = s.numbers := by
  have free (s : FileSystem) (dh : Nat) (nameOf : Nat → Name) (isTemp : Bool) :
      (s.newFreeFile dh nameOf isTemp).1.numbers = s.numbers := by
    unfold newFreeFile
    split
    · rfl
    · split <;> rfl
  have made (s : FileSystem) (dirname filename : Name) (tmpfile : Bool) :
      (s.newFile env dirname filename tmpfile).1.numbers = s.numbers := by
    have stamped (t : FileSystem) (i : Nat) (g : FileMeta → FileMeta) :
        (t.modifyFileMeta i g).numbers = t.numbers := rfl
    have refused (e : Errno) : { s with errno := e }.numbers = s.numbers := rfl
    unfold newFile newFreeTmpFileNolock newFreeFileNolock
    grind only
  have entered (s : FileSystem) (dirname filename : Name) (tmpfile : Bool) :
      (s.createFileIn env dirname filename tmpfile).1.numbers = s.numbers := by
    have added (t : FileSystem) (d : DirectoryPtr) (f : FilePtr) :
        { t.addFileToDirectory d f with errno := 0 }.numbers = t.numbers :=
      addFileToDirectory_numbers t f d
    unfold createFileIn
    grind only [writeMeta_numbers]
  unfold createFile
  split
  · exact entered _ _ _ _
  · split
    · rfl
    · exact entered _ _ _ _

theorem fileRename_numbers (target : Name) : (s.fileRename env f target).1.numbers = s.numbers := by
  have entered (t : FileSystem) (dir : DirectoryPtr) :
      (t.enterRenamed env f dir target).1.numbers = t.numbers := by
    have named (u : FileSystem) (i : Nat) (g : FileMeta → FileMeta) :
        ((u.modifyFileMeta i g).updateTimeStamp f env.now).numbers = u.numbers := rfl
    have listed (u : FileSystem) : (u.addFileNoLock f).numbers = u.numbers := rfl
    unfold enterRenamed
    grind only [addChildFile_numbers, writeMeta_numbers]
  have left (t : FileSystem) (dir : DirectoryPtr) : (t.removeChildFile dir f).1.numbers = t.numbers := by
    unfold removeChildFile
    split <;> rfl
  have gone (t : FileSystem) : (t.removeFileNoLock f).1.numbers = t.numbers := by
    unfold removeFileNoLock
    split
    · rfl
    · dsimp only
      split <;> rfl
  have noted (e : Option Errno) : (s.storeErrno e).numbers = s.numbers := rfl
  unfold fileRename
  grind only

omit [Crc32] in
theorem numbers_of_fileSide (same : s'.fileSide = s.fileSide) : s'.numbers = s.numbers :=
  congrArg (fun side : FileSide => (side.blockIdPool, fun b => (side.fileBlockMetas b).blockId)) same

omit [Crc32] in
theorem numbers_of_beneath (same : s'.beneath = s.beneath) : s'.numbers = s.numbers :=
  congrArg (fun b : Beneath => (b.blockIdPool, fun c => (b.fileBlockMetas c).blockId)) same

/-- No turn brings in a block id. -/
theorem Turn.known (turn : Turn env s s') : s'.known ⊆ s.known := by
  cases turn with
  | surface same => exact (known_congr (numbers_of_beneath same)).subset
  | created path tmpfile => exact (known_congr (createFile_numbers path tmpfile)).subset
  | truncated known result => exact ftruncate_known result
  | stamped => exact subset_rfl
  | discarded => exact unlinkFileNolock_known _
  | unlinked path => exact unlink_known path
  | renamed found target => exact (known_congr (fileRename_numbers target)).subset
  | madeDirectory result =>
    exact (known_congr (numbers_of_fileSide (createDirectory_fileSide s env result))).subset
  | droppedDirectory path =>
    exact (known_congr (numbers_of_fileSide (deleteDirectory_fileSide s env path))).subset
  | movedDirectory source target =>
    exact (known_congr (numbers_of_fileSide (renameDirectory_fileSide s env source target))).subset
  | readDirectory result =>
    exact (known_congr (numbers_of_fileSide (readDirectory_fileSide s env result))).subset

theorem Turns.known (turns : Turns env s s') : s'.known ⊆ s.known := by
  induction turns with
  | refl => exact subset_rfl
  | tail _ turn ih => exact turn.known.trans ih

end Files

section Locks
variable [Crc32] {s s' s₀ : FileSystem} {env : Env} {op : Op}

/-- `ReadData` and `WriteData` ask for the lock of every block in their plan, and every block there
has its own lock in `block_locks_`. -/
def LocksInRange (s : FileSystem) : Prop :=
  ∀ env op m size offset blocks, Transfer s env op m size offset →
    planTransfer s.superMeta m size offset = .ok blocks → ∀ block ∈ blocks, block.blockId < kBlockLockNum

theorem Transfer.known {m : FileBlockMeta} {size offset : Nat}
    (transfer : Transfer s env op m size offset) (i : Nat) : m.blockId i ∈ s.known := by
  cases transfer with
  | pread => exact table_known s _ i
  | read => exact table_known s _ i
  | @pwrite _ _ _ _ _ b t _ _ _ grown =>
    split at grown
    · exact ftruncate_known grown (table_known t b i)
    · obtain ⟨rfl, _⟩ := Prod.mk.inj (Except.ok.inj grown)
      exact table_known s b i

theorem locksInRange_of_known (small : ∀ id ∈ s.known, id < kBlockLockNum) : s.LocksInRange := by
  intro env op m size offset blocks transfer planned block member
  obtain ⟨i, asked⟩ := planBlocks_blockId planned block member
  rw [asked]
  exact small _ (transfer.known i)

theorem FreshlyMounted.known_lt (fresh : FreshlyMounted s) {id : Nat} (known : id ∈ s.known) :
    id = 0 ∨ id < s.maxBlockNum := by
  obtain ⟨d, env, attempts, rfl, _⟩ := fresh.eq_mounted
  rcases known with zero | pooled | ⟨b, i, entry⟩
  · exact .inl zero
  · obtain ⟨_, below⟩ := List.mem_range'_1.mp pooled
    rw [Nat.zero_add] at below
    exact .inr below
  · exact .inl entry.symm

/-- The id the pool gives first becomes the first block of an empty file. -/
theorem Consistent.first_block {lost : Lost} {f : FilePtr} {id : Nat} (consistent : Consistent s lost)
    (ok : env.IoOk) (bound : f < s.nextFile) (empty : (s.fileMeta f).size = 0)
    (free : s.freeFbhs ≠ []) (first : (env.order s.blockIdPool).head? = some id) :
    ∃ t b, s.ftruncate env f 1 = .ok (t, 0) ∧ t.getFileBlock f 0 = some b ∧
      (t.fileBlockMetas b).blockId 0 = id := by
  have large := consistent.large
  have device : s.superMeta.deviceSize = s.disk.size := by
    rw [consistent.super]
    rfl
  have needs : blocksNeeded (s.fileMeta f).size 1 = 1 := by
    rw [empty]
    decide
  have pooled : 1 ≤ s.blockIdPool.length := by
    have same := (env.order_perm s.blockIdPool).length_eq
    cases taken : env.order s.blockIdPool with
    | nil => simp [taken] at first
    | cons x rest =>
      rw [taken, List.length_cons] at same
      omega
  have bare : (s.files f).itemMaps.entries = [] := by
    cases consistent.rep f bound with
    | empty _ entries => exact entries
    | backed _ positive => omega
  obtain ⟨t, r, run, outcome⟩ := @extendFile_cases _ s env f 1 lost consistent ok bound (by omega)
    (.inr (by omega))
  have grown : s.ftruncate env f 1 = .ok (t, r) := by
    rw [ftruncate, if_pos (by omega), run]
  cases outcome with
  | refused cause =>
    rcases cause with beyond | ⟨_, none⟩ | ⟨b, entries, _⟩
    · omega
    · exact absurd none free
    · simp [bare] at entries
  | returned found short => omega
  | @overfull b isNew rest slot found enough overflow =>
    have unused : (s.fileBlockMetas b).usedBlockNum = 0 := by
      cases found with
      | new _ _ free => exact (consistent.cleanFbhs b (by simp [free])).2
      | old positive => omega
    rw [needs, unused] at overflow
    simp [kFileBlockCapacity] at overflow
  | inPlace found none => omega
  | @grown b isNew rest slot found _ enough fits same ids =>
    have entries := found.items
    have done : GrownTo s ({ s with freeFbhs := rest }.grown env f 1
        (blocksNeeded (s.fileMeta f).size 1) b slot
        (if isNew then (s.files f).itemMaps.insert 0 b else (s.files f).itemMaps)) env f 1
      (blocksNeeded (s.fileMeta f).size 1) b slot
      (if isNew then (s.files f).itemMaps.insert 0 b else (s.files f).itemMaps) rest := grownTo
    refine ⟨_, b, grown, ?_, ?_⟩
    · rw [getFileBlock, done.file]
      exact AList.mem_lookup_iff.mpr (by rw [entries]; exact List.mem_singleton_self _)
    · have listed : slot.ids = [id] := by
        obtain ⟨rest, order⟩ := List.head?_eq_some_iff.mp first
        have none : s.blockIds f = [] := by simp [blockIds, attached, bare]
        rw [ids, found.ids_eq consistent, none, needs, takenIds, order]
        rfl
      have single : slot.usedBlockNum = 1 := by
        have length := congrArg List.length listed
        rwa [FileBlockMeta.ids_length] at length
      rw [FileBlockMeta.ids, single] at listed
      rw [done.fileBlock]
      exact List.head_eq_of_cons_eq listed

/-- A pool that gives the id 100000 before all others. -/
def lastFirst (ids : List Nat) : List Nat := if 100000 ∈ ids then 100000 :: ids.erase 100000 else ids

def lastFirstEnv : Env :=
  { steadyEnv with
    order := lastFirst
    order_perm := fun ids => by
      unfold lastFirst
      split
      · next member => exact (List.perm_cons_erase member).symm
      · exact .refl _ }

end Locks

end FileSystem

end BlockFs
