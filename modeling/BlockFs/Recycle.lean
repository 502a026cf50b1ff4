import BlockFs.Extend

namespace BlockFs.FileSystem

/-- The pool after ids were put back one by one. -/
def refilled (pool ids : List Nat) : List Nat := ids.foldl (fun pool id => pool.insert id) pool

theorem putFreeBlockIds_eq (s : FileSystem) (ids : List Nat) :
    ids.foldl putFreeBlockIdLock s = { s with blockIdPool := refilled s.blockIdPool ids } := by
  induction ids generalizing s with
  | nil => rfl
  | cons id ids ih =>
    rw [List.foldl_cons, ih]
    rfl

/-- Ids that are not free yet enlarge the pool by exactly themselves. -/
theorem refilled_perm {pool ids : List Nat} (nodup : ids.Nodup) (fresh : ∀ id ∈ ids, id ∉ pool) :
    (refilled pool ids : Multiset Nat) = ids + pool := by
  induction ids generalizing pool with
  | nil => simp [refilled]
  | cons id ids ih =>
    obtain ⟨head, tail⟩ := List.nodup_cons.mp nodup
    have absent : id ∉ pool := fresh id (by simp)
    have rest : ∀ j ∈ ids, j ∉ pool.insert id := by
      intro j member inserted
      rcases List.mem_insert_iff.mp inserted with same | old
      · exact head (same ▸ member)
      · exact fresh j (by simp [member]) old
    have step : refilled pool (id :: ids) = refilled (pool.insert id) ids := rfl
    rw [step, ih tail rest, List.insert_of_not_mem absent, ← Multiset.cons_coe, ← Multiset.cons_coe,
      Multiset.cons_add, Multiset.add_cons]

theorem recycleIds_full (blockNum : Nat) (ids : List Nat) (s : FileSystem) :
    (recycleIds blockNum ids blockNum s).1 = ids.foldl putFreeBlockIdLock s := by
  induction ids generalizing s with
  | nil => rfl
  | cons id ids ih =>
    rw [recycleIds, if_neg (lt_irrefl _), ih]
    rfl

/-- The ids beyond the first `blockNum` go back to the pool. -/
theorem recycleIds_eq {blockNum count : Nat} (ids : List Nat) (s : FileSystem)
    (short : count ≤ blockNum) :
    (recycleIds blockNum ids count s).1 =
      (ids.drop (blockNum - count)).foldl putFreeBlockIdLock s := by
  induction ids generalizing count with
  | nil => simp [recycleIds]
  | cons id ids ih =>
    rw [recycleIds]
    by_cases more : count < blockNum
    · have step : blockNum - count = blockNum - (count + 1) + 1 := by omega
      rw [if_pos more, ih more, step, List.drop_succ_cons]
    · have same : count = blockNum := by omega
      rw [if_neg more, same, Nat.sub_self, recycleIds_full]
      rfl

section Recycling
variable [Crc32] {s : FileSystem} {env : Env}

/-- The state in which a file block has been cleared, written and put on the free list. -/
def releasedFileBlock (s : FileSystem) (b : FileBlockPtr) : FileSystem :=
  let cleared := (s.setFileBlockMeta b (s.fileBlockMetas b).clear).saveFileBlock b
  { cleared with freeFbhs := s.freeFbhs ++ [b] }

theorem releaseMyself_ok (ok : env.IoOk) (s : FileSystem) (b : FileBlockPtr) :
    s.releaseMyself env b = (s.releasedFileBlock b, true) := by
  rw [releaseMyself, writeFileBlockMeta_ok ok]
  rfl

/-- A parent slot `o` has been recycled: the ids of its file block `b` beyond the inherited ones are
free again, then the file block, then the slot. -/
def recycled (s : FileSystem) (o : Nat) (b : FileBlockPtr) (offset : Nat) : FileSystem :=
  let s := { s with
    parentFiles := s.parentFiles.erase o
    blockIdPool := refilled s.blockIdPool
      ((s.fileBlockMetas b).ids.drop (offset / kBlockSize % 2 ^ 32)) }
  let s := ((s.releasedFileBlock b).modifyFileMeta o FileMeta.clear).saveFile o
  { s with freeFhs := s.freeFhs ++ [o] }

theorem removeParentFile_recycled (ok : env.IoOk) {o : Nat} {parent : ParentFile}
    {b : FileBlockPtr} (fh : (s.fileMetas o).fh = o) (found : s.parentFiles.lookup o = some parent)
    (slot : parent.metaSlot = o) (entries : parent.fbMaps.entries = [⟨0, b⟩]) :
    s.removeParentFile env o = .ok (s.recycled o b parent.offset, true) := by
  have lookup : parent.fbMaps.lookup 0 = some b := by
    rw [AList.lookup, entries]
    rfl
  generalize next : parent.offset / kBlockSize % 2 ^ 32 = blockNum
  have ids := recycleIds_eq (s.fileBlockMetas b).ids
    { s with parentFiles := s.parentFiles.erase o } (Nat.zero_le blockNum)
  rw [Nat.sub_zero, putFreeBlockIds_eq] at ids
  rw [removeParentFile, found]
  simp only [recycle, next, entries, List.length_singleton, recycleFileBlocks, lookup]
  generalize outcome : recycleIds blockNum (s.fileBlockMetas b).ids 0
    { s with parentFiles := s.parentFiles.erase o } = result at ids ⊢
  obtain ⟨t, count⟩ := result
  dsimp only at ids ⊢
  subst ids
  subst next
  have clearedFh (t : FileSystem) (table : t.fileMetas = s.fileMetas) :
      ((t.modifyFileMeta o FileMeta.clear).fileMetas o).fh = o := by
    simp [table, FileMeta.clear, fh]
  have savedFh (t : FileSystem) (table : t.fileMetas = s.fileMetas) :
      (((t.modifyFileMeta o FileMeta.clear).saveFile o).fileMetas o).fh = o := by
    simp [saveFile, persist, table, FileMeta.clear, fh]
  rw [releaseMyself_ok ok, slot, Except.ok_bind]
  dsimp only
  generalize released : releasedFileBlock _ b = t
  have table : t.fileMetas = s.fileMetas := by rw [← released]; rfl
  rw [clearedFh t table, writeFileMeta_ok ok]
  dsimp only
  rw [savedFh t table, ← released]
  rfl

end Recycling

end BlockFs.FileSystem
