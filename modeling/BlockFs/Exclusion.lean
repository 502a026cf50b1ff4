import BlockFs.Runs

namespace BlockFs.FileSystem

/-- The files in `created_fhs_` or `open_files_`. -/
def liveFiles (s : FileSystem) : Finset FilePtr :=
  (s.createdFhs.entries.map (·.2) ++ s.openFiles.entries.map (·.2.file)).toFinset

section Live
variable [Crc32] {s : FileSystem} {lost : Lost} {f : FilePtr}

omit [Crc32] in
theorem exists_lookup {κ ν : Type} [DecidableEq κ] {m : Map κ ν} {p : ν → Prop} :
    (∃ e ∈ m.entries, p e.2) ↔ ∃ k v, m.lookup k = some v ∧ p v := by
  constructor
  · rintro ⟨⟨k, v⟩, member, holds⟩
    exact ⟨k, v, AList.mem_lookup_iff.mpr member, holds⟩
  · rintro ⟨k, v, found, holds⟩
    exact ⟨⟨k, v⟩, AList.mem_lookup_iff.mp found, holds⟩

omit [Crc32] in
theorem mem_liveFiles :
    f ∈ s.liveFiles ↔
      (∃ x, s.createdFhs.lookup x = some f) ∨ ∃ fd, s.openedFile fd = some f := by
  have registered := exists_lookup (m := s.createdFhs) (p := (· = f))
  have opened := exists_lookup (m := s.openFiles) (p := (·.file = f))
  rw [liveFiles, List.mem_toFinset, List.mem_append, List.mem_map, List.mem_map, registered, opened]
  simp only [exists_eq_right, openedFile, Option.map_eq_some_iff]

omit [Crc32] in
theorem Registered.live_lt (registered : Registered s) (live : f ∈ s.liveFiles) : f < s.nextFile := by
  rcases mem_liveFiles.mp live with ⟨x, entry⟩ | ⟨fd, opened⟩
  · exact registered.live x f entry
  · exact registered.bound (registered.opens fd f opened)

omit [Crc32] in
theorem Registered.mem_live (registered : Registered s) (bound : f < s.nextFile)
    (held : s.attached f ≠ []) : f ∈ s.liveFiles :=
  mem_liveFiles.mpr (.inl ⟨_, registered.held f bound held⟩)

theorem Consistent.maxBlockNum_le (consistent : Consistent s lost) :
    s.maxBlockNum ≤ s.superMeta.currBlockNum := by
  rw [consistent.count, consistent.super]
  exact Nat.mod_le _ _

theorem Consistent.maxBlockNum_eq (consistent : Consistent s lost)
    (counted : s.superMeta.currBlockNum < 2 ^ 32) : s.maxBlockNum = s.superMeta.currBlockNum := by
  rw [consistent.super] at counted ⊢
  rw [consistent.count]
  exact Nat.mod_eq_of_lt counted

end Live

/-- The data blocks of live files: none is listed twice, each is counted, and none is free. -/
structure BlocksExclusive (s : FileSystem) : Prop where
  nodup : ∀ f ∈ s.liveFiles, (s.blockIds f).Nodup
  apart : ∀ f ∈ s.liveFiles, ∀ g ∈ s.liveFiles, f ≠ g → (s.blockIds f).Disjoint (s.blockIds g)
  counted : ∀ f ∈ s.liveFiles, ∀ id ∈ s.blockIds f, id < s.superMeta.currBlockNum
  notFree : ∀ f ∈ s.liveFiles, ∀ id ∈ s.blockIds f, id ∉ s.blockIdPool

/-- In a run whose truncations need no more blocks than 32 bits can count, every data block has at
most one owner. -/
theorem Reachable.blocksExclusive [Crc32] {s : FileSystem} (reach : Reachable NarrowCall s) :
    s.BlocksExclusive := by
  obtain ⟨lost, coherent⟩ := reach.coherent
  have consistent := coherent.consistent
  have bound {f : FilePtr} (live : f ∈ s.liveFiles) := coherent.registered.live_lt live
  exact
    { nodup := fun f hf => consistent.blockIds_nodup (bound hf)
      apart := fun f hf g hg distinct id here there =>
        distinct (consistent.blockIds_unique (bound hf) (bound hg) here there)
      counted := fun f hf id here =>
        (consistent.blockIds_lt (bound hf) here).trans_le consistent.maxBlockNum_le
      notFree := fun f hf id here => consistent.blockIds_not_free (bound hf) here }

theorem Reachable.blocksExclusive_shrunk :
    ∃ s : FileSystem, s.blockIds 0 = [0, 3] ∧ s.BlocksExclusive := by
  let _ := zeroCrc
  obtain ⟨s, reach, ids⟩ := Reachable.exists_run
    [.openFile ['/', 'a'] 0o102, .truncateFd 0 12582912, .truncateFd 0 6291456]
    (fun s => s.blockIds 0 = [0, 3]) (freshDevice_fresh 8 fun _ => 0) steadyEnv_ok isNarrowCall_sound
    (by decide +kernel)
  exact ⟨s, ids, reach.blocksExclusive⟩

/-- A file that grows past `2 ^ 32` blocks gets one block, and the ids it is taken to have when it
is cut to two blocks are twice that one. -/
theorem not_blocksExclusive :
    ∃ s, @Reachable zeroCrc anyCall s ∧ ¬s.BlocksExclusive := by
  let _ := zeroCrc
  obtain ⟨s, reach, ids, live⟩ := Reachable.exists_run
    [.openFile ['/', 'a'] 0o102, .truncateFd 0 ((2 ^ 32 + 1) * 4194304), .truncateFd 0 (2 * 4194304)]
    (fun s => s.blockIds 0 = [0, 0] ∧ 0 ∈ s.liveFiles) (freshDevice_fresh (2 ^ 32 + 1) fun _ => 0)
    steadyEnv_ok anyCall_sound (by decide +kernel)
  refine ⟨s, reach, fun exclusive => ?_⟩
  have twice := exclusive.nodup 0 live
  rw [ids] at twice
  simp at twice

/-- Nothing has leaked: every block and every file block is free or in use by a live file, and the
free blocks and the used ones add up to what the device has. -/
structure NothingLeaked (s : FileSystem) : Prop where
  blocks : ∀ id < s.superMeta.currBlockNum,
    id ∈ s.blockIdPool ∨ ∃ f ∈ s.liveFiles, id ∈ s.blockIds f
  fileBlocks : ∀ b < s.superMeta.maxFileBlockNum, b ∈ s.freeFbhs ∨ ∃ f ∈ s.liveFiles, b ∈ s.attached f
  balance : s.blockIdPool.length +
      ∑ f ∈ s.liveFiles, ((s.attached f).map fun b => (s.fileBlockMetas b).usedBlockNum).sum =
    s.superMeta.currBlockNum

theorem blockIds_length (s : FileSystem) (f : FilePtr) :
    (s.blockIds f).length = ((s.attached f).map fun b => (s.fileBlockMetas b).usedBlockNum).sum := by
  simp only [blockIds, List.length_flatMap, FileBlockMeta.ids_length]

/-- A run on a device whose blocks 32 bits can count leaks nothing as long as no truncation
overfills a file block, or gives up a shrink with a file block in hand. -/
theorem Reachable.nothingLeaked [Crc32] {s : FileSystem}
    (reach : Reachable (fun s op => s.NarrowCall op ∧ ¬s.LeaksCall op) s)
    (counted : s.superMeta.currBlockNum < 2 ^ 32) : s.NothingLeaked := by
  obtain ⟨lost, coherent, noFbhs, noIds⟩ := reach.tight
  have consistent := coherent.consistent
  have registered := coherent.registered
  have total := consistent.maxBlockNum_eq counted
  have blocks := consistent.blocks
  have fileBlocks := consistent.fileBlocks
  rw [noIds] at blocks
  rw [noFbhs] at fileBlocks
  have live {f : FilePtr} (owner : f ∈ Finset.range s.nextFile) {b : FileBlockPtr}
      (member : b ∈ s.attached f) : f ∈ s.liveFiles :=
    registered.mem_live (Finset.mem_range.mp owner) (List.ne_nil_of_mem member)
  refine ⟨fun id bound => ?_, fun b bound => ?_, ?_⟩
  · rcases blocks.free_or_held (Multiset.mem_range.mpr (total ▸ bound)) with free | ⟨f, owner, held⟩
    · exact .inl free
    · obtain ⟨b, member, _⟩ := List.mem_flatMap.mp held
      exact .inr ⟨f, live owner member, held⟩
  · have known : s.superMeta.maxFileBlockNum = 133554 := by
      rw [consistent.super]
      exact SuperBlock.formatAllMeta_maxFileBlockNum _
    rcases fileBlocks.free_or_held (Multiset.mem_range.mpr (known ▸ bound)) with
      free | ⟨f, owner, held⟩
    · exact .inl free
    · exact .inr ⟨f, live owner held, held⟩
  · have counts := blocks.card_eq
    rw [Multiset.card_range, total] at counts
    rw [← counts, Multiset.coe_card]
    congr 1
    have part : s.liveFiles ⊆ Finset.range s.nextFile := fun f member =>
      Finset.mem_range.mpr (registered.live_lt member)
    rw [← Finset.sum_subset part fun f owner dead => ?_]
    · refine Finset.sum_congr rfl fun f _ => ?_
      rw [Multiset.coe_card, blockIds_length]
    · have none : s.attached f = [] := by
        by_contra held
        exact dead (registered.mem_live (Finset.mem_range.mp owner) held)
      rw [blockIds, none]
      rfl

instance (s : FileSystem) (f : FilePtr) (n : Nat) : Decidable (s.LosesFileBlock f n) :=
  inferInstanceAs (Decidable (_ ∧ _))

/-- A check that a call does not leak: the file block a growth works on has room for all the blocks
it needs, and a shrink that takes a file block can go on. -/
def isTightCall (s : FileSystem) (op : Op) : Bool :=
  match s.ftruncateCall op with
  | none => true
  | some (f, n) =>
    decide (s.Narrow f n ∧
      (∀ b ∈ s.attached f ++ s.freeFbhs.take 1,
        (s.fileBlockMetas b).usedBlockNum + blocksNeeded (s.fileMeta f).size n ≤ kFileBlockCapacity) ∧
      ¬s.LosesFileBlock f n)

/-- The file block a growth works on is one the file has or the first free one. -/
theorem Found.mem_candidates {s : FileSystem} {f : FilePtr} {b : FileBlockPtr} {isNew : Bool} {rest : List Nat}
    (found : s.Found f b isNew rest) : b ∈ s.attached f ++ s.freeFbhs.take 1 := by
  cases found with
  | new _ _ free => simp [free]
  | old _ entries _ => simp [attached, entries]

theorem isTightCall_sound (s : FileSystem) (op : Op) (passed : s.isTightCall op = true) :
    s.NarrowCall op ∧ ¬s.LeaksCall op := by
  unfold isTightCall at passed
  cases call : s.ftruncateCall op with
  | none => exact ⟨fun f n made => by simp [call] at made, fun ⟨f, n, made, _⟩ => by simp [call] at made⟩
  | some target =>
    obtain ⟨f, n⟩ := target
    rw [call] at passed
    obtain ⟨narrow, room, goes⟩ := of_decide_eq_true passed
    refine ⟨fun g k made => ?_, fun ⟨g, k, made, leaks⟩ => ?_⟩
    · obtain ⟨rfl, rfl⟩ := Prod.mk.inj (Option.some.inj (call.symm.trans made))
      exact narrow
    · obtain ⟨rfl, rfl⟩ := Prod.mk.inj (Option.some.inj (call.symm.trans made))
      rcases leaks with ⟨_, b, isNew, rest, found, _, overflow⟩ | ⟨_, loses⟩
      · have fits := room b found.mem_candidates
        omega
      · exact goes loses

theorem Reachable.nothingLeaked_shrunk :
    ∃ s : FileSystem, s.blockIds 0 = [0, 3] ∧ s.NothingLeaked := by
  let _ := zeroCrc
  obtain ⟨s, reach, ids, counted⟩ := Reachable.exists_run
    [.openFile ['/', 'a'] 0o102, .truncateFd 0 12582912, .truncateFd 0 6291456]
    (fun s => s.blockIds 0 = [0, 3] ∧ s.superMeta.currBlockNum < 2 ^ 32)
    (freshDevice_fresh 8 fun _ => 0) steadyEnv_ok isTightCall_sound (by decide +kernel)
  exact ⟨s, ids, reach.nothingLeaked counted⟩

/-- A growth past the 1000 blocks a file block can list fails with all the blocks in hand. -/
theorem not_nothingLeaked :
    ∃ s, @Reachable zeroCrc anyCall s ∧ s.superMeta.currBlockNum = 1001 ∧ ¬s.NothingLeaked := by
  let _ := zeroCrc
  obtain ⟨s, reach, count, pool, bare⟩ := Reachable.exists_run
    [.openFile ['/', 'a'] 0o102, .truncateFd 0 (1001 * 4194304)]
    (fun s => s.superMeta.currBlockNum = 1001 ∧ s.blockIdPool = [] ∧
      ∀ f ∈ s.liveFiles, s.attached f = [])
    (freshDevice_fresh 1001 fun _ => 0) steadyEnv_ok anyCall_sound (by decide +kernel)
  refine ⟨s, reach, count, fun tight => ?_⟩
  have balance := tight.balance
  rw [pool, count, Finset.sum_eq_zero fun f live => by rw [bare f live]; rfl] at balance
  simp at balance

end BlockFs.FileSystem
