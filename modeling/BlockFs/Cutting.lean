import BlockFs.Growth

namespace BlockFs

/-- `len` bytes at address `src` written over those at `dst`. -/
def copyOver (data : Nat → UInt8) (src dst len : Nat) (x : Nat) : UInt8 :=
  if dst ≤ x ∧ x < dst + len then data (src + (x - dst)) else data x

theorem copyOver_at (data : Nat → UInt8) (src dst : Nat) {len i : Nat} (less : i < len) :
    copyOver data src dst len (dst + i) = data (src + i) := by
  have inside : dst ≤ dst + i ∧ dst + i < dst + len := by omega
  rw [copyOver, if_pos inside, Nat.add_sub_cancel_left]

theorem copyOver_off (data : Nat → UInt8) (src dst len : Nat) {x : Nat}
    (off : x < dst ∨ dst + len ≤ x) : copyOver data src dst len x = data x := by
  have outside : ¬(dst ≤ x ∧ x < dst + len) := by omega
  rw [copyOver, if_neg outside]

namespace FileSystem

/-- What a shrink to `n` bytes leaves of a file: its whole blocks and, where the cut is inside a
block, one from the pool with the bytes in front of the cut. -/
structure CutContent (s s' : FileSystem) (f : FilePtr) (n : Nat) (taken : List Nat) : Prop where
  size : (s'.fileMeta f).size = n
  ids : s'.blockIds f = (s.blockIds f).take (n / kBlockSize) ++ taken
  whole : n % kBlockSize = 0 → taken = []
  cut : n % kBlockSize ≠ 0 → ∃ id ∈ s.blockIdPool, taken = [id] ∧
    ∃ src, (s.blockIds f)[n / kBlockSize]? = some src ∧
      ∀ i < n % kBlockSize, s'.disk.data (s.devOffset id i) = s.disk.data (s.devOffset src i)

/-- What the shrink gives back: the blocks that were not inherited, the file block of a file cut to
nothing, and the slot the file had. -/
structure CutReturns (s s' : FileSystem) (f : FilePtr) (n : Nat) : Prop where
  blocks : s'.blockIdPool.length + blockNum n = s.blockIdPool.length + (s.blockIds f).length
  returned : ∀ id ∈ s.blockIds f, id ∉ s'.blockIds f → id ∈ s'.blockIdPool
  fileBlocks : s'.freeFbhs.length = s.freeFbhs.length + if n = 0 then 1 else 0
  handles : s'.freeFhs.length = s.freeFhs.length
  old : (s.fileMeta f).fh ∈ s'.freeFhs

/-- Another file keeps its slot, its file block and the bytes of its blocks. -/
structure UntouchedFile (s s' : FileSystem) (g : FilePtr) : Prop where
  metaSlot : (s'.files g).metaSlot = (s.files g).metaSlot
  fileMeta : s'.fileMeta g = s.fileMeta g
  attached : s'.attached g = s.attached g
  fileBlocks : ∀ b ∈ s.attached g, s'.fileBlockMetas b = s.fileBlockMetas b
  data : ∀ id ∈ s.blockIds g, ∀ i < kBlockSize,
    s'.disk.data (s.devOffset id i) = s.disk.data (s.devOffset id i)

/-- The accounts of one successful shrink. -/
structure CutExactly (s s' : FileSystem) (f : FilePtr) (n : Nat) : Prop where
  content : ∃ taken, CutContent s s' f n taken
  returns : CutReturns s s' f n
  others : ∀ g ∈ s.liveFiles, g ≠ f → UntouchedFile s s' g

section Cutting
variable [Crc32] {s t : FileSystem} {env : Env} {f : FilePtr} {n : Nat} {lost : Lost}

theorem Consistent.blockSize (consistent : Consistent s lost) : s.superMeta.blockSize = kBlockSize := by
  rw [consistent.super]
  rfl

/-- Blocks lie side by side. -/
theorem Consistent.devOffset_apart (consistent : Consistent s lost) {id id' i len : Nat}
    (distinct : id ≠ id') (less : i < kBlockSize) (short : len ≤ kBlockSize) :
    s.devOffset id i < s.devOffset id' 0 ∨ s.devOffset id' 0 + len ≤ s.devOffset id i := by
  unfold devOffset
  rw [consistent.blockSize]
  rcases Nat.lt_or_gt_of_ne distinct with before | behind
  · have next : kBlockSize * (id + 1) ≤ kBlockSize * id' := Nat.mul_le_mul_left _ before
    rw [Nat.mul_succ] at next
    omega
  · have next : kBlockSize * (id' + 1) ≤ kBlockSize * id := Nat.mul_le_mul_left _ behind
    rw [Nat.mul_succ] at next
    omega

omit [Crc32] in
theorem devOffset_add (s : FileSystem) (id i : Nat) : s.devOffset id i = s.devOffset id 0 + i := by
  unfold devOffset
  omega

theorem Consistent.copied_data (consistent : Consistent s lost) {dst : Nat}
    (bound : dst < s.maxBlockNum) (src : Nat) {len : Nat} (short : len ≤ kBlockSize) :
    (s.copied src dst len).disk.data =
      copyOver s.disk.data (s.devOffset src 0) (s.devOffset dst 0) len := by
  have inside := consistent.devOffset_le bound
  have narrowed := Nat.mod_le (s.devOffset dst 0 + len) (2 ^ 64)
  funext x
  unfold copied Disk.pwriteCache copyOver
  rw [if_neg (by omega)]
  simp only [Nat.zero_add]

/-- The resources the child of a shrinking file takes. -/
structure ChildTakes (s t : FileSystem) (n src : Nat) (fileBlock : Option FileBlockPtr)
    (taken : List Nat) : Prop where
  freeFbhs : s.freeFbhs = fileBlock.toList ++ t.freeFbhs
  count : fileBlock.toList.length = if n = 0 then 0 else 1
  pool : s.blockIdPool.Perm (taken ++ t.blockIdPool)
  taken : (n % kBlockSize = 0 ∧ taken = [] ∧ t.disk.data = s.disk.data) ∨
    (n % kBlockSize ≠ 0 ∧ ∃ id ∈ s.blockIdPool, taken = [id] ∧
      t.disk.data = copyOver s.disk.data (s.devOffset src 0) (s.devOffset id 0) (n % kBlockSize))

theorem ChildBlock.takes (consistent : Consistent s lost) {old : FileBlockPtr} {w : Nat}
    {fileBlock : Option FileBlockPtr} {ids : List Nat}
    (child : ChildBlock s env old w n t fileBlock ids) :
    ChildTakes s t n ((s.fileBlockMetas old).blockId (n / kBlockSize)) fileBlock ids := by
  cases child with
  | unneeded empty =>
    subst empty
    exact ⟨rfl, rfl, .refl _, .inl ⟨rfl, rfl, rfl⟩⟩
  | whole positive even free =>
    exact ⟨free, by simp [positive.ne'], .refl _, .inl ⟨even, rfl, rfl⟩⟩
  | @cut b rest id ids uneven free order =>
    have positive : n ≠ 0 := fun zero => uneven (by rw [zero, Nat.zero_mod])
    have perm := env.order_perm s.blockIdPool
    rw [order] at perm
    have member : id ∈ s.blockIdPool := perm.mem_iff.mp (by simp)
    refine ⟨free, by simp [positive], ?_, .inr ⟨uneven, id, member, rfl, ?_⟩⟩
    · have dropped : ((s.entrusted b rest (s.inherited w old b n)).supplied env b
          ((s.fileBlockMetas old).blockId (n / kBlockSize)) id n).blockIdPool =
          (env.order s.blockIdPool).drop 1 := rfl
      rw [dropped, order]
      exact perm.symm
    · have entrusted := consistent.entrusted free (s.inherited w old b n)
      have copied := entrusted.copied_data (consistent.pool_lt member)
        ((s.fileBlockMetas old).blockId (n / kBlockSize)) (Nat.mod_lt n kBlockSize_pos).le
      exact copied

omit [Crc32] in
theorem blockNum_eq (n : Nat) :
    blockNum n = n / kBlockSize + if n % kBlockSize = 0 then 0 else 1 := by
  unfold blockNum alignUp
  rw [kBlockSize_eq]
  split <;> omega

/-- The net effect of a successful shrink: the resources it moves, the ids the file keeps and the
bytes it copies. -/
structure CutTo (s s' : FileSystem) (f : FilePtr) (n : Nat) (old : FileBlockPtr) (w : Nat)
    (fileBlock : Option FileBlockPtr) (taken : List Nat) : Prop where
  ids : s.blockIds f = (s.fileBlockMetas old).ids
  index : n / kBlockSize < (s.blockIds f).length
  size : (s'.fileMeta f).size = n
  handles : ∃ rest, s.freeFhs = w :: rest ∧ s'.freeFhs = rest ++ [(s.files f).metaSlot]
  fileBlocks : ∃ rest, s.freeFbhs = fileBlock.toList ++ rest ∧ s'.freeFbhs = rest ++ [old]
  count : fileBlock.toList.length = if n = 0 then 0 else 1
  blocks : ∃ rest, s.blockIdPool.Perm (taken ++ rest) ∧
    s'.blockIdPool.Perm ((s.blockIds f).drop (n / kBlockSize) ++ rest)
  listed : s'.blockIds f = (s.blockIds f).take (n / kBlockSize) ++ taken
  taken : (n % kBlockSize = 0 ∧ taken = [] ∧ s'.disk.data = s.disk.data) ∨
    (n % kBlockSize ≠ 0 ∧ ∃ id ∈ s.blockIdPool, taken = [id] ∧ s'.disk.data =
      copyOver s.disk.data (s.devOffset ((s.fileBlockMetas old).blockId (n / kBlockSize)) 0)
        (s.devOffset id 0) (n % kBlockSize))
  fileMetas : ∀ i, i ≠ (s.files f).metaSlot → i ≠ w → s'.fileMetas i = s.fileMetas i

theorem Shrinkage.cutTo (consistent : Consistent s lost) (bound : f < s.nextFile)
    {old : FileBlockPtr} (entries : (s.files f).itemMaps.entries = [⟨0, old⟩])
    (shrinks : n < (s.fileMeta f).size) {s' : FileSystem} {r : Int}
    (shrinkage : Shrinkage s env f n old s' r) (done : r = 0) :
    ∃ w fileBlock taken, CutTo s s' f n old w fileBlock taken := by
  cases shrinkage with
  | noSlot | noFileBlock | noBlock | noDirectory => simp at done
  | @shrunk w rest t fileBlock ids dir free child found =>
    have started := consistent.started free f n
    have same := @Consistent.started_sameFile _ _ f n _ consistent _ _ free _ bound
    obtain ⟨consistent', kept, empty, slot⟩ := child.provided started bound entries
      (by rw [same.size]; exact shrinks)
    have takes := child.takes started
    obtain ⟨pool, rest', blocks, data, state⟩ := child.frame
    have distinct := consistent.metaSlot_not_free bound (show w ∈ s.freeFhs by simp [free])
    have shrunk := shrunkTo (s := t.adopted (s.files f).metaSlot w) dir f n old fileBlock
      distinct.symm consistent'.parents fun b here => (slot b here).distinct
    obtain ⟨index, bounded, _⟩ := consistent.cut_index bound entries shrinks
    have capacity : kFileBlockCapacity = 1000 := rfl
    have narrow : n / kBlockSize % 2 ^ 32 = n / kBlockSize := Nat.mod_eq_of_lt (by omega)
    have attached : s.attached f = [old] := by simp [FileSystem.attached, entries]
    have ids_ : s.blockIds f = (s.fileBlockMetas old).ids := blockIds_single attached
    have table : (t.adopted (s.files f).metaSlot w).fileBlockMetas old = s.fileBlockMetas old := kept
    have fhs : (t.adopted (s.files f).metaSlot w).freeFhs = rest := by rw [state]; rfl
    have perm := takes.pool
    refine ⟨w, fileBlock, ids,
      { ids := ids_
        index := by rw [ids_, FileBlockMeta.ids_length]; exact index
        size := by rw [shrunk.fileMeta_eq distinct.symm]; rfl
        handles := ⟨rest, free, by rw [shrunk.freeFhs, fhs]⟩
        fileBlocks := ⟨t.freeFbhs, takes.freeFbhs, shrunk.freeFbhs⟩
        count := takes.count
        blocks := ⟨t.blockIdPool, perm, ?_⟩
        listed := by
          rw [shrunk.blockIds_eq empty fun b here => (slot b here).adopted, table, ids_]
        taken := ?_
        fileMetas := fun i parent child => ?_ }⟩
    · rw [shrunk.blockIdPool, table, narrow, ids_, ← Multiset.coe_eq_coe, ← Multiset.coe_add]
      refine refilled_perm ?_ fun id member free => ?_
      · exact (List.drop_sublist _ _).nodup (ids_ ▸ consistent.blockIds_nodup bound)
      · refine consistent.blockIds_not_free bound (ids_ ▸ List.mem_of_mem_drop member) ?_
        exact perm.mem_iff.mpr (List.mem_append_right _ free)
    · rw [shrunk.data]
      exact takes.taken
    · have adopted_ : (t.adopted (s.files f).metaSlot w).fileMetas i = t.fileMetas i :=
        Function.update_of_ne parent _ _
      rw [shrunk.fileMeta_other parent child, adopted_, state]
      exact Function.update_of_ne child _ _

namespace CutTo
variable {s' : FileSystem} {old : FileBlockPtr} {w : Nat} {fileBlock : Option FileBlockPtr}
  {taken : List Nat} {g : FilePtr} (cutTo : CutTo s s' f n old w fileBlock taken)
include cutTo

omit [Crc32] in
theorem length : blockNum n = n / kBlockSize + taken.length := by
  rw [blockNum_eq]
  rcases cutTo.taken with ⟨even, rfl, _⟩ | ⟨uneven, id, _, rfl, _⟩
  · simp [even]
  · simp [uneven]

omit [Crc32] in
theorem content : CutContent s s' f n taken where
  size := cutTo.size
  ids := cutTo.listed
  whole even := by
    rcases cutTo.taken with ⟨_, none, _⟩ | ⟨uneven, _⟩
    · exact none
    · exact absurd even uneven
  cut uneven := by
    rcases cutTo.taken with ⟨even, _⟩ | ⟨_, id, free, only, data⟩
    · exact absurd even uneven
    have inside := cutTo.index
    rw [cutTo.ids, FileBlockMeta.ids_length] at inside
    refine ⟨id, free, only, (s.fileBlockMetas old).blockId (n / kBlockSize), ?_, fun i less => ?_⟩
    · rw [cutTo.ids]
      exact FileBlockMeta.ids_getElem? inside
    · rw [data, devOffset_add s id i, copyOver_at _ _ _ less, ← devOffset_add]

theorem returns (consistent : Consistent s lost) : CutReturns s s' f n where
  blocks := by
    obtain ⟨rest, before, after⟩ := cutTo.blocks
    have length := before.length_eq
    have length' := after.length_eq
    rw [List.length_append] at length
    rw [List.length_append, List.length_drop] at length'
    have count := cutTo.length
    have inside := cutTo.index
    omega
  returned id listed dropped := by
    obtain ⟨rest, _, after⟩ := cutTo.blocks
    rw [cutTo.listed, List.mem_append, not_or] at dropped
    rw [← List.take_append_drop (n / kBlockSize) (s.blockIds f), List.mem_append] at listed
    exact after.mem_iff.mpr (List.mem_append_left _ (listed.resolve_left dropped.1))
  fileBlocks := by
    obtain ⟨rest, before, after⟩ := cutTo.fileBlocks
    have count := cutTo.count
    rw [before, after, List.length_append, List.length_append, List.length_singleton]
    split at count
    · next zero => simp only [zero, ↓reduceIte]; omega
    · next positive => simp only [positive, ↓reduceIte]; omega
  handles := by
    obtain ⟨rest, before, after⟩ := cutTo.handles
    simp [before, after]
  old := by
    obtain ⟨rest, _, after⟩ := cutTo.handles
    rw [consistent.fileMeta_fh, after]
    simp

theorem untouched (consistent : Consistent s lost) (same : SameFile s s' g) (hg : g < s.nextFile)
    (bound : f < s.nextFile) (apart : g ≠ f) : UntouchedFile s s' g where
  metaSlot := same.metaSlot
  fileMeta := by
    obtain ⟨rest, free, _⟩ := cutTo.handles
    rw [FileSystem.fileMeta, same.metaSlot, FileSystem.fileMeta]
    refine cutTo.fileMetas _ (fun shared => apart (consistent.metaSlot_unique hg bound shared)) ?_
    exact consistent.metaSlot_not_free hg (by simp [free])
  attached := same.attached_eq
  fileBlocks := same.fileBlockMetas
  data id listed i less := by
    rcases cutTo.taken with ⟨_, _, data⟩ | ⟨_, new, free, _, data⟩
    · rw [data]
    · have distinct : id ≠ new := by
        rintro rfl
        exact consistent.blockIds_not_free hg listed free
      rw [data, copyOver_off]
      exact consistent.devOffset_apart distinct less (Nat.mod_lt n kBlockSize_pos).le

end CutTo

end Cutting

/-- Every successful shrink of a run without narrowed block counts keeps the accounts. -/
theorem Reachable.cutExactly [Crc32] {s s' : FileSystem} (reach : Reachable NarrowCall s) {env : Env}
    (ok : env.IoOk) {f : FilePtr} (live : f ∈ s.liveFiles) {n : Nat}
    (shrinks : n < (s.fileMeta f).size) (success : s.ftruncate env f n = .ok (s', 0)) :
    CutExactly s s' f n := by
  obtain ⟨lost, coherent⟩ := reach.coherent
  have consistent := coherent.consistent
  have registered := coherent.registered
  have bound := registered.live_lt live
  have narrow : s.Narrow f n := by
    refine .inr ?_
    have nothing : n - (s.fileMeta f).size = 0 := by omega
    simp [blocksNeeded, nothing]
  obtain ⟨t, r, ran, truncation⟩ := ftruncate_cases consistent ok bound narrow
  obtain ⟨rfl, rfl⟩ := Prod.mk.inj (Except.ok.inj (ran.symm.trans success))
  cases truncation with
  | grow grows _ => omega
  | keep same => omega
  | shrink _ entries shrinkage =>
    obtain ⟨w, fileBlock, taken, cutTo⟩ := shrinkage.cutTo consistent bound entries shrinks rfl
    refine ⟨⟨taken, cutTo.content⟩, cutTo.returns consistent, fun g alive apart => ?_⟩
    have hg := registered.live_lt alive
    have same := (Truncation.shrink shrinks entries shrinkage).sameFile consistent bound hg apart
    exact cutTo.untouched consistent same hg bound apart

/-- A file of three blocks cut inside its second one. -/
theorem Reachable.cutExactly_inside :
    ∃ s s' : FileSystem, s.blockIds 0 = [0, 1, 2] ∧ s'.blockIds 0 = [0, 3] ∧
      CutExactly s s' 0 6291456 := by
  let _ := zeroCrc
  obtain ⟨s, reach, ids, live, size, runs⟩ := Reachable.exists_run
    [.openFile ['/', 'a'] 0o102, .truncateFd 0 12582912]
    (fun s => s.blockIds 0 = [0, 1, 2] ∧ 0 ∈ s.liveFiles ∧ (s.fileMeta 0).size = 12582912 ∧
      (s.ftruncate steadyEnv 0 6291456).toOption.any fun p => p.2 = 0 ∧ p.1.blockIds 0 = [0, 3])
    (freshDevice_fresh 8 fun _ => 0) steadyEnv_ok isNarrowCall_sound (by decide +kernel)
  rcases ran : s.ftruncate steadyEnv 0 6291456 with fault | ⟨s', r⟩
  · simp [ran, Except.toOption] at runs
  · obtain ⟨rfl, after⟩ : r = 0 ∧ s'.blockIds 0 = [0, 3] := by simpa [ran, Except.toOption] using runs
    exact ⟨s, s', ids, after, reach.cutExactly steadyEnv_ok live (by omega) ran⟩

/-- A file whose block count was narrowed lists one block only, and cut to two lists it twice. -/
theorem not_cutExactly :
    ∃ s s', @Reachable zeroCrc anyCall s ∧ 0 ∈ s.liveFiles ∧ 8388608 < (s.fileMeta 0).size ∧
      @ftruncate zeroCrc s steadyEnv 0 8388608 = .ok (s', 0) ∧ ¬CutExactly s s' 0 8388608 := by
  let _ := zeroCrc
  obtain ⟨s, reach, ids, live, size, runs⟩ := Reachable.exists_run
    [.openFile ['/', 'a'] 0o102, .truncateFd 0 ((2 ^ 32 + 1) * 4194304)]
    (fun s => s.blockIds 0 = [0] ∧ 0 ∈ s.liveFiles ∧ 8388608 < (s.fileMeta 0).size ∧
      (s.ftruncate steadyEnv 0 8388608).toOption.any fun p => p.2 = 0 ∧ p.1.blockIds 0 = [0, 0])
    (freshDevice_fresh (2 ^ 32 + 1) fun _ => 0) steadyEnv_ok anyCall_sound (by decide +kernel)
  rcases ran : s.ftruncate steadyEnv 0 8388608 with fault | ⟨s', r⟩
  · simp [ran, Except.toOption] at runs
  · obtain ⟨rfl, after⟩ : r = 0 ∧ s'.blockIds 0 = [0, 0] := by simpa [ran, Except.toOption] using runs
    refine ⟨s, s', reach, live, size, ran, ?_⟩
    rintro ⟨⟨taken, content⟩, _, _⟩
    have listed := content.ids
    rw [content.whole (by decide), after, ids] at listed
    revert listed
    decide

end FileSystem

end BlockFs
