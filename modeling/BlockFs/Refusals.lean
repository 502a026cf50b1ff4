import BlockFs.Growth

namespace BlockFs.FileSystem

/-- Files, slots and free resources are as they were, in memory and on the device. -/
structure Unchanged (s s' : FileSystem) : Prop where
  files : s'.files = s.files
  fileMetas : s'.fileMetas = s.fileMetas
  fileBlockMetas : s'.fileBlockMetas = s.fileBlockMetas
  blockIdPool : ∀ id, id ∈ s'.blockIdPool ↔ id ∈ s.blockIdPool
  freeFbhs : ∀ b, b ∈ s'.freeFbhs ↔ b ∈ s.freeFbhs
  freeFhs : ∀ fh, fh ∈ s'.freeFhs ↔ fh ∈ s.freeFhs
  disk : s'.disk = s.disk

theorem Unchanged.refl (s : FileSystem) : Unchanged s s := by
  constructor
  all_goals intros
  all_goals rfl

/-- A call that returns -1 has changed nothing. -/
def ChangesNothingOnFailure [Crc32] (s : FileSystem) (env : Env) (f : FilePtr) (n : Nat) : Prop :=
  ∃ s' r, s.ftruncate env f n = .ok (s', r) ∧ (r = -1 → Unchanged s s')

/-- The growth passes every check but the one in its last loop, behind the ids it has taken. -/
def Overfills (s : FileSystem) (f : FilePtr) (n : Nat) : Prop :=
  n ≤ s.superMeta.deviceSize ∧ s.Overfull f n

section Refusing
variable [Crc32] {s s' : FileSystem} {env : Env} {f : FilePtr} {n : Nat} {r : Int} {lost : Lost}

omit [Crc32] in
theorem Found.rotated {b : FileBlockPtr} {rest : List FileBlockPtr} (found : Found s f b true rest)
    (c : FileBlockPtr) : c ∈ rest ++ [b] ↔ c ∈ s.freeFbhs := by
  cases found with
  | new _ _ free => simp [free, or_comm]

theorem Found.needs (consistent : Consistent s lost) (bound : f < s.nextFile) {b : FileBlockPtr}
    {isNew : Bool} {rest : List FileBlockPtr} (found : Found s f b isNew rest) {needed : Nat}
    (overflow : kFileBlockCapacity < (s.fileBlockMetas b).usedBlockNum + needed) : 0 < needed := by
  have bounded := found.bounded consistent bound
  omega

/-- What a growth that fails leaves behind: nothing but the ids of an overfull table. -/
theorem Extension.failure (consistent : Consistent s lost) (bound : f < s.nextFile)
    (inside : n ≤ s.superMeta.deviceSize) (extension : Extension s env f n s' r) (failed : r = -1) :
    (¬s.Overfull f n ∧ Unchanged s s') ∨ (s.Overfull f n ∧ ∃ id ∈ s.blockIdPool, id ∉ s'.blockIdPool) := by
  cases extension with
  | inPlace found none => simp at failed
  | grown found needs enough fits same ids => simp at failed
  | refused cause =>
    refine .inl ⟨?_, .refl s⟩
    rintro ⟨b, isNew, rest, found, enough, _⟩
    rcases cause with beyond | ⟨zero, lacking⟩ | ⟨c, entries, cause⟩
    · omega
    · rcases found.cases with ⟨_, _, free⟩ | ⟨size, _, _⟩
      · simp [lacking] at free
      · omega
    · rcases found.cases with ⟨_, bare, _⟩ | ⟨_, only, space⟩
      · simp [entries] at bare
      · obtain rfl : c = b := by simpa using entries.symm.trans only
        rcases cause with full | short
        · exact space full
        · omega
  | returned found short =>
    refine .inl ⟨?_, ⟨rfl, rfl, rfl, fun _ => .rfl, found.rotated, fun _ => .rfl, rfl⟩⟩
    rintro ⟨b, isNew, rest, again, enough, _⟩
    omega
  | @overfull b isNew rest slot found enough overflow same ids =>
    have needs := found.needs consistent bound overflow
    have nodup : (env.order s.blockIdPool).Nodup :=
      (env.order_perm s.blockIdPool).nodup_iff.mpr consistent.pool_nodup
    have length := (env.order_perm s.blockIdPool).length_eq
    refine .inr ⟨⟨b, isNew, rest, found, enough, overflow⟩, ?_⟩
    cases order : env.order s.blockIdPool with
    | nil => simp [order] at length; omega
    | cons id ids' =>
      refine ⟨id, (env.order_perm s.blockIdPool).mem_iff.mp (by simp [order]), ?_⟩
      rw [order, List.nodup_cons] at nodup
      obtain ⟨k, successor⟩ := Nat.exists_eq_succ_of_ne_zero needs.ne'
      rw [successor]
      exact fun member => nodup.1 (List.mem_of_mem_drop member)

theorem Extension.done (extension : Extension s env f n s' r) : r = 0 ∨ r = -1 := by
  cases extension with
  | refused | returned | overfull => exact .inr rfl
  | inPlace | grown => exact .inl rfl

/-- What a shrink that fails leaves behind: nothing but the slot it had taken. -/
theorem Shrinkage.failure (consistent : Consistent s lost) {old : FileBlockPtr}
    (shrinkage : Shrinkage s env f n old s' r) :
    (r = 0 ∧ ¬s.LosesSlot f n) ∨ (r = -1 ∧ ¬s.LosesSlot f n ∧ Unchanged s s') ∨
      (r = -1 ∧ s.LosesSlot f n ∧ ∃ w ∈ s.freeFhs, w ∉ s'.freeFhs) := by
  have gone {w : Nat} {rest : List Nat} (free : s.freeFhs = w :: rest) : w ∈ s.freeFhs ∧ w ∉ rest := by
    have nodup := consistent.handles.free_nodup (Multiset.nodup_range _)
    rw [free, Multiset.coe_nodup, List.nodup_cons] at nodup
    exact ⟨by simp [free], nodup.1⟩
  cases shrinkage with
  | noSlot free =>
    refine .inr (.inl ⟨rfl, fun loses => loses.1 free, ?_⟩)
    exact ⟨rfl, rfl, rfl, fun _ => .rfl, fun _ => .rfl, fun _ => .rfl, rfl⟩
  | @noFileBlock w rest free positive none =>
    exact .inr (.inr ⟨rfl, ⟨by simp [free], .inl ⟨positive, none⟩⟩, w, gone free⟩)
  | @noBlock w rest b rest' free free' uneven none =>
    exact .inr (.inr ⟨rfl, ⟨by simp [free], .inr (.inl ⟨uneven, none⟩)⟩, w, gone free⟩)
  | @noDirectory w rest t fileBlock ids free child none =>
    obtain ⟨pool, rest', blocks, data, state⟩ := child.frame
    refine .inr (.inr ⟨rfl, ⟨by simp [free], .inr (.inr none)⟩, w, (gone free).1, ?_⟩)
    rw [state]
    exact (gone free).2
  | @shrunk w rest t fileBlock ids dir free child found =>
    refine .inl ⟨rfl, ?_⟩
    rintro ⟨_, ⟨positive, lacking⟩ | ⟨uneven, lacking⟩ | lacking⟩
    · cases child with
      | unneeded empty => omega
      | whole _ _ free' => simp [started, lacking] at free'
      | cut _ free' _ => simp [started, lacking] at free'
    · cases child with
      | unneeded empty => simp [empty] at uneven
      | whole _ even _ => exact uneven even
      | cut _ _ order =>
        have length := (env.order_perm s.blockIdPool).length_eq
        have order' : env.order s.blockIdPool = _ := order
        rw [order', lacking] at length
        simp at length
    · simp [found] at lacking

end Refusing

/-- A failed truncation changes nothing, unless a growth runs out of table entries or a shrink finds
no file block, no block or no directory behind the slot it has taken. -/
theorem Reachable.changesNothingOnFailure [Crc32] {s : FileSystem} (reach : Reachable NarrowCall s)
    {env : Env} (ok : env.IoOk) {f : FilePtr} (live : f ∈ s.liveFiles) {n : Nat}
    (narrow : s.Narrow f n) :
    s.ChangesNothingOnFailure env f n ↔
      ¬((s.fileMeta f).size < n ∧ s.Overfills f n) ∧ ¬(n < (s.fileMeta f).size ∧ s.LosesSlot f n) := by
  obtain ⟨lost, coherent⟩ := reach.coherent
  have consistent := coherent.consistent
  have bound := coherent.registered.live_lt live
  obtain ⟨s', r, ran, truncation⟩ := ftruncate_cases consistent ok bound narrow
  have unfolded : s.ChangesNothingOnFailure env f n ↔ (r = -1 → Unchanged s s') := by
    constructor
    · rintro ⟨t, q, again, property⟩
      obtain ⟨rfl, rfl⟩ := Prod.mk.inj (Except.ok.inj (ran.symm.trans again))
      exact property
    · exact fun property => ⟨s', r, ran, property⟩
  rw [unfolded]
  cases truncation with
  | keep same => exact iff_of_true (fun failed => absurd failed (by decide)) ⟨by omega, by omega⟩
  | grow grows extension =>
    by_cases beyond : s.superMeta.deviceSize < n
    · have stopped : s.ftruncate env f n = .ok (s, -1) := by
        rw [ftruncate, if_pos grows, extendFile, if_pos beyond]
      obtain ⟨rfl, rfl⟩ := Prod.mk.inj (Except.ok.inj (ran.symm.trans stopped))
      refine iff_of_true (fun _ => .refl _) ⟨?_, by omega⟩
      rintro ⟨_, inside, _⟩
      omega
    rcases extension.done with success | failed
    · refine iff_of_true (fun failed => by omega) ⟨?_, by omega⟩
      rintro ⟨_, inside, b, isNew, rest, found, _, overflow⟩
      obtain ⟨_, c, isNew', rest', again, _, room⟩ := (extension.hasRoom consistent bound inside).mp success
      rw [again.unique found] at room
      omega
    · rcases extension.failure consistent bound (by omega) failed with
        ⟨spared, unchanged⟩ | ⟨overfull, id, free, taken⟩
      · exact iff_of_true (fun _ => unchanged) ⟨fun full => spared full.2.2, by omega⟩
      · refine iff_of_false (fun same => taken (((same failed).blockIdPool id).mpr free)) ?_
        exact fun safe => safe.1 ⟨grows, by omega, overfull⟩
  | shrink shrinks entries shrinkage =>
    rcases shrinkage.failure consistent with
      ⟨success, safe⟩ | ⟨_, safe, unchanged⟩ | ⟨failed, loses, w, free, taken⟩
    · exact iff_of_true (fun failed => by omega) ⟨by omega, fun loses => safe loses.2⟩
    · exact iff_of_true (fun _ => unchanged) ⟨by omega, fun loses => safe loses.2⟩
    · refine iff_of_false (fun same => taken (((same failed).freeFhs w).mpr free)) ?_
      exact fun safe => safe.2 ⟨shrinks, loses⟩

/-- With eight blocks a growth to nine fails for lack of blocks and gives its file block back. -/
theorem Reachable.changesNothingOnFailure_short :
    ∃ s : FileSystem, s.blockIdPool.length = 8 ∧
      @ChangesNothingOnFailure zeroCrc s steadyEnv 0 (9 * 4194304) := by
  let _ := zeroCrc
  obtain ⟨s, reach, pool, live, size, free, narrow⟩ := Reachable.exists_run
    [.openFile ['/', 'a'] 0o102]
    (fun s => s.blockIdPool.length = 8 ∧ 0 ∈ s.liveFiles ∧ (s.fileMeta 0).size = 0 ∧
      s.attached 0 = [] ∧ s.Narrow 0 (9 * 4194304))
    (freshDevice_fresh 8 fun _ => 0) steadyEnv_ok isNarrowCall_sound (by decide +kernel)
  refine ⟨s, pool, (reach.changesNothingOnFailure steadyEnv_ok live narrow).mpr ⟨?_, by omega⟩⟩
  rintro ⟨_, _, b, isNew, rest, _, enough, _⟩
  rw [pool, size] at enough
  revert enough
  decide

/-- A growth past the table keeps the blocks it took. -/
theorem not_changesNothingOnFailure :
    ∃ s, @Reachable zeroCrc anyCall s ∧ 0 ∈ s.liveFiles ∧
      ¬@ChangesNothingOnFailure zeroCrc s steadyEnv 0 (1001 * 4194304) := by
  let _ := zeroCrc
  obtain ⟨s, reach, live, pool, fails⟩ := Reachable.exists_run [.openFile ['/', 'a'] 0o102]
    (fun s => 0 ∈ s.liveFiles ∧ 0 ∈ s.blockIdPool ∧
      (s.ftruncate steadyEnv 0 (1001 * 4194304)).toOption.any fun p =>
        p.2 = -1 ∧ p.1.blockIdPool = [])
    (freshDevice_fresh 1001 fun _ => 0) steadyEnv_ok anyCall_sound (by decide +kernel)
  refine ⟨s, reach, live, ?_⟩
  rintro ⟨s', r, ran, same⟩
  rw [ran] at fails
  obtain ⟨failed, empty⟩ : r = -1 ∧ s'.blockIdPool = [] := by simpa [Except.toOption] using fails
  have kept := ((same failed).blockIdPool 0).mpr pool
  simp [empty] at kept

end BlockFs.FileSystem
