import BlockFs.Exclusion

namespace BlockFs

/-- The number of blocks that hold `size` bytes. -/
def blockNum (size : Nat) : Nat := alignUp size kBlockSize

theorem blockNum_mono {size offset : Nat} (grows : size ≤ offset) : blockNum size ≤ blockNum offset :=
  Nat.div_le_div_right (by omega)

/-- The three cases of `ExtendFile` around the last partial block count the same blocks as one
rounding. -/
theorem FileSystem.blocksNeeded_eq {size offset : Nat} (grows : size ≤ offset) :
    FileSystem.blocksNeeded size offset = blockNum offset - blockNum size := by
  unfold FileSystem.blocksNeeded FileSystem.lastBlockLeft blockNum alignUp
  dsimp only
  rw [kBlockSize_eq]
  split <;> split <;> omega

namespace FileSystem

/-- The growth is inside the device and the table, and its resources are free. -/
structure Fits (s : FileSystem) (f : FilePtr) (offset : Nat) : Prop where
  device : offset ≤ s.superMeta.deviceSize
  table : blockNum offset ≤ kFileBlockCapacity
  pool : blockNum offset - blockNum (s.fileMeta f).size ≤ s.blockIdPool.length
  fileBlock : 0 < (s.fileMeta f).size ∨ s.freeFbhs ≠ []

/-- The file has the new size, lists exactly the blocks for it, and the pool gave exactly the ones
behind those it had. -/
structure GrownExactly (s s' : FileSystem) (f : FilePtr) (offset : Nat) : Prop where
  size : (s'.fileMeta f).size = offset
  used : ∃ b, s'.attached f = [b] ∧ (s'.fileBlockMetas b).usedBlockNum = blockNum offset
  kept : (s'.blockIds f).take (blockNum (s.fileMeta f).size) =
    (s.blockIds f).take (blockNum (s.fileMeta f).size)
  taken : s.blockIdPool.Perm
    ((s'.blockIds f).drop (blockNum (s.fileMeta f).size) ++ s'.blockIdPool)

/-- `ftruncate` to a larger size succeeds exactly when the growth fits, and then grows exactly. -/
def GrowsWhenFits [Crc32] (s : FileSystem) (env : Env) (f : FilePtr) (offset : Nat) : Prop :=
  ∃ s' r, s.ftruncate env f offset = .ok (s', r) ∧ (r = 0 ↔ s.Fits f offset) ∧
    (r = 0 → GrownExactly s s' f offset)

/-- The file lists no more blocks than its size needs, and its file block has an entry left. -/
def Snug (s : FileSystem) (f : FilePtr) : Prop :=
  (s.blockIds f).length = blockNum (s.fileMeta f).size ∧
    blockNum (s.fileMeta f).size < kFileBlockCapacity

/-- What `ExtendFile` asks for: it counts the entries used instead of the size. -/
def HasRoom (s : FileSystem) (f : FilePtr) (offset : Nat) : Prop :=
  offset ≤ s.superMeta.deviceSize ∧ ∃ b isNew rest, Found s f b isNew rest ∧
    blocksNeeded (s.fileMeta f).size offset ≤ s.blockIdPool.length ∧
    (s.fileBlockMetas b).usedBlockNum + blocksNeeded (s.fileMeta f).size offset ≤ kFileBlockCapacity

section Growing
variable [Crc32] {s s' : FileSystem} {env : Env} {f : FilePtr} {offset : Nat} {r : Int} {lost : Lost}

omit [Crc32] in
theorem Found.cases {b : FileBlockPtr} {isNew : Bool} {rest : List FileBlockPtr}
    (found : Found s f b isNew rest) :
    ((s.fileMeta f).size = 0 ∧ (s.files f).itemMaps.entries = [] ∧ s.freeFbhs = b :: rest) ∨
      (0 < (s.fileMeta f).size ∧ (s.files f).itemMaps.entries = [⟨0, b⟩] ∧
        (s.fileBlockMetas b).usedBlockNum ≠ kFileBlockCapacity) := by
  cases found with
  | new size entries free => exact .inl ⟨size, entries, free⟩
  | old size entries room => exact .inr ⟨size, entries, room⟩

omit [Crc32] in
theorem Found.unique {b b' : FileBlockPtr} {isNew isNew' : Bool} {rest rest' : List FileBlockPtr}
    (found : Found s f b isNew rest) (again : Found s f b' isNew' rest') : b = b' := by
  rcases found.cases with ⟨size, entries, free⟩ | ⟨size, entries, room⟩
  · rcases again.cases with ⟨_, _, free'⟩ | ⟨size', _, _⟩
    · exact (List.cons.inj (free.symm.trans free')).1
    · omega
  · rcases again.cases with ⟨size', _, _⟩ | ⟨_, entries', _⟩
    · omega
    · simpa using entries.symm.trans entries'

theorem Found.bounded (consistent : Consistent s lost) (bound : f < s.nextFile) {b : FileBlockPtr}
    {isNew : Bool} {rest : List FileBlockPtr} (found : Found s f b isNew rest) :
    (s.fileBlockMetas b).usedBlockNum ≤ kFileBlockCapacity := by
  rcases found.cases with ⟨_, _, free⟩ | ⟨_, entries, _⟩
  · have clean := (consistent.cleanFbhs b (by simp [free])).2
    omega
  · exact ((consistent.rep f bound).of_entries entries).2.bounded

theorem Extension.hasRoom (consistent : Consistent s lost) (bound : f < s.nextFile)
    (inside : offset ≤ s.superMeta.deviceSize) (extension : Extension s env f offset s' r) :
    r = 0 ↔ s.HasRoom f offset := by
  have fails : ¬s.HasRoom f offset → ((-1 : Int) = 0 ↔ s.HasRoom f offset) := by
    intro refused
    simp [refused]
  cases extension with
  | refused cause =>
    refine fails ?_
    rintro ⟨_, b, isNew, rest, found, enough, room⟩
    rcases cause with beyond | ⟨zero, lacking⟩ | ⟨c, entries, cause⟩
    · omega
    · rcases found.cases with ⟨_, _, free⟩ | ⟨size, _, _⟩
      · simp [lacking] at free
      · omega
    · rcases found.cases with ⟨_, bare, _⟩ | ⟨size, only, space⟩
      · simp [entries] at bare
      · obtain rfl : c = b := by simpa using entries.symm.trans only
        rcases cause with full | short
        · exact space full
        · omega
  | returned found short =>
    refine fails ?_
    rintro ⟨_, b, isNew, rest, _, enough, _⟩
    omega
  | overfull found enough overflow same ids =>
    refine fails ?_
    rintro ⟨_, b, isNew, rest, again, _, room⟩
    rw [← found.unique again] at room
    omega
  | inPlace found none =>
    refine ⟨fun _ => ⟨inside, _, _, _, found, by omega, ?_⟩, fun _ => rfl⟩
    have cap := found.bounded consistent bound
    omega
  | grown found needs enough fits same ids =>
    exact ⟨fun _ => ⟨inside, _, _, _, found, enough, fits⟩, fun _ => rfl⟩

/-- A growth that succeeds appends the ids it took from the pool to those the file lists. -/
structure Appended (s s' : FileSystem) (f : FilePtr) (offset : Nat) (added : List Nat) : Prop where
  size : (s'.fileMeta f).size = offset
  attached : ∃ b, s'.attached f = [b]
  ids : s'.blockIds f = s.blockIds f ++ added
  count : added.length = blocksNeeded (s.fileMeta f).size offset
  pool : s.blockIdPool.Perm (added ++ s'.blockIdPool)

omit [Crc32] in
theorem takenIds_perm (env : Env) (needed : Nat) :
    s.blockIdPool.Perm (s.takenIds env needed ++ (env.order s.blockIdPool).drop needed) := by
  rw [takenIds, List.take_append_drop]
  exact (env.order_perm _).symm

theorem Extension.appended (consistent : Consistent s lost) (extension : Extension s env f offset s' r)
    (done : r = 0) : ∃ added, Appended s s' f offset added := by
  cases extension with
  | refused cause => simp at done
  | returned found short => simp at done
  | overfull found enough overflow same ids => simp at done
  | inPlace found none =>
    have slot : ((s.resized f offset).files f).metaSlot = (s.files f).metaSlot := rfl
    refine ⟨[], ?_, ?_, ?_, none.symm, .refl _⟩
    · rw [fileMeta, resized_fileMetas, slot, Function.update_self]
      rfl
    · cases found with
      | old _ entries _ =>
        have same : (s.resized f offset).attached f = s.attached f := rfl
        exact ⟨_, by rw [same, attached, entries]; rfl⟩
    · exact (List.append_nil _).symm
  | @grown b isNew rest slot found needs enough fits same ids =>
    have entries := found.items
    have grown : GrownTo s ({ s with freeFbhs := rest }.grown env f offset
        (blocksNeeded (s.fileMeta f).size offset) b slot
        (if isNew then (s.files f).itemMaps.insert 0 b else (s.files f).itemMaps)) env f offset
      (blocksNeeded (s.fileMeta f).size offset) b slot
      (if isNew then (s.files f).itemMaps.insert 0 b else (s.files f).itemMaps) rest := grownTo
    refine ⟨s.takenIds env (blocksNeeded (s.fileMeta f).size offset), ?_, ⟨_, grown.attached_eq entries⟩,
      ?_, takenIds_length env enough, takenIds_perm env _⟩
    · rw [grown.fileMeta_eq]
      rfl
    · rw [grown.blockIds_eq entries, ids, found.ids_eq consistent]

omit [Crc32] in
theorem blockIds_single {b : FileBlockPtr} (only : s.attached f = [b]) :
    s.blockIds f = (s.fileBlockMetas b).ids := by
  simp [blockIds, only]

/-- A consistent file lists at least the blocks its size needs, and at most a full table. -/
theorem Consistent.blockIds_length (consistent : Consistent s lost) (bound : f < s.nextFile) :
    blockNum (s.fileMeta f).size ≤ (s.blockIds f).length ∧
      (s.blockIds f).length ≤ kFileBlockCapacity ∧
      ((s.fileMeta f).size = 0 → (s.blockIds f).length = 0) := by
  cases consistent.rep f bound with
  | empty size entries =>
    have bare : s.attached f = [] := by simp [attached, entries]
    simp [blockIds, bare, size, blockNum, alignUp, kBlockSize_eq]
  | backed b size entries backs =>
    have listed : s.blockIds f = (s.fileBlockMetas b).ids :=
      blockIds_single (by simp [attached, entries])
    have covers := backs.covers
    rw [listed, FileBlockMeta.ids_length]
    refine ⟨?_, backs.bounded, fun empty => by omega⟩
    unfold blockNum alignUp
    rw [kBlockSize_eq] at covers ⊢
    omega

theorem Found.used (consistent : Consistent s lost) {b : FileBlockPtr} {isNew : Bool}
    {rest : List FileBlockPtr} (found : Found s f b isNew rest) :
    (s.fileBlockMetas b).usedBlockNum = (s.blockIds f).length := by
  rw [← found.ids_eq consistent, FileBlockMeta.ids_length]

/-- The room a file block has left, in terms of the ids the file lists. -/
theorem Consistent.hasRoom_iff (consistent : Consistent s lost) (bound : f < s.nextFile) :
    s.HasRoom f offset ↔ offset ≤ s.superMeta.deviceSize ∧
      blocksNeeded (s.fileMeta f).size offset ≤ s.blockIdPool.length ∧
      (s.blockIds f).length + blocksNeeded (s.fileMeta f).size offset ≤ kFileBlockCapacity ∧
      (((s.fileMeta f).size = 0 ∧ s.freeFbhs ≠ []) ∨
        (0 < (s.fileMeta f).size ∧ (s.blockIds f).length ≠ kFileBlockCapacity)) := by
  constructor
  · rintro ⟨inside, b, isNew, rest, found, enough, room⟩
    have used := found.used consistent
    refine ⟨inside, enough, by omega, ?_⟩
    rcases found.cases with ⟨size, _, free⟩ | ⟨size, _, space⟩
    · exact .inl ⟨size, by simp [free]⟩
    · exact .inr ⟨size, by omega⟩
  · rintro ⟨inside, enough, room, ⟨size, free⟩ | ⟨size, space⟩⟩
    · obtain ⟨b, rest, head⟩ := List.exists_cons_of_ne_nil free
      cases consistent.rep f bound with
      | backed b positive _ _ => omega
      | empty _ entries =>
        have found := Found.new size entries head
        have used := found.used consistent
        exact ⟨inside, b, true, rest, found, enough, by omega⟩
    · cases consistent.rep f bound with
      | empty zero _ => omega
      | backed b _ entries backs =>
        have only : s.attached f = [b] := by simp [attached, entries]
        have count : (s.fileBlockMetas b).usedBlockNum = (s.blockIds f).length := by
          rw [blockIds_single only, FileBlockMeta.ids_length]
        exact ⟨inside, b, false, s.freeFbhs, .old size entries (by omega), enough, by omega⟩

theorem Extension.done_iff (consistent : Consistent s lost) (bound : f < s.nextFile)
    (extension : Extension s env f offset s' r) (ran : s.extendFile env f offset = .ok (s', r)) :
    r = 0 ↔ s.HasRoom f offset := by
  by_cases beyond : s.superMeta.deviceSize < offset
  · have stopped : s.extendFile env f offset = .ok (s, -1) := by rw [extendFile, if_pos beyond]
    obtain ⟨_, rfl⟩ := Prod.mk.inj (Except.ok.inj (ran.symm.trans stopped))
    refine ⟨fun done => absurd done (by decide), ?_⟩
    rintro ⟨inside, _⟩
    omega
  · exact extension.hasRoom consistent bound (by omega)

omit [Crc32] in
/-- Growing exactly takes a file that listed no more blocks than it needed. -/
theorem Appended.exactly_iff {added : List Nat} (appended : Appended s s' f offset added)
    (grows : (s.fileMeta f).size ≤ offset)
    (covers : blockNum (s.fileMeta f).size ≤ (s.blockIds f).length) :
    GrownExactly s s' f offset ↔ (s.blockIds f).length = blockNum (s.fileMeta f).size := by
  have more := blockNum_mono grows
  have count := appended.count
  rw [blocksNeeded_eq grows] at count
  have length := congrArg List.length appended.ids
  rw [List.length_append] at length
  obtain ⟨b, only⟩ := appended.attached
  have used : (s'.fileBlockMetas b).usedBlockNum = (s'.blockIds f).length := by
    rw [blockIds_single only, FileBlockMeta.ids_length]
  constructor
  · intro exactly
    obtain ⟨c, only', number⟩ := exactly.used
    obtain rfl : b = c := by simpa using only.symm.trans only'
    omega
  · intro snug
    refine ⟨appended.size, ⟨b, only, by omega⟩, ?_, ?_⟩
    · rw [appended.ids, ← snug, List.take_left, List.take_length]
    · rw [appended.ids, ← snug, List.drop_left]
      exact appended.pool

end Growing

/-- Growth succeeds exactly when it fits, except that a file whose table is full does not even grow
inside its last block, and that one with blocks left from a failed growth is charged for them. -/
theorem Reachable.growsWhenFits [Crc32] {s : FileSystem} (reach : Reachable NarrowCall s) {env : Env}
    (ok : env.IoOk) {f : FilePtr} (live : f ∈ s.liveFiles) {offset : Nat}
    (grows : (s.fileMeta f).size < offset) (narrow : s.Narrow f offset) :
    s.GrowsWhenFits env f offset ↔
      ¬s.Fits f offset ∨ (s.fileMeta f).size = 0 ∨ s.Snug f := by
  obtain ⟨lost, coherent⟩ := reach.coherent
  have consistent := coherent.consistent
  have bound := coherent.registered.live_lt live
  obtain ⟨s', r, ran, extension⟩ := extendFile_cases consistent ok bound grows narrow
  have result : s.ftruncate env f offset = .ok (s', r) := by rw [ftruncate, if_pos grows, ran]
  have done := extension.done_iff consistent bound ran
  have room := @Consistent.hasRoom_iff _ s f offset lost consistent bound
  have needed := blocksNeeded_eq grows.le
  have more := blockNum_mono grows.le
  obtain ⟨least, most, none⟩ := consistent.blockIds_length bound
  have fits : s.Fits f offset ↔ offset ≤ s.superMeta.deviceSize ∧
      blockNum offset ≤ kFileBlockCapacity ∧
      blocksNeeded (s.fileMeta f).size offset ≤ s.blockIdPool.length ∧
      (0 < (s.fileMeta f).size ∨ s.freeFbhs ≠ []) := by
    rw [needed]
    exact ⟨fun h => ⟨h.1, h.2, h.3, h.4⟩, fun h => ⟨h.1, h.2.1, h.2.2.1, h.2.2.2⟩⟩
  have unfolded : s.GrowsWhenFits env f offset ↔
      (r = 0 ↔ s.Fits f offset) ∧ (r = 0 → GrownExactly s s' f offset) := by
    constructor
    · rintro ⟨t, q, again, property⟩
      obtain ⟨rfl, rfl⟩ := Prod.mk.inj (Except.ok.inj (result.symm.trans again))
      exact property
    · exact fun property => ⟨s', r, result, property⟩
  have empty : (s.fileMeta f).size = 0 → blockNum (s.fileMeta f).size = 0 := by
    intro zero
    rw [zero]
    rfl
  rw [unfolded]
  by_cases success : r = 0
  · obtain ⟨inside, enough, capacity, source⟩ := room.mp (done.mp success)
    have fit : s.Fits f offset := fits.mpr ⟨inside, by omega, enough, source.elim (.inr ·.2) (.inl ·.1)⟩
    obtain ⟨added, appended⟩ := extension.appended consistent success
    rw [appended.exactly_iff grows.le least]
    constructor
    · rintro ⟨_, exactly⟩
      have snug := exactly success
      rcases source with ⟨zero, _⟩ | ⟨positive, space⟩
      · exact .inr (.inl zero)
      · exact .inr (.inr ⟨snug, by omega⟩)
    · rintro (unfit | zero | ⟨snug, _⟩)
      · exact absurd fit unfit
      · exact ⟨iff_of_true success fit, fun _ => by rw [none zero, empty zero]⟩
      · exact ⟨iff_of_true success fit, fun _ => snug⟩
  · have full : ¬s.HasRoom f offset := fun space => success (done.mpr space)
    constructor
    · rintro ⟨same, _⟩
      exact .inl fun fit => success (same.mpr fit)
    · intro cause
      refine ⟨iff_of_false success fun fit => full (room.mpr ?_), fun zero => absurd zero success⟩
      obtain ⟨inside, table, enough, source⟩ := fits.mp fit
      rcases cause with unfit | zero | ⟨snug, space⟩
      · exact absurd fit unfit
      · have listed := none zero
        exact ⟨inside, enough, by omega, .inl ⟨zero, source.resolve_left (by omega)⟩⟩
      · refine ⟨inside, enough, by omega, ?_⟩
        rcases Nat.eq_zero_or_pos (s.fileMeta f).size with zero | positive
        · exact .inl ⟨zero, source.resolve_left (by omega)⟩
        · exact .inr ⟨positive, by omega⟩

/-- A file of one byte in a pool of eight blocks grows to three blocks. -/
theorem Reachable.growsWhenFits_twice :
    ∃ s : FileSystem, s.blockIds 0 = [0] ∧
      @GrowsWhenFits zeroCrc s steadyEnv 0 (3 * 4194304) := by
  let _ := zeroCrc
  obtain ⟨s, reach, ids, live, size, device⟩ := Reachable.exists_run
    [.openFile ['/', 'a'] 0o102, .truncateFd 0 1]
    (fun s => s.blockIds 0 = [0] ∧ 0 ∈ s.liveFiles ∧ (s.fileMeta 0).size = 1 ∧
      s.Narrow 0 (3 * 4194304))
    (freshDevice_fresh 8 fun _ => 0) steadyEnv_ok isNarrowCall_sound (by decide +kernel)
  have snug : s.Snug 0 := ⟨by rw [ids, size]; decide, by rw [size]; decide⟩
  exact ⟨s, ids, (reach.growsWhenFits steadyEnv_ok live (by rw [size]; decide) device).mpr
    (.inr (.inr snug))⟩

/-- A file that fills its table does not even grow to the end of its last block. -/
theorem not_growsWhenFits :
    ∃ s, @Reachable zeroCrc anyCall s ∧ 0 ∈ s.liveFiles ∧
      (s.fileMeta 0).size < 1000 * 4194304 ∧
      ¬@GrowsWhenFits zeroCrc s steadyEnv 0 (1000 * 4194304) := by
  let _ := zeroCrc
  obtain ⟨s, reach, live, size, inside, fails⟩ := Reachable.exists_run
    [.openFile ['/', 'a'] 0o102, .truncateFd 0 (999 * 4194304 + 1)]
    (fun s => 0 ∈ s.liveFiles ∧ (s.fileMeta 0).size = 999 * 4194304 + 1 ∧
      1000 * 4194304 ≤ s.superMeta.deviceSize ∧
      (s.ftruncate steadyEnv 0 (1000 * 4194304)).toOption.any (·.2 = -1))
    (freshDevice_fresh 1000 fun _ => 0) steadyEnv_ok anyCall_sound (by decide +kernel)
  refine ⟨s, reach, live, by rw [size]; decide, ?_⟩
  rintro ⟨s', r, ran, done, _⟩
  have fit : s.Fits 0 (1000 * 4194304) := by
    refine ⟨inside, by decide, ?_, .inl (by omega)⟩
    rw [size]
    exact Nat.zero_le _
  have success := done.mpr fit
  simp [ran, Except.toOption, success] at fails

end FileSystem

end BlockFs
