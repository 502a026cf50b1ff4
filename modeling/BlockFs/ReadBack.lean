import BlockFs.Effects

namespace BlockFs.FileSystem

section Record
variable [Crc32]

/-- A device of a 64-bit size with no more data blocks than there are block locks. -/
def Covered (s : FileSystem) : Prop :=
  s.superMeta.deviceSize < 2 ^ 64 ∧ s.superMeta.currBlockNum ≤ kBlockLockNum

/-- The states of a sequential run from a fresh mount together with what was last written to the
files: all I/O succeeds, and no range of bytes wraps. -/
def Writing : FileSystem × LastWrites → Prop :=
  Transition.Recording (fun s => FreshlyMounted s ∧ s.Covered)
    (fun s e => e.env.IoOk ∧ s.InRange e.op) Step record fun _ _ => none

end Record

/-- Every byte that is remembered is in its file. -/
def Remembers (s : FileSystem) (written : LastWrites) : Prop :=
  ∀ f p v, written f p = some v → f < s.nextFile ∧
    (s.Accessible f → p < (s.fileMeta f).size ∧ s.byteOf f p = v)

section Steps
variable [Crc32] {s s' t : FileSystem} {e : Event} {lost : Lost} {written : LastWrites} {f : FilePtr}
  {n p : Nat} {r : Int}

omit [Crc32] in
theorem blocksNeeded_le (size offset : Nat) : blocksNeeded size offset ≤ offset / kBlockSize + 1 := by
  unfold blocksNeeded alignUp
  dsimp only
  rw [kBlockSize_eq]
  split <;> omega

/-- A device that the block locks cover is too small for a growth that 32 bits cannot count. -/
theorem Covered.narrowCall (covered : s.Covered) (consistent : Consistent s lost) (op : Op) :
    s.NarrowCall op := by
  intro f n _
  by_cases refused : s.superMeta.deviceSize < n
  · exact .inl refused
  · have size : s.superMeta.deviceSize = s.disk.size := by rw [consistent.super]; rfl
    obtain ⟨bounded, counted⟩ := covered
    rw [size] at bounded refused
    rw [consistent.super, SuperBlock.formatAllMeta_currBlockNum consistent.large bounded,
      show kBlockLockNum = 100000 from rfl] at counted
    have most := blocksNeeded_le (s.fileMeta f).size n
    have fits : n / kBlockSize ≤ s.disk.size / kBlockSize := Nat.div_le_div_right (by omega)
    rw [kBlockSize_eq] at counted fits most
    exact .inr (by omega)

omit [Crc32] in
theorem Covered.congr (covered : s.Covered) (same : s'.superMeta = s.superMeta) : s'.Covered := by
  rw [Covered, same]
  exact covered

omit [Crc32] in
/-- Whatever keeps the contents of the files keeps what is remembered of them. -/
theorem Remembers.carries (remembers : s.Remembers written) (carries : Carries s s') :
    s'.Remembers written := by
  intro f p v known
  obtain ⟨bound, held⟩ := remembers f p v known
  refine ⟨bound.trans_le carries.nextFile, fun reached => ?_⟩
  obtain ⟨inside, byte⟩ := held (carries.accessible f bound reached)
  rw [carries.size f bound reached, carries.bytes f bound reached p inside]
  exact ⟨inside, byte⟩

omit [Crc32] in
/-- What is remembered behind a cut is forgotten, and the rest is still in the files. -/
theorem Remembers.truncated {u : FileSystem} {env : Env} {forget : FilePtr → Nat → Bool}
    (remembers : s.Remembers written) (before : Carries s t) (recut : Recut t u env f n r)
    (behind : Carries u s')
    (past : s'.Accessible f → (s'.fileMeta f).size = n → ∀ p, n ≤ p → forget f p = true) :
    s'.Remembers fun g p => if forget g p then none else written g p := by
  intro g p v known
  dsimp only at known
  split at known
  · simp at known
  next keep =>
  obtain ⟨bound, held⟩ := (remembers.carries before) g p v known
  have bound' : g < u.nextFile := recut.nextFile ▸ bound
  refine ⟨bound'.trans_le behind.nextFile, fun reached => ?_⟩
  have reached' := behind.accessible g bound' reached
  obtain ⟨inside, byte⟩ := held (recut.accessible g reached')
  have size := behind.size g bound' reached
  by_cases other : g ≠ f
  · obtain ⟨size', bytes⟩ := recut.others g bound other
    rw [behind.bytes g bound' reached p (by omega), bytes p inside]
    exact ⟨by omega, byte⟩
  · obtain rfl := not_not.mp other
    have short : p < (u.fileMeta g).size := by
      have cut := recut.size
      by_cases done : r = 0
      · rw [if_pos done] at cut
        by_contra beyond
        exact keep (past reached (by omega) p (by omega))
      · rw [if_neg done] at cut
        omega
    rw [behind.bytes g bound' reached p short, recut.kept p inside short]
    exact ⟨by omega, byte⟩

omit [Crc32] in
/-- A write is remembered where it was made. -/
theorem Remembers.overwritten {offset len : Nat} {buffer : Nat → UInt8} (remembers : s.Remembers written)
    (overwritten : Overwritten s s' f offset len buffer) (bound : f < s.nextFile)
    (inside : offset + len ≤ (s.fileMeta f).size) : s'.Remembers fun g p =>
      (if g = f ∧ offset ≤ p ∧ p < offset + len then some (buffer (p - offset)) else none).or
        (written g p) := by
  intro g p v known
  dsimp only at known
  by_cases here : g = f ∧ offset ≤ p ∧ p < offset + len
  · rw [if_pos here, Option.some_or] at known
    obtain ⟨rfl, low, high⟩ := here
    refine ⟨overwritten.nextFile ▸ bound, fun _ => ?_⟩
    rw [overwritten.size, overwritten.put p low high]
    exact ⟨by omega, Option.some.inj known⟩
  · rw [if_neg here, Option.none_or] at known
    obtain ⟨bound', held⟩ := remembers g p v known
    refine ⟨overwritten.nextFile ▸ bound', fun reached => ?_⟩
    obtain ⟨short, byte⟩ := held ((overwritten.accessible g).mp reached)
    rw [overwritten.size, overwritten.rest g bound' p short here]
    exact ⟨short, byte⟩

/-- Every call does to the contents what is recorded of it. -/
theorem Remembers.effect (remembers : s.Remembers written) (bounds : ∀ g, s.Accessible g → g < s.nextFile)
    (effect : Effect s e s') : s'.Remembers (s.record e s' written) := by
  cases effect with
  | kept calm idle carries =>
    have same : s.record e s' written = written := by
      funext f p
      simp [record, idle f p, cuts, calm]
    rw [same]
    exact remembers.carries carries
  | @truncated f n t u _ r call idle before _ _ _ recut behind =>
    have same : s.record e s' written = fun g p => if s.cuts e s' g p then none else written g p := by
      funext g p
      rw [record, idle g p, Option.none_or]
    rw [same]
    refine remembers.truncated before recut behind fun _ size p past => ?_
    simp [cuts, call, size, past]
  | @wrote f offset len buffer t _ filled _ known inside grown overwritten =>
    have remembers' : t.Remembers fun g p => if s.cuts e s' g p then none else written g p := by
      rcases grown with ⟨calm, rfl⟩ | ⟨n, call, _, recut⟩
      · simpa [cuts, calm] using remembers
      · refine remembers.truncated (.refl s) recut (.refl t) fun _ size p past => ?_
        simp [cuts, call, overwritten.size, size, past]
    have bound : f < t.nextFile := by
      rcases grown with ⟨_, rfl⟩ | ⟨n, _, _, recut⟩
      · exact bounds f known
      · exact recut.nextFile ▸ bounds f known
    have same : s.record e s' written = fun g p =>
        (if g = f ∧ offset ≤ p ∧ p < offset + len then some (buffer (p - offset)) else none).or
          (if s.cuts e s' g p then none else written g p) := by
      funext g p
      rw [record, filled g p]
    rw [same]
    exact remembers'.overwritten overwritten bound inside

end Steps

section Run
variable [Crc32] {x : FileSystem × LastWrites} {f : FilePtr} {fd len : Nat} {offset : Int}

/-- The sequential runs from a mount of a covered device in which all I/O succeeds and no range of bytes
wraps. -/
def CoveredRun : FileSystem → Prop :=
  Transition.Reaches (fun s => FreshlyMounted s ∧ s.Covered) (fun s e => e.env.IoOk ∧ s.InRange e.op) Step

theorem CoveredRun.coherent {s : FileSystem} (run : CoveredRun s) :
    (∃ lost, Coherent s lost) ∧ s.Covered := by
  refine Transition.Reaches.invariant run (fun s => (∃ lost, Coherent s lost) ∧ s.Covered) ?_ ?_
  · rintro s ⟨fresh, covered⟩
    obtain ⟨d, env, attempts, rfl, large⟩ := fresh.eq_mounted
    exact ⟨⟨_, coherent_mounted large env attempts⟩, covered⟩
  · rintro s e s' ⟨⟨lost, coherent⟩, covered⟩ ⟨ok, range⟩ step
    obtain ⟨r, outcome⟩ :=
      step_outcome coherent ok (covered.narrowCall coherent.consistent e.op) step
    obtain ⟨lost', _, coherent'⟩ := outcome.coherent coherent
    obtain ⟨r', result⟩ := step.call
    exact ⟨⟨lost', coherent'⟩, covered.congr (call_turns result).superMeta⟩

/-- In every state of a run the files hold what the run remembers to have written. -/
theorem Writing.remembers (writing : Writing x) : x.1.Remembers x.2 := by
  refine Transition.Reaches.reached_invariant writing (fun x => x.1.Remembers x.2) ?_ ?_
  · rintro ⟨s, w⟩ ⟨_, rfl⟩
    exact fun _ _ _ known => nomatch known
  · rintro ⟨s, w⟩ e ⟨s', w'⟩ before remembers ⟨ok, range⟩ ⟨step, recorded⟩
    obtain ⟨⟨lost, coherent⟩, covered⟩ := CoveredRun.coherent (Transition.Recording.reaches before)
    obtain ⟨r, result⟩ := step.call
    have effect := call_effect coherent ok (covered.narrowCall coherent.consistent e.op) result
    rw [show w' = s.record e s' w from recorded]
    exact remembers.effect (fun g known =>
      coherent.registered.bound (known.registered coherent.registered)) effect

/-- In every run a read through an open fd returns, at each position that a `pwrite` covered and no
truncation has cut off since, the byte last written there, and it reads as much as the file has. -/
theorem pread_returns_last_writes (writing : Writing x) (opened : x.1.openedFile fd = some f)
    (range : toU64 offset + len < 2 ^ 64) (buffer : Nat → UInt8) :
    ∃ s' back, x.1.preadFile fd buffer len offset =
        .ok (s', back, ((min len ((x.1.fileMeta f).size - toU64 offset) : Nat) : Int)) ∧
      ∀ i < min len ((x.1.fileMeta f).size - toU64 offset), ∀ v,
        x.2 f (toU64 offset + i) = some v → back i = v := by
  obtain ⟨⟨lost, coherent⟩, covered⟩ := CoveredRun.coherent (Transition.Recording.reaches writing)
  have remembers := writing.remembers
  obtain ⟨s', back, run, fetched⟩ := coherent.preadFile_reads covered.2 opened range buffer
  refine ⟨s', back, run, fun i less v known => ?_⟩
  obtain ⟨_, byte⟩ := (remembers f (toU64 offset + i) v known).2 (.inl ⟨fd, opened⟩)
  exact (fetched i less).trans byte

/-- A run of calls that is followed to its end. -/
theorem Writing.exists_of_ops {s : FileSystem} {env : Env} (fresh : FreshlyMounted s) (covered : s.Covered)
    (ok : env.IoOk) (ops : List Op) (range : ∀ op ∈ ops, ∀ s : FileSystem, s.InRange op)
    (goal : FileSystem × LastWrites → Prop) [DecidablePred goal]
    (found : (Transition.runList (Transition.recorded next record) (ops.map (⟨env, ·⟩))
      (s, fun _ _ => none)).toOption.any (fun x => goal x) = true) : ∃ x, Writing x ∧ goal x := by
  refine Transition.Recording.exists_of_runList ⟨fresh, covered⟩ _ (fun e member _ _ taken => ?_) goal found
  obtain ⟨op, listed, rfl⟩ := List.mem_map.mp member
  exact ⟨⟨ok, range op listed _⟩, taken⟩

omit [Crc32] in
/-- Eight bytes across the border of two blocks, cut behind the sixth and back to the second. -/
theorem pread_returns_last_writes_cut : ∃ x, @Writing zeroCrc x ∧ x.2 0 4194302 = none ∧
    ∃ s' back, x.1.preadFile 0 (fun _ => 0) 100 4194300 = .ok (s', back, 2) ∧ back 1 = 8 := by
  let _ := zeroCrc
  obtain ⟨x, writing, opened, size, held, cut⟩ := Writing.exists_of_ops
    (freshDevice_fresh 8 fun _ => 0) (show Covered _ from ⟨by decide +kernel, by decide +kernel⟩) steadyEnv_ok
    [.openFile ['/', 'a'] 0o102, .pwrite 0 (fun i => UInt8.ofNat (i + 7)) 8 4194300,
      .truncateFd 0 4194306, .truncateFd 0 4194302]
    (by simp [InRange, toU64])
    (fun x => x.1.openedFile 0 = some 0 ∧ (x.1.fileMeta 0).size = 4194302 ∧ x.2 0 4194301 = some 8 ∧
      x.2 0 4194302 = none) (by decide +kernel)
  obtain ⟨s', back, run, fetched⟩ :=
    @pread_returns_last_writes _ x 0 0 100 4194300 writing opened (by decide) fun _ => 0
  rw [size] at run fetched
  exact ⟨x, writing, cut, s', back, run, fetched 1 (by decide) 8 held⟩

end Run

end BlockFs.FileSystem
