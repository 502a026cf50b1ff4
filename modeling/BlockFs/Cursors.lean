import BlockFs.Offsets
import BlockFs.Renaming

namespace BlockFs

/-- The bytes a call fills in, and its return value. -/
abbrev Reply := (Nat → UInt8) × Int

namespace FileSystem

/-- A call on one open file. -/
inductive FdCall
  | read (len : Nat)
  | seek (offset : Int) (whence : Whence)
  | pread (len : Nat) (offset : Int)
  | pwrite (buffer : Nat → UInt8) (len : Nat) (offset : Int)

/-- The calls that take their position from the open file. -/
def FdCall.sequential : FdCall → Bool
  | .read _ => true
  | .seek _ _ => true
  | .pread _ _ => false
  | .pwrite _ _ _ => false

/-- `ReadFile`, `SeekFile`, `PreadFile` and `PwriteFile` with what they fill in. -/
def FdCall.run [Crc32] (s : FileSystem) (env : Env) (fd : Int) :
    FdCall → Except Fault (FileSystem × Reply)
  | .read len => s.readFile fd (fun _ => 0) len
  | .seek offset whence =>
    .ok ((s.seekFile (toU64 fd) offset whence).1, fun _ => 0, (s.seekFile (toU64 fd) offset whence).2)
  | .pread len offset => s.preadFile (toU64 fd) (fun _ => 0) len offset
  | .pwrite buffer len offset => do
    let out ← s.pwriteFile env (toU64 fd) buffer len offset
    .ok (out.1, fun _ => 0, out.2)

/-- A call of a run, with the states around it and what it returned. -/
structure FdStep where
  before : FileSystem
  call : FdCall
  reply : Reply
  after : FileSystem

/-- A sequence of calls on `fd` that all return. -/
inductive FdRun [Crc32] (fd : Int) : FileSystem → List FdStep → FileSystem → Prop
  | done {s} : FdRun fd s [] s
  | next {s t u env call reply steps} (ran : call.run s env fd = .ok (t, reply))
    (rest : FdRun fd t steps u) :
    FdRun fd s ({ before := s, call := call, reply := reply, after := t } :: steps) u

/-- What a read of `len` bytes at `position` of the file returns, whatever the open file. -/
def bytesAt (s : FileSystem) (f : FilePtr) (len position : Nat) : Except Fault Reply :=
  (s.pread 0 { file := f, appendPos := 0 } (fun _ => 0) len position).map (·.2)

/-- The position a `SeekFile` goes to. -/
def Whence.target (whence : Whence) (size position : Nat) (offset : Int) : Option Int :=
  match whence with
  | .set => some offset
  | .cur => some (position + offset)
  | .endOfFile => some (size + offset)
  | .other => none

/-- The position after a call, when only the sequential ones move it: a `SeekFile` sets it and a
`ReadFile` adds what it returned. -/
def FdStep.next (step : FdStep) (view : FileSystem) (f : FilePtr) (position : Nat) : Nat :=
  match step.call with
  | .read _ => if 0 ≤ step.reply.2 then toU64 (position + step.reply.2) else position
  | .seek offset whence =>
    match whence.target (view.fileMeta f).size position offset with
    | some target => toU64 target
    | none => position
  | _ => position

/-- A `ReadFile` returns the bytes at the position, and a `SeekFile` the position it goes to. -/
def FdStep.Expected (step : FdStep) (view : FileSystem) (f : FilePtr) (position : Nat) : Prop :=
  match step.call with
  | .read len => view.bytesAt f len position = .ok step.reply
  | .seek offset whence =>
    step.reply = (fun _ => 0, match whence.target (view.fileMeta f).size position offset with
      | some target => toInt64 (toU64 target)
      | none => -1)
  | _ => True

/-- Every call of a run is as expected, where `view` says in which state the file is looked at. -/
def Sequential (view : FdStep → FileSystem) (f : FilePtr) : Nat → List FdStep → Prop
  | _, [] => True
  | position, step :: steps => step.Expected (view step) f position ∧
    Sequential view f (step.next (view step) f position) steps

/-- The reads of a run, with the positions they should be at. -/
def readsOf (f : FilePtr) : Nat → List FdStep → List (Nat × Nat)
  | _, [] => []
  | position, step :: steps =>
    let later := readsOf f (step.next step.before f position) steps
    match step.call with
    | .read len => (len, position) :: later
    | _ => later

/-- No `PwriteFile` of a run changes bytes that the run reads, or the size when the run seeks from
the end. -/
def KeepsWhatIsRead (f : FilePtr) (position : Nat) (steps : List FdStep) : Prop :=
  ∀ step ∈ steps, ∀ buffer len offset, step.call = .pwrite buffer len offset →
    (∀ place ∈ readsOf f position steps,
      step.after.bytesAt f place.1 place.2 = step.before.bytesAt f place.1 place.2) ∧
    ((∃ other ∈ steps, ∃ offset, other.call = .seek offset .endOfFile) →
      (step.after.fileMeta f).size = (step.before.fileMeta f).size)

/-- `ExtendFile` gives up: the size is beyond the device, the pool is short, or there is no file
block with enough entries left. -/
def RefusesGrowth (s : FileSystem) (f : FilePtr) (n : Nat) : Prop :=
  s.superMeta.deviceSize < n ∨ s.blockIdPool.length < numBlocksNeeded (s.fileMeta f).size n ∨
  ∀ b, (if (s.fileMeta f).size = 0 then s.freeFbhs.head?
      else s.getFileBlock f ((s.files f).itemMaps.entries.length - 1)) = some b →
    (s.fileBlockMetas b).usedBlockNum = kFileBlockCapacity ∨
      ((s.fileBlockMetas b).usedBlockNum ≤ kFileBlockCapacity ∧ kFileBlockCapacity <
        (s.fileBlockMetas b).usedBlockNum + numBlocksNeeded (s.fileMeta f).size n)

/-- The call is sequential or has nothing to transfer: the length is 0, a read starts behind the end of
the file, or a write asks for a growth that is refused. -/
def FdStep.Idle (step : FdStep) (f : FilePtr) : Prop :=
  match step.call with
  | .pread len offset => len = 0 ∨ (step.before.fileMeta f).size ≤ toU64 offset
  | .pwrite _ len offset => len = 0 ∨
    ((step.before.fileMeta f).size < (toU64 offset + len) % 2 ^ 64 ∧
      step.before.RefusesGrowth f ((toU64 offset + len) % 2 ^ 64))
  | _ => True

/-- The call depends on where the cursor is. -/
def FdStep.Relative (step : FdStep) : Prop :=
  (∃ len, step.call = .read len) ∨ ∃ offset, step.call = .seek offset .cur

/-- The call puts the cursor somewhere wherever it was. -/
def FdStep.Absolute (step : FdStep) : Prop :=
  ∃ offset, step.call = .seek offset .set ∨ step.call = .seek offset .endOfFile

/-- Between a `PreadFile` or `PwriteFile` that transfers something and the next `ReadFile` or `SEEK_CUR`
there is a `SEEK_SET` or `SEEK_END`. `clean` says that this holds of the next call. -/
def Repositions (f : FilePtr) : Prop → List FdStep → Prop
  | _, [] => True
  | clean, step :: steps => (step.Relative → clean) ∧
    Repositions f (step.Absolute ∨ (clean ∧ step.Idle f)) steps

/-- The sequential calls of a run. -/
def sequentialSteps (steps : List FdStep) : List FdStep := steps.filter (·.call.sequential)

section Refusal
variable [Crc32] {s t : FileSystem} {env : Env} {f : FilePtr} {n : Nat} {r : Int}

theorem extendBlocks_refused {needed : Nat} {b : FileBlockPtr} {isNew : Bool}
    (short : s.blockIdPool.length < needed ∨ ((s.fileBlockMetas b).usedBlockNum ≤ kFileBlockCapacity ∧
      kFileBlockCapacity < (s.fileBlockMetas b).usedBlockNum + needed)) :
    (s.extendBlocks env f n needed b isNew).2 = -1 := by
  have needs : 0 < needed := by omega
  by_cases few : s.blockIdPool.length < needed
  · rw [extendBlocks_short needs few]
  · obtain ⟨bounded, overflow⟩ := short.resolve_left few
    have used : (s.targetSlot f b isNew).usedBlockNum = (s.fileBlockMetas b).usedBlockNum := by
      unfold targetSlot
      split <;> rfl
    have length : ((env.order s.blockIdPool).take needed).length = needed := by
      rw [List.length_take, (env.order_perm s.blockIdPool).length_eq]
      omega
    have full := FileBlockMeta.fill_of_overflow (m := s.targetSlot f b isNew)
      ((env.order s.blockIdPool).take needed) (by omega) (by omega)
    rw [extendBlocks_overfull needs (by omega) (Prod.ext rfl full.1)]

theorem RefusesGrowth.extendFile (refuses : s.RefusesGrowth f n)
    (result : s.extendFile env f n = .ok (t, r)) : r = -1 := by
  unfold FileSystem.extendFile at result
  by_cases large : s.superMeta.deviceSize < n
  · rw [if_pos large] at result
    exact (Prod.mk.inj (Except.ok.inj result)).2.symm
  rw [if_neg large] at result
  have refuses := refuses.resolve_left large
  dsimp only at result
  by_cases empty : (s.fileMeta f).size = 0
  · rw [if_pos empty] at result
    split at result
    · simp at result
    obtain ⟨⟨u, found⟩, taken, result⟩ := Except.bind_eq_ok.mp result
    unfold getFileBlockLock at taken
    cases free : s.freeFbhs with
    | nil =>
      rw [free] at taken
      obtain ⟨rfl, rfl⟩ := Prod.mk.inj (Except.ok.inj taken)
      exact (Prod.mk.inj (Except.ok.inj result)).2.symm
    | cons b rest =>
      rw [free] at taken
      dsimp only at taken
      split at taken
      · simp at taken
      split at taken
      · simp at taken
      next zero =>
      obtain ⟨rfl, rfl⟩ := Prod.mk.inj (Except.ok.inj taken)
      have last := (Prod.mk.inj (Except.ok.inj result)).2
      rw [← last]
      refine extendBlocks_refused (refuses.imp_right fun short => ?_)
      rw [if_pos empty, free] at short
      refine (short b rfl).resolve_left fun full => ?_
      rw [show kFileBlockCapacity = 1000 from rfl] at full
      omega
  · rw [if_neg empty] at result
    split at result
    · simp at result
    cases found : s.getFileBlock f ((s.files f).itemMaps.entries.length - 1) with
    | none =>
      rw [found] at result
      exact (Prod.mk.inj (Except.ok.inj result)).2.symm
    | some b =>
      rw [found] at result
      dsimp only at result
      by_cases full : (s.fileBlockMetas b).isBlockFull = true
      · rw [if_pos full] at result
        exact (Prod.mk.inj (Except.ok.inj result)).2.symm
      · rw [if_neg full] at result
        have last := (Prod.mk.inj (Except.ok.inj result)).2
        rw [← last]
        refine extendBlocks_refused (refuses.imp_right fun short => ?_)
        rw [if_neg empty, found] at short
        refine (short b rfl).resolve_left fun used => full ?_
        simp [FileBlockMeta.isBlockFull, used]

end Refusal

/-- The file of `fd`, and where its cursor is as long as nothing has moved it out of turn. -/
def HoldsCursor (s : FileSystem) (fd : Nat) (f : FilePtr) (clean : Prop) (position : Nat) : Prop :=
  ∃ o, s.openFiles.lookup fd = some o ∧ o.file = f ∧ o.appendPos < 2 ^ 64 ∧
    (clean → o.appendPos = position)

section Calls
variable {s t : FileSystem} {fd len position : Nat} {f : FilePtr} {o : OpenFile}
  {buffer back : Nat → UInt8} {r : Int} {clean : Prop}

theorem readBlocks_nonneg {d : Disk} {blocks : List BlockData}
    (done : readBlocks d blocks buffer = .ok (back, r)) : 0 ≤ r := by
  induction blocks generalizing buffer back r with
  | nil => exact (Prod.mk.inj (Except.ok.inj done)).2.le
  | cons block blocks ih =>
    unfold readBlocks at done
    split at done
    · simp at done
    dsimp only at done
    split at done
    · exact (Prod.mk.inj (Except.ok.inj done)).2.le
    obtain ⟨⟨next, rest⟩, later, last⟩ := Except.bind_eq_ok.mp done
    obtain ⟨_, rfl⟩ := Prod.mk.inj (Except.ok.inj last)
    have := ih later
    omega

/-- What a read returns depends on the file behind the open file only. -/
theorem pread_bytesAt : (s.pread fd o (fun _ => 0) len position).map (·.2) =
    s.bytesAt o.file len position := by
  have moved (n : Nat) : (s.readData fd o (fun _ => 0) n position).map (·.2) =
      (s.readData 0 { file := o.file, appendPos := 0 } (fun _ => 0) n position).map (·.2) := by
    rw [readData, readData]
    cases s.getFileBlock o.file 0 with
    | none => rfl
    | some b =>
      dsimp only
      cases planTransfer s.superMeta (s.fileBlockMetas b) n position with
      | error e => rfl
      | ok plan =>
        rw [Except.ok_bind, Except.ok_bind]
        cases readBlocks s.disk plan fun _ => 0 with
        | error e => rfl
        | ok result => rfl
  unfold bytesAt pread
  dsimp only
  by_cases past : len = 0 ∨ (s.fileMeta o.file).size ≤ position
  · rw [if_pos past, if_pos past]
  · rw [if_neg past, if_neg past, moved]

/-- A read leaves the state alone or moves the open file by what it returns. -/
theorem pread_moves (result : s.pread fd o buffer len position = .ok (t, back, r)) :
    (t = s ∧ r ≤ 0) ∨ (0 ≤ r ∧ t = s.advance fd o r) := by
  unfold pread at result
  dsimp only at result
  split at result
  · obtain ⟨rfl, last⟩ := Prod.mk.inj (Except.ok.inj result)
    exact .inl ⟨rfl, (Prod.mk.inj last).2.ge⟩
  · unfold readData at result
    split at result
    · obtain ⟨rfl, last⟩ := Prod.mk.inj (Except.ok.inj result)
      refine .inl ⟨rfl, ?_⟩
      have := (Prod.mk.inj last).2
      omega
    · obtain ⟨plan, _, result⟩ := Except.bind_eq_ok.mp result
      obtain ⟨⟨_, moved⟩, reads, result⟩ := Except.bind_eq_ok.mp result
      obtain ⟨rfl, last⟩ := Prod.mk.inj (Except.ok.inj result)
      obtain ⟨_, rfl⟩ := Prod.mk.inj last
      exact .inr ⟨readBlocks_nonneg reads, rfl⟩

theorem pread_idle (idle : len = 0 ∨ (s.fileMeta o.file).size ≤ position)
    (result : s.pread fd o buffer len position = .ok (t, back, r)) : t = s := by
  unfold pread at result
  dsimp only at result
  rw [if_pos idle] at result
  exact (Prod.mk.inj (Except.ok.inj result)).1.symm

theorem advance_keepsContent (moved : Int) (g : FilePtr) : s.KeepsContent (s.advance fd o moved) g :=
  keepsContent_of_parts rfl rfl rfl rfl rfl rfl

theorem KeepsContent.bytesAt (keeps : s.KeepsContent t f) (len position : Nat) :
    t.bytesAt f len position = s.bytesAt f len position :=
  keeps.2 0 { file := f, appendPos := 0 } _ len position rfl

end Calls

theorem FdStep.at_rest {step : FdStep} {f : FilePtr} {clean : Prop}
    (kind : ∀ offset, step.call ≠ .seek offset .set ∧ step.call ≠ .seek offset .endOfFile)
    (still : step.Absolute ∨ (clean ∧ step.Idle f)) : clean ∧ step.Idle f := by
  refine still.resolve_left ?_
  rintro ⟨offset, set_ | ends⟩
  · exact (kind offset).1 set_
  · exact (kind offset).2 ends

section CallSteps
variable [Crc32] {s t : FileSystem} {env : Env} {fd : Int} {len position : Nat} {f : FilePtr}
  {o : OpenFile} {buffer : Nat → UInt8} {offset r : Int} {reply : Reply} {clean : Prop}

/-- A write with nothing to transfer leaves the open files alone. -/
theorem pwrite_idle {slot start : Nat} (idle : len = 0 ∨
      ((s.fileMeta o.file).size < (start + len) % 2 ^ 64 ∧
        s.RefusesGrowth o.file ((start + len) % 2 ^ 64)))
    (result : s.pwrite env slot o buffer len start = .ok (t, r)) : t.openFiles = s.openFiles := by
  unfold pwrite at result
  by_cases empty : len = 0
  · rw [if_pos empty] at result
    rw [(Prod.mk.inj (Except.ok.inj result)).1]
  obtain ⟨grows, refuses⟩ := idle.resolve_left empty
  rw [if_neg empty, if_pos grows] at result
  obtain ⟨⟨u, ret⟩, grown, result⟩ := Except.bind_eq_ok.mp result
  have opens : u.openFiles = s.openFiles := congrArg Outer.openFiles (ftruncate_outer grown)
  rw [ftruncate, if_pos grows] at grown
  obtain rfl := refuses.extendFile grown
  rw [← (Prod.mk.inj (Except.ok.inj result)).1]
  exact opens

/-- Wherever a write leaves the cursor, the open file stays on its file. -/
theorem pwrite_holds (opened : s.openFiles.lookup (toU64 fd) = some o) (small : o.appendPos < 2 ^ 64)
    {start : Nat} (result : s.pwrite env (toU64 fd) o buffer len start = .ok (t, r)) :
    t.HoldsCursor (toU64 fd) o.file False position := by
  cases pwrite_written result with
  | kept => exact ⟨o, opened, rfl, small, nofun⟩
  | failed grown =>
    refine ⟨o, ?_, rfl, small, nofun⟩
    rw [show t.openFiles = s.openFiles from congrArg Outer.openFiles (ftruncate_outer grown)]
    exact opened
  | written grown data moved =>
    exact ⟨_, AList.lookup_insert _, rfl, toU64_lt _, nofun⟩

/-- One call: what comes back is as expected unless it depends on a cursor that was moved, and the
cursor follows unless this call moves it out of turn. -/
theorem FdCall.run_step {call : FdCall} (holds : s.HoldsCursor (toU64 fd) f clean position)
    (ran : call.run s env fd = .ok (t, reply)) {step : FdStep}
    (same : step = { before := s, call := call, reply := reply, after := t })
    (relative : step.Relative → clean) :
    step.Expected s f position ∧
      t.HoldsCursor (toU64 fd) f (step.Absolute ∨ (clean ∧ step.Idle f)) (step.next s f position) := by
  obtain ⟨o, opened, rfl, small, placed⟩ := holds
  have found := getOpenFile_of_lookup opened
  cases call with
  | read len =>
    have here := placed (relative (.inl ⟨len, by rw [same]⟩))
    subst here
    rw [FdCall.run, readFile, found] at ran
    dsimp only at ran
    obtain ⟨back, r⟩ := reply
    have answer := @pread_bytesAt s (toU64 fd) len o.appendPos o
    rw [ran] at answer
    subst same
    refine ⟨answer.symm, ?_⟩
    rcases pread_moves ran with ⟨rfl, none_⟩ | ⟨counted, rfl⟩
    · refine ⟨o, opened, rfl, small, fun _ => ?_⟩
      simp only [FdStep.next]
      split
      · have zero : r = 0 := by omega
        rw [zero, toU64]
        omega
      · rfl
    · refine ⟨_, AList.lookup_insert _, rfl, toU64_lt _, fun _ => ?_⟩
      simp only [FdStep.next]
      rw [if_pos counted]
  | seek offset whence =>
    rw [FdCall.run, seekFile, found] at ran
    obtain ⟨rfl, rfl⟩ := Prod.mk.inj (Except.ok.inj ran)
    subst same
    cases whence with
    | set => exact ⟨rfl, _, AList.lookup_insert _, rfl, toU64_lt _, fun _ => rfl⟩
    | cur =>
      have here := placed (relative (.inr ⟨offset, rfl⟩))
      subst here
      exact ⟨rfl, _, AList.lookup_insert _, rfl, toU64_lt _, fun _ => rfl⟩
    | endOfFile => exact ⟨rfl, _, AList.lookup_insert _, rfl, toU64_lt _, fun _ => rfl⟩
    | other =>
      exact ⟨rfl, o, opened, rfl, small, fun still => placed (FdStep.at_rest (by simp) still).1⟩
  | pread len offset =>
    rw [FdCall.run, preadFile, found] at ran
    dsimp only at ran
    obtain ⟨back, r⟩ := reply
    subst same
    refine ⟨trivial, ?_⟩
    by_cases idle : len = 0 ∨ (s.fileMeta o.file).size ≤ toU64 offset
    · obtain rfl := pread_idle idle ran
      exact ⟨o, opened, rfl, small, fun still => placed (FdStep.at_rest (by simp) still).1⟩
    · rcases pread_moves ran with ⟨rfl, _⟩ | ⟨_, rfl⟩
      · exact ⟨o, opened, rfl, small, fun still => absurd (FdStep.at_rest (by simp) still).2 idle⟩
      · exact ⟨_, AList.lookup_insert _, rfl, toU64_lt _,
          fun still => absurd (FdStep.at_rest (by simp) still).2 idle⟩
  | pwrite buffer len offset =>
    rw [FdCall.run, pwriteFile, found] at ran
    obtain ⟨⟨u, r⟩, wrote, ran⟩ := Except.bind_eq_ok.mp ran
    obtain ⟨rfl, rfl⟩ := Prod.mk.inj (Except.ok.inj ran)
    subst same
    refine ⟨trivial, ?_⟩
    by_cases idle : len = 0 ∨ ((s.fileMeta o.file).size < (toU64 offset + len) % 2 ^ 64 ∧
        s.RefusesGrowth o.file ((toU64 offset + len) % 2 ^ 64))
    · have opens := pwrite_idle idle wrote
      exact ⟨o, opens ▸ opened, rfl, small, fun still => placed (FdStep.at_rest (by simp) still).1⟩
    · have wrote : u.HoldsCursor (toU64 fd) o.file False position := pwrite_holds opened small wrote
      obtain ⟨o', opened', file, small', _⟩ := wrote
      exact ⟨o', opened', file, small', fun still => absurd (FdStep.at_rest (by simp) still).2 idle⟩

/-- Only a `PwriteFile` changes what reads return. -/
theorem FdCall.run_keeps {call : FdCall} (opened : s.openFiles.lookup (toU64 fd) = some o)
    (ran : call.run s env fd = .ok (t, reply))
    (kind : ∀ buffer len offset, call ≠ .pwrite buffer len offset) (g : FilePtr) :
    s.KeepsContent t g := by
  have found := getOpenFile_of_lookup opened
  have reading {len position : Nat} (ran : s.pread (toU64 fd) o (fun _ => 0) len position = .ok (t, reply)) :
      s.KeepsContent t g := by
    rcases pread_moves ran with ⟨rfl, _⟩ | ⟨_, rfl⟩
    · exact ⟨rfl, fun _ _ _ _ _ _ => rfl⟩
    · exact advance_keepsContent _ g
  cases call with
  | read len =>
    rw [FdCall.run, readFile, found] at ran
    exact reading ran
  | seek offset whence =>
    rw [FdCall.run, seekFile, found] at ran
    rw [← (Prod.mk.inj (Except.ok.inj ran)).1]
    cases whence <;> exact keepsContent_of_parts rfl rfl rfl rfl rfl rfl
  | pread len offset =>
    rw [FdCall.run, preadFile, found] at ran
    exact reading ran
  | pwrite buffer len offset => exact absurd rfl (kind buffer len offset)

end CallSteps

section Sequences
variable [Crc32] {s u base : FileSystem} {fd : Int} {position : Nat} {f : FilePtr} {clean : Prop}
  {steps steps' : List FdStep}

/-- Calls that reposition the cursor after every transfer at a position of its own are sequential. -/
theorem FdRun.sequential (run : FdRun fd s steps u) (holds : s.HoldsCursor (toU64 fd) f clean position)
    (repositions : Repositions f clean steps) : Sequential (·.before) f position steps := by
  induction run generalizing clean position with
  | done => trivial
  | next ran rest ih =>
    obtain ⟨relative, later⟩ := repositions
    obtain ⟨expected, follows⟩ := FdCall.run_step holds ran rfl relative
    exact ⟨expected, ih follows later⟩

/-- `fd` stays open on its file, wherever the cursor is. -/
theorem FdCall.run_opened {t : FileSystem} {env : Env} {call : FdCall} {reply : Reply}
    (holds : s.HoldsCursor (toU64 fd) f False position) (ran : call.run s env fd = .ok (t, reply)) :
    t.HoldsCursor (toU64 fd) f False position := by
  obtain ⟨o, opened, file, small, _⟩ := holds
  obtain ⟨_, o', opened', file', small', _⟩ := FdCall.run_step
    (show s.HoldsCursor (toU64 fd) f True o.appendPos from ⟨o, opened, file, small, fun _ => rfl⟩) ran
    rfl fun _ => trivial
  exact ⟨o', opened', file', small', False.elim⟩

omit [Crc32] in
/-- What a call should answer depends on the bytes it reads, and on the size when it seeks from the
end. -/
theorem FdStep.expected_congr {step : FdStep} {view : FileSystem}
    (bytes : ∀ len, step.call = .read len → view.bytesAt f len position = base.bytesAt f len position)
    (size : ∀ offset, step.call = .seek offset .endOfFile →
      (view.fileMeta f).size = (base.fileMeta f).size) :
    (step.Expected view f position ↔ step.Expected base f position) ∧
      step.next view f position = step.next base f position := by
  obtain ⟨before, call, reply, after⟩ := step
  cases call with
  | read len =>
    have here := bytes len rfl
    exact ⟨by simp only [FdStep.Expected, here], rfl⟩
  | seek offset whence =>
    cases whence with
    | endOfFile =>
      have here := size offset rfl
      simp only [FdStep.Expected, FdStep.next, Whence.target, here, and_self]
    | set => exact ⟨Iff.rfl, rfl⟩
    | cur => exact ⟨Iff.rfl, rfl⟩
    | other => exact ⟨Iff.rfl, rfl⟩
  | pread len offset => exact ⟨Iff.rfl, rfl⟩
  | pwrite buffer len offset => exact ⟨Iff.rfl, rfl⟩

omit [Crc32] in
theorem mem_readsOf_head {step : FdStep} {len : Nat} (kind : step.call = .read len) :
    (len, position) ∈ readsOf f position (step :: steps) := by
  rw [readsOf, kind]
  exact List.mem_cons_self

omit [Crc32] in
theorem mem_readsOf_tail {step : FdStep} {place : Nat × Nat}
    (later : place ∈ readsOf f (step.next step.before f position) steps) :
    place ∈ readsOf f position (step :: steps) := by
  rw [readsOf]
  split
  · exact List.mem_cons_of_mem _ later
  · exact later

/-- In a run whose writes keep what it reads, every call answers as if the file were as in `base`. -/
theorem FdRun.unchanged {places : List (Nat × Nat)} {ends : Prop} (run : FdRun fd s steps u)
    (holds : s.HoldsCursor (toU64 fd) f False 0)
    (follows : Sequential (·.before) f position steps)
    (reads : ∀ place ∈ readsOf f position steps, place ∈ places)
    (seeks : ∀ step ∈ steps, ∀ offset, step.call = .seek offset .endOfFile → ends)
    (keeps : ∀ step ∈ steps, ∀ buffer len offset, step.call = .pwrite buffer len offset →
      (∀ place ∈ places,
        step.after.bytesAt f place.1 place.2 = step.before.bytesAt f place.1 place.2) ∧
      (ends → (step.after.fileMeta f).size = (step.before.fileMeta f).size))
    (bytes : ∀ place ∈ places, s.bytesAt f place.1 place.2 = base.bytesAt f place.1 place.2)
    (size : ends → (s.fileMeta f).size = (base.fileMeta f).size) :
    Sequential (fun _ => base) f position steps := by
  induction run generalizing position with
  | done => trivial
  | @next s t u env call reply steps ran rest ih =>
    obtain ⟨expected, follows⟩ := follows
    obtain ⟨answers, moves⟩ := @FdStep.expected_congr base position f
      { before := s, call := call, reply := reply, after := t } s
      (fun len kind => bytes _ (reads _ (mem_readsOf_head kind)))
      (fun offset kind => size (seeks _ List.mem_cons_self offset kind))
    refine ⟨answers.mp expected, ?_⟩
    rw [← moves]
    have kept : (∀ place ∈ places, t.bytesAt f place.1 place.2 = s.bytesAt f place.1 place.2) ∧
        (ends → (t.fileMeta f).size = (s.fileMeta f).size) := by
      by_cases writes : ∃ buffer len offset, call = .pwrite buffer len offset
      · obtain ⟨buffer, len, offset, kind⟩ := writes
        exact keeps _ List.mem_cons_self buffer len offset kind
      · push Not at writes
        obtain ⟨o, opened, _⟩ := holds
        have content := FdCall.run_keeps opened ran writes f
        exact ⟨fun place _ => content.bytesAt place.1 place.2, fun _ => content.1⟩
    exact ih (FdCall.run_opened holds ran) follows
      (fun place later => reads place (mem_readsOf_tail later))
      (fun step later => seeks step (List.mem_cons_of_mem _ later))
      (fun step later => keeps step (List.mem_cons_of_mem _ later))
      (fun place member => (kept.1 place member).trans (bytes place member))
      (fun seen => (kept.2 seen).trans (size seen))

omit [Crc32] in
theorem FdStep.next_positional {step : FdStep} (kind : step.call.sequential = false) (view : FileSystem) :
    step.next view f position = position := by
  obtain ⟨before, call, reply, after⟩ := step
  cases call with
  | read len => simp [FdCall.sequential] at kind
  | seek offset whence => simp [FdCall.sequential] at kind
  | pread len offset => rfl
  | pwrite buffer len offset => rfl

omit [Crc32] in
/-- Positional calls can be left out. -/
theorem Sequential.without (follows : Sequential (fun _ => base) f position steps) :
    Sequential (fun _ => base) f position (sequentialSteps steps) := by
  induction steps generalizing position with
  | nil => trivial
  | cons step steps ih =>
    obtain ⟨expected, follows⟩ := follows
    cases kind : step.call.sequential with
    | true =>
      rw [sequentialSteps, List.filter_cons_of_pos (by simp [kind])]
      exact ⟨expected, ih follows⟩
    | false =>
      rw [sequentialSteps, List.filter_cons_of_neg (by simp [kind])]
      rw [FdStep.next_positional kind] at follows
      exact ih follows

omit [Crc32] in
theorem FdStep.expected_unique {step step' : FdStep} (kind : step.call.sequential = true)
    (same : step.call = step'.call) (expected : step.Expected base f position)
    (expected' : step'.Expected base f position) : step.reply = step'.reply := by
  obtain ⟨before, call, reply, after⟩ := step
  obtain ⟨before', call', reply', after'⟩ := step'
  obtain rfl : call = call' := same
  cases call with
  | read len => exact Except.ok.inj (expected.symm.trans expected')
  | seek offset whence => exact expected.trans expected'.symm
  | pread len offset => simp [FdCall.sequential] at kind
  | pwrite buffer len offset => simp [FdCall.sequential] at kind

omit [Crc32] in
/-- What a file that stays as it is answers depends on the sequential calls alone. -/
theorem Sequential.unique (first : Sequential (fun _ => base) f position steps)
    (second : Sequential (fun _ => base) f position steps')
    (same : (sequentialSteps steps).map (·.call) = (sequentialSteps steps').map (·.call)) :
    (sequentialSteps steps).map (·.reply) = (sequentialSteps steps').map (·.reply) := by
  have kinds : ∀ step ∈ sequentialSteps steps, step.call.sequential = true :=
    fun step member => (List.mem_filter.mp member).2
  replace first := first.without
  replace second := second.without
  generalize sequentialSteps steps = left at first same kinds ⊢
  generalize sequentialSteps steps' = right at second same ⊢
  induction left generalizing position right with
  | nil =>
    rw [List.map_eq_nil_iff.mp same.symm]
  | cons step left ih =>
    cases right with
    | nil => simp at same
    | cons step' right =>
      obtain ⟨call, calls⟩ := List.cons.inj same
      have reply := FdStep.expected_unique (kinds step List.mem_cons_self) call first.1 second.1
      have next : step.next base f position = step'.next base f position := by
        simp only [FdStep.next, call, reply]
      have second := second.2
      rw [← next] at second
      exact List.cons_eq_cons.mpr ⟨reply, ih first.2
        (fun other member => kinds other (List.mem_cons_of_mem _ member)) right second calls⟩

omit [Crc32] in
theorem exists_of_toOption {α : Type} {x : Except Fault α} {p : α → Bool}
    (holds : x.toOption.any p = true) : ∃ y, x = .ok y ∧ p y = true := by
  cases x with
  | error => simp [Except.toOption] at holds
  | ok y => exact ⟨y, rfl, holds⟩

end Sequences

end FileSystem

end BlockFs
