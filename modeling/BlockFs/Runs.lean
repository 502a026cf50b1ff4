import BlockFs.Calls
import BlockFs.Transfer

namespace BlockFs.FileSystem

section Leaking
variable {s t : FileSystem} {f : FilePtr} {n : Nat}

theorem SameSides.symm (same : SameSides s t) : SameSides t s := ⟨same.fileSide.symm, same.dirSide.symm⟩

theorem SameSides.fileMeta (same : SameSides s t) : t.fileMeta f = s.fileMeta f := by
  have files : t.files = s.files := congrArg FileSide.files same.fileSide
  have metas : t.fileMetas = s.fileMetas := congrArg FileSide.fileMetas same.fileSide
  rw [FileSystem.fileMeta, FileSystem.fileMeta, files, metas]

theorem SameSides.superMeta (same : SameSides s t) : t.superMeta = s.superMeta :=
  congrArg FileSide.superMeta same.fileSide

theorem SameSides.found (same : SameSides s t) {b : FileBlockPtr} {isNew : Bool}
    {rest : List FileBlockPtr} (found : Found s f b isNew rest) : Found t f b isNew rest := by
  have files : t.files = s.files := congrArg FileSide.files same.fileSide
  have slots : t.fileBlockMetas = s.fileBlockMetas := congrArg FileSide.fileBlockMetas same.fileSide
  have free : t.freeFbhs = s.freeFbhs := congrArg FileSide.freeFbhs same.fileSide
  have slot : t.fileMeta f = s.fileMeta f := same.fileMeta
  cases found with
  | new size entries head => exact .new (slot ▸ size) (files ▸ entries) (free ▸ head)
  | old size entries room =>
    rw [← free]
    exact .old (slot ▸ size) (files ▸ entries) (slots ▸ room)

theorem SameSides.leaks_of (same : SameSides s t) (leaks : s.Leaks f n) : t.Leaks f n := by
  have slots : t.fileBlockMetas = s.fileBlockMetas := congrArg FileSide.fileBlockMetas same.fileSide
  have free : t.freeFbhs = s.freeFbhs := congrArg FileSide.freeFbhs same.fileSide
  have freeFhs : t.freeFhs = s.freeFhs := congrArg FileSide.freeFhs same.fileSide
  have pool : t.blockIdPool = s.blockIdPool := congrArg FileSide.blockIdPool same.fileSide
  have dirs : t.createdDhs = s.createdDhs := congrArg DirSide.createdDhs same.dirSide
  have slot : t.fileMeta f = s.fileMeta f := same.fileMeta
  rcases leaks with ⟨grows, b, isNew, rest, found, enough, overflow⟩ | ⟨shrinks, loses⟩
  · refine .inl ⟨slot ▸ grows, b, isNew, rest, same.found found, ?_, ?_⟩
    · rw [slot, pool]
      exact enough
    · rw [slot, slots]
      exact overflow
  · refine .inr ⟨slot ▸ shrinks, ?_⟩
    rw [LosesFileBlock, freeFhs, free, pool, dirs, slot]
    exact loses

theorem SameSides.leaks (same : SameSides s t) : t.Leaks f n ↔ s.Leaks f n :=
  ⟨same.symm.leaks_of, same.leaks_of⟩

end Leaking

/-- The call truncates and gives up with blocks or a file block in hand. -/
def LeaksCall (s : FileSystem) (op : Op) : Prop :=
  ∃ f n, s.ftruncateCall op = some (f, n) ∧ s.Leaks f n

section Run
variable [Crc32] {s s' : FileSystem} {env : Env} {lost : Lost} {op : Op} {r : Int}

omit [Crc32] in
/-- The bytes of data blocks concern neither the accounts nor the indices. -/
theorem stored_coherent [Crc32] (coherent : Coherent s lost) (data : Nat → UInt8) :
    Coherent (s.stored data) lost where
  consistent := coherent.consistent.congr
    { layout := ⟨rfl, rfl, rfl, rfl⟩
      nextFile := rfl
      freeFhs := rfl
      freeFbhs := rfl
      blockIdPool := rfl
      fileBlockMetas := rfl
      metaSlot := fun _ => rfl
      itemMaps := fun _ => rfl
      fh := fun _ => rfl
      size := fun _ => rfl
      used := fun _ => rfl
      isTemp := fun _ => rfl }
  registered :=
    { live := coherent.registered.live
      slots := coherent.registered.slots
      names := coherent.registered.names
      opens := coherent.registered.opens
      links := coherent.registered.links
      held := coherent.registered.held }
  housed := (coherent.housed.of_dirSide (show (s.stored data).dirSide = s.dirSide from rfl)).housed
  placed := coherent.placed
  alive := coherent.alive

/-- Every call keeps a file system coherent, and loses blocks and file blocks only where it leaks. -/
theorem Outcome.coherent (coherent : Coherent s lost) (outcome : Outcome s env op s' r) :
    ∃ lost', (¬s.LeaksCall op → lost'.fbhs = lost.fbhs ∧ lost'.ids = lost.ids) ∧
      Coherent s' lost' := by
  cases outcome with
  | plain _ path => exact ⟨lost, fun _ => ⟨rfl, rfl⟩, coherent_of_changes coherent path⟩
  | @truncated f n t u _ r' _ call same known truncation path _ =>
    have coherent' := same.coherent coherent
    obtain ⟨lost', _, kept, after⟩ :=
      truncation.coherent coherent' (known.registered coherent'.registered)
    refine ⟨lost', fun tight => kept fun leaks => tight ?_, coherent_of_changes after path⟩
    exact ⟨f, n, call, same.leaks.mp leaks⟩
  | @wrote fd buffer len offset f b blocks t u data _ _ opened _ grown _ _ _ quiet homes =>
    have settle {lost' : Lost} (before : Coherent t lost') : Coherent (u.stored data) lost' :=
      stored_coherent (quiet.coherent before (before.housed.of_dirSide homes)) data
    rcases grown with ⟨_, rfl⟩ | ⟨n, call, truncation⟩
    · exact ⟨lost, fun _ => ⟨rfl, rfl⟩, settle coherent⟩
    · obtain ⟨lost', _, kept, after⟩ :=
        truncation.coherent coherent (coherent.registered.opens fd f opened)
      exact ⟨lost', fun tight => kept fun leaks => tight ⟨f, n, call, leaks⟩, settle after⟩

theorem step_outcome (coherent : Coherent s lost) {e : Event} (ok : e.env.IoOk)
    (narrow : s.NarrowCall e.op) (step : Step s e s') : ∃ r, Outcome s e.env e.op s' r := by
  obtain ⟨_, result⟩ := step.call
  exact ⟨_, call_outcome coherent ok narrow result⟩

/-- Every state of a run is coherent. -/
theorem Reachable.coherent (reach : Reachable NarrowCall s) : ∃ lost, Coherent s lost := by
  refine reach.invariant (fun s => ∃ lost, Coherent s lost) (fun s fresh => ?_)
    fun s e s' hyp guard step => ?_
  · obtain ⟨d, env, attempts, rfl, large⟩ := fresh.eq_mounted
    exact ⟨_, coherent_mounted large env attempts⟩
  · obtain ⟨lost, coherent⟩ := hyp
    obtain ⟨r, outcome⟩ := step_outcome coherent guard.1 guard.2 step
    obtain ⟨lost', _, after⟩ := outcome.coherent coherent
    exact ⟨lost', after⟩

/-- In a run without leaking calls no block and no file block is lost. -/
theorem Reachable.tight (reach : Reachable (fun s op => s.NarrowCall op ∧ ¬s.LeaksCall op) s) :
    ∃ lost, Coherent s lost ∧ lost.fbhs = 0 ∧ lost.ids = 0 := by
  refine reach.invariant (fun s => ∃ lost, Coherent s lost ∧ lost.fbhs = 0 ∧ lost.ids = 0)
    (fun s fresh => ?_) fun s e s' hyp guard step => ?_
  · obtain ⟨d, env, attempts, rfl, large⟩ := fresh.eq_mounted
    exact ⟨_, coherent_mounted large env attempts, rfl, rfl⟩
  · obtain ⟨lost, coherent, fbhs, ids⟩ := hyp
    obtain ⟨r, outcome⟩ := step_outcome coherent guard.1 guard.2.1 step
    obtain ⟨lost', kept, after⟩ := outcome.coherent coherent
    obtain ⟨sameFbhs, sameIds⟩ := kept guard.2.2
    exact ⟨lost', after, sameFbhs.trans fbhs, sameIds.trans ids⟩

end Run

section Concrete

/-- Makes the calls one after the other, as long as each passes the check and none stops the
process. -/
def runOps [Crc32] (env : Env) (check : FileSystem → Op → Bool) : List Op → FileSystem → Option FileSystem
  | [], s => some s
  | op :: ops, s =>
    if check s op then
      match s.call env op with
      | .ok (s', _) => runOps env check ops s'
      | .error _ => none
    else none

theorem Reachable.of_runOps [Crc32] {guard : FileSystem → Op → Prop} {env : Env}
    {check : FileSystem → Op → Bool} {ops : List Op} {s s' : FileSystem} (reach : Reachable guard s)
    (ok : env.IoOk) (sound : ∀ s op, check s op = true → guard s op)
    (run : runOps env check ops s = some s') : Reachable guard s' := by
  induction ops generalizing s with
  | nil => exact Option.some.inj run ▸ reach
  | cons op ops ih =>
    simp only [runOps] at run
    split at run
    · next passed =>
      split at run
      · next t r result =>
        have taken : Step s ⟨env, op⟩ t := by
          simp only [Step, next, result]
        exact ih (.next reach ⟨ok, sound s op passed⟩ taken) run
      · simp at run
    · simp at run

/-- A run that is followed to its end leads to a reachable state. -/
theorem Reachable.exists_run [Crc32] {guard : FileSystem → Op → Prop} {env : Env}
    {check : FileSystem → Op → Bool} {s : FileSystem} (ops : List Op) (p : FileSystem → Prop)
    [DecidablePred p] (fresh : FreshlyMounted s) (ok : env.IoOk)
    (sound : ∀ s op, check s op = true → guard s op)
    (ends : (runOps env check ops s).any (fun t => decide (p t)) = true) :
    ∃ t, Reachable guard t ∧ p t := by
  cases run : runOps env check ops s with
  | none => simp [run] at ends
  | some t =>
    rw [run] at ends
    exact ⟨t, .of_runOps (.start fresh) ok sound run, of_decide_eq_true ends⟩

/-- A checksum that is the same for all slots. -/
@[reducible] def zeroCrc : Crc32 := ⟨fun _ => 0, fun _ => 0, fun _ => 0, fun _ => 0⟩

/-- An outside world in which the clock stands, the pool is walked as it is listed and no device
write fails. -/
def steadyEnv : Env :=
  { now := 1, order := id, order_perm := fun _ => .refl _, writeOk := fun _ => true, fsyncOk := true }

theorem steadyEnv_ok : steadyEnv.IoOk := ⟨fun _ => rfl, rfl⟩

/-- A device that was formatted and mounted, with `blocks` data blocks that hold `data`. -/
def freshDevice (blocks : Nat) (data : Nat → UInt8) : FileSystem :=
  letI := zeroCrc
  let size := 675282944 + kBlockSize * blocks
  mounted
    { size := size, superMeta := SuperBlock.formatAllMeta size, dirMetas := formattedDir,
      fileMetas := formattedFile, fileBlockMetas := formattedFileBlock, data := data } steadyEnv 1

theorem freshDevice_fresh (blocks : Nat) (data : Nat → UInt8) :
    @FreshlyMounted zeroCrc (freshDevice blocks data) :=
  letI := zeroCrc
  freshlyMounted_mounted (Nat.le_add_right _ _) rfl

instance (s : FileSystem) (f : FilePtr) (n : Nat) : Decidable (s.Narrow f n) :=
  inferInstanceAs (Decidable (_ ∨ _))

/-- Decides whether a call is narrow. -/
def isNarrowCall (s : FileSystem) (op : Op) : Bool :=
  match s.ftruncateCall op with
  | none => true
  | some (f, n) => decide (s.Narrow f n)

/-- No condition on the calls of a run. -/
def anyCall (_ : FileSystem) (_ : Op) : Prop := True

theorem anyCall_sound (s : FileSystem) (op : Op) (_ : true = true) : s.anyCall op := trivial

theorem isNarrowCall_sound (s : FileSystem) (op : Op) (passed : s.isNarrowCall op = true) :
    s.NarrowCall op := by
  intro f n call
  rw [isNarrowCall, call] at passed
  exact of_decide_eq_true passed

end Concrete

end BlockFs.FileSystem
