import BlockFs.Contents

namespace BlockFs

/-- What was last written to each byte of each file, where that is remembered. -/
abbrev LastWrites : Type := FilePtr → Nat → Option UInt8

namespace FileSystem

section Record
variable [Crc32]

/-- The call returns and does not report a failure. -/
def succeeds (s : FileSystem) (e : Event) : Bool :=
  match s.call e.env e.op with
  | .ok (_, r) => decide (0 ≤ r)
  | .error _ => false

/-- The byte that a successful `pwrite` stores at position `p` of file `f`. -/
def stores (s : FileSystem) (e : Event) (f : FilePtr) (p : Nat) : Option UInt8 :=
  match e.op with
  | .pwrite fd buffer len offset =>
    if s.succeeds e ∧ s.openedFile fd = some f ∧ toU64 offset ≤ p ∧ p < toU64 offset + len then
      some (buffer (p - toU64 offset))
    else none
  | _ => none

/-- The call truncates `f`, also by `O_TRUNC`, to a length that does not reach behind `p`. -/
def cuts (s : FileSystem) (e : Event) (s' : FileSystem) (f : FilePtr) (p : Nat) : Bool :=
  match s.ftruncateCall e.op with
  | some (g, n) => g = f && (s'.fileMeta f).size = n && n ≤ p
  | none => false

/-- A write is remembered until the next write there or a cut in front of it. -/
def record (s : FileSystem) (e : Event) (s' : FileSystem) (written : LastWrites) : LastWrites := fun f p =>
  (s.stores e f p).or (if s.cuts e s' f p then none else written f p)

/-- The call is a write whose range holds position `p`. -/
def covers : Op → Nat → Bool
  | .pwrite _ _ len offset, p => toU64 offset ≤ p && p < toU64 offset + len
  | _, _ => false

/-- What a call does to the contents of files: it keeps them, or truncates a file, or writes to one
that it may have grown before. -/
inductive Effect (s : FileSystem) (e : Event) : FileSystem → Prop
  | kept {s'} (calm : s.ftruncateCall e.op = none) (idle : ∀ f p, s.stores e f p = none)
    (carries : Carries s s') : Effect s e s'
  | truncated {f n t u s' r} (call : s.ftruncateCall e.op = some (f, n))
    (idle : ∀ f p, s.stores e f p = none) (before : Carries s t) (same : SameSides s t)
    (room : (s.fileMeta f).size < n → r = 0 → s.HasRoom f n)
    (apart : r = 0 → ∀ p, covers e.op p = false) (recut : Recut t u e.env f n r)
    (behind : Carries u s') : Effect s e s'
  | wrote {f offset len buffer t s'}
    (filled : ∀ g p, s.stores e g p =
      if g = f ∧ offset ≤ p ∧ p < offset + len then some (buffer (p - offset)) else none)
    (ranged : ∀ p, covers e.op p = true ↔ offset ≤ p ∧ p < offset + len) (known : s.Accessible f) (inside : offset + len ≤ (t.fileMeta f).size)
    (grown : (s.ftruncateCall e.op = none ∧ t = s) ∨
      ∃ n, s.ftruncateCall e.op = some (f, n) ∧ s.HasRoom f n ∧ Recut s t e.env f n 0)
    (overwritten : Overwritten t s' f offset len buffer) : Effect s e s'

end Record

section Effects
variable [Crc32] {s s' t : FileSystem} {env : Env} {e : Event} {lost : Lost} {f : FilePtr} {n : Nat} {r : Int}

theorem SameSides.carries (same : SameSides s s') (coherent : Coherent s lost) : Carries s s' := by
  have change : Change False s s' := same.change coherent.housed
  exact change.carries coherent

omit [Crc32] in
theorem SameSides.hasRoom (same : SameSides s t) (room : t.HasRoom f n) : s.HasRoom f n := by
  have slots : t.fileBlockMetas = s.fileBlockMetas := congrArg FileSide.fileBlockMetas same.fileSide
  have pool : t.blockIdPool = s.blockIdPool := congrArg FileSide.blockIdPool same.fileSide
  obtain ⟨inside, b, isNew, rest, found, enough, fits⟩ := room
  rw [same.superMeta] at inside
  rw [same.fileMeta, pool] at enough
  rw [same.fileMeta, slots] at fits
  exact ⟨inside, b, isNew, rest, same.symm.found found, enough, fits⟩

omit [Crc32] in
theorem SameSides.gapByte (same : SameSides s t) (p : Nat) : t.gapByte env f n p = s.gapByte env f n p := by
  have files : t.files = s.files := congrArg FileSide.files same.fileSide
  have slots : t.fileBlockMetas = s.fileBlockMetas := congrArg FileSide.fileBlockMetas same.fileSide
  have pool : t.blockIdPool = s.blockIdPool := congrArg FileSide.blockIdPool same.fileSide
  have data : t.disk.data = s.disk.data := congrArg FileSide.diskData same.fileSide
  have ids : t.blockIds f = s.blockIds f := by simp only [blockIds, attached, files, slots]
  rw [FileSystem.gapByte, FileSystem.gapByte, ids, takenIds, takenIds, pool, same.fileMeta, data, devOffset,
    devOffset, same.superMeta]

/-- A call that asks for more than the device has changes nothing. -/
theorem call_beyond {op : Op} (call : s.ftruncateCall op = some (f, n)) (grows : (s.fileMeta f).size < n)
    (beyond : s.superMeta.deviceSize < n) : s.call env op = .ok (s, -1) := by
  have stops : s.ftruncate env f n = .ok (s, -1) := by
    rw [ftruncate, if_pos grows, extendFile, if_pos beyond]
  cases op with
  | openFile path flags =>
    simp only [ftruncateCall] at call
    split at call
    · split at call
      · obtain ⟨_, rfl⟩ := Prod.mk.inj (Option.some.inj call)
        omega
      · simp at call
    · simp at call
  | truncatePath path size =>
    cases found : s.getCreatedFile path with
    | error _ => simp [ftruncateCall, found] at call
    | ok g =>
      simp only [ftruncateCall, found] at call
      obtain ⟨rfl, rfl⟩ := Prod.mk.inj (Option.some.inj call)
      rw [FileSystem.call, truncatePath, found]
      exact stops
  | truncateFd fd size =>
    rw [ftruncateCall, openedFile, Option.map_map] at call
    obtain ⟨o, found, same⟩ := Option.map_eq_some_iff.mp call
    obtain ⟨rfl, rfl⟩ := Prod.mk.inj same
    rw [FileSystem.call, truncateFd, getOpenFile_of_lookup found]
    exact stops
  | pwrite fd buffer len offset =>
    cases there : s.openFiles.lookup fd with
    | none => simp [ftruncateCall, openedFile, there] at call
    | some o =>
      simp only [ftruncateCall, openedFile, there, Option.map_some] at call
      split at call
      · next positive =>
        obtain ⟨rfl, rfl⟩ := Prod.mk.inj (Option.some.inj call)
        rw [FileSystem.call, pwriteFile, getOpenFile_of_lookup there]
        dsimp only [pwrite]
        rw [if_neg positive.1, if_pos positive.2, stops]
        rfl
      · simp at call
  | _ => simp [ftruncateCall] at call

/-- A truncation that grows its file had the room. -/
theorem Truncation.hasRoom (consistent : Consistent s lost) (bound : f < s.nextFile)
    (truncation : Truncation s env f n s' 0) (grows : (s.fileMeta f).size < n)
    (inside : n ≤ s.superMeta.deviceSize) : s.HasRoom f n := by
  cases truncation with
  | grow _ extension => exact (extension.hasRoom consistent bound inside).mp rfl
  | shrink shrinks _ _ => omega
  | keep same => omega

/-- What a write does to the contents. -/
theorem pwriteFile_effect (coherent : Coherent s lost) (ok : env.IoOk) {fd len : Nat} {buffer : Nat → UInt8}
    {offset : Int} (narrow : s.NarrowCall (.pwrite fd buffer len offset))
    (result : s.pwriteFile env fd buffer len offset = .ok (s', r)) :
    Effect s ⟨env, .pwrite fd buffer len offset⟩ s' := by
  have stored_ (g : FilePtr) (p : Nat) : s.stores ⟨env, .pwrite fd buffer len offset⟩ g p =
      if 0 ≤ r ∧ s.openedFile fd = some g ∧ toU64 offset ≤ p ∧ p < toU64 offset + len then
        some (buffer (p - toU64 offset)) else none := by
    simp only [stores, succeeds, call, result, decide_eq_true_eq]
  cases pwriteFile_cases coherent ok narrow result with
  | refused calm same nothing =>
    refine .kept calm (fun g p => ?_) (same.carries coherent)
    rw [stored_, if_neg]
    omega
  | @stuck f n _ call known truncation =>
    have bound := coherent.registered.bound (known.registered coherent.registered)
    refine .truncated call (fun g p => ?_) (.refl s) ⟨rfl, rfl⟩ (fun _ done => absurd done (by decide))
      (fun done => absurd done (by decide)) (truncation.recut coherent.consistent bound known) (.refl s')
    rw [stored_, if_neg]
    omega
  | @wrote f b blocks t u data _ opened positive grown item planned moved quiet homes =>
    have known : s.Accessible f := .inl ⟨fd, opened⟩
    have registered := known.registered coherent.registered
    have bound := coherent.registered.bound registered
    have range : toU64 offset + len < 2 ^ 64 := by
      by_contra wraps
      have short : toU64 offset < 2 ^ 64 := by unfold toU64; omega
      obtain ⟨fault, stops, _⟩ :=
        planTransfer_wrapped t.superMeta (t.fileBlockMetas b) short positive (Nat.not_lt.mp wraps)
      rw [stops] at planned
      simp at planned
    have call_ : s.ftruncateCall (.pwrite fd buffer len offset) =
        if (s.fileMeta f).size < toU64 offset + len then some (f, toU64 offset + len) else none := by
      rw [ftruncateCall, opened]
      dsimp only
      rw [Nat.mod_eq_of_lt range]
      exact if_congr (and_iff_right (by omega)) rfl rfl
    have grown' : ((s.ftruncateCall (.pwrite fd buffer len offset) = none ∧ t = s) ∨
        ∃ n, s.ftruncateCall (.pwrite fd buffer len offset) = some (f, n) ∧ s.HasRoom f n ∧
          Recut s t env f n 0) ∧
          toU64 offset + len ≤ (t.fileMeta f).size ∧ (∃ lost', Coherent t lost') ∧ f < t.nextFile := by
      rcases grown with ⟨calm, rfl⟩ | ⟨n, call, truncation⟩
      · refine ⟨.inl ⟨calm, rfl⟩, ?_, ⟨lost, coherent⟩, bound⟩
        rw [call_] at calm
        by_contra short
        rw [if_pos (by omega)] at calm
        simp at calm
      · have recut := truncation.recut coherent.consistent bound known
        obtain ⟨lost', _, _, coherent'⟩ := truncation.coherent coherent registered
        have size := recut.size
        have grows : (s.fileMeta f).size < n ∧ n = toU64 offset + len := by
          rw [call_] at call
          split at call
          · next short =>
            obtain ⟨_, rfl⟩ := Prod.mk.inj (Option.some.inj call)
            exact ⟨short, rfl⟩
          · simp at call
        have inside : n ≤ s.superMeta.deviceSize := by
          by_contra beyond
          have stops := @call_beyond _ s env f n _ call grows.1 (by omega)
          have same := (Prod.mk.inj (Except.ok.inj (stops.symm.trans result))).1
          have kept : ((u.stored data).fileMeta f).size = (t.fileMeta f).size :=
            (quiet.resources.sameFile f).size
          rw [← same, size, if_pos rfl] at kept
          omega
        refine ⟨.inr ⟨n, call, truncation.hasRoom coherent.consistent bound grows.1 inside, recut⟩, ?_,
          ⟨lost', coherent'⟩, recut.nextFile ▸ bound⟩
        rw [if_pos rfl] at size
        omega
    obtain ⟨cut, inside, ⟨lost', coherent'⟩, bound'⟩ := grown'
    obtain ⟨rfl, overwritten⟩ :=
      coherent'.consistent.overwritten bound' item positive inside planned moved quiet
    refine .wrote (fun g p => ?_) (fun p => by simp [covers]) known inside cut overwritten
    rw [stored_]
    refine if_congr ?_ rfl rfl
    rw [opened, Option.some_inj]
    constructor
    · rintro ⟨_, rfl, low, high⟩
      exact ⟨rfl, low, high⟩
    · rintro ⟨rfl, low, high⟩
      exact ⟨by omega, rfl, low, high⟩

theorem call_effect (coherent : Coherent s lost) (ok : e.env.IoOk) (narrow : s.NarrowCall e.op)
    (result : s.call e.env e.op = .ok (s', r)) : Effect s e s' := by
  obtain ⟨env, op⟩ := e
  have other (apart : ∀ fd buffer len offset, op ≠ .pwrite fd buffer len offset) :
      Effect s ⟨env, op⟩ s' := by
    have idle (f : FilePtr) (p : Nat) : s.stores ⟨env, op⟩ f p = none := by
      unfold stores
      split
      · next fd buffer len offset same => exact absurd same (apart fd buffer len offset)
      · rfl
    cases call_outcome coherent ok narrow result with
    | plain calm path => exact .kept calm idle (carries_of_changes coherent path)
    | @truncated f n t u _ r' _ call same known truncation path _ =>
      have coherent' := same.coherent coherent
      have registered := known.registered coherent'.registered
      have bound := coherent'.registered.bound registered
      obtain ⟨lost', _, _, after⟩ := truncation.coherent coherent' registered
      have recut := truncation.recut coherent'.consistent bound known
      have behind := carries_of_changes after path
      have uncovered (p : Nat) : covers op p = false := by
        cases op with
        | pwrite fd buffer len offset => exact absurd rfl (apart fd buffer len offset)
        | _ => rfl
      refine .truncated call idle (same.carries coherent) same (fun grows done => ?_)
        (fun _ => uncovered) recut behind
      have here : s.Accessible f := same.accessible.mp known
      have inside : n ≤ s.superMeta.deviceSize := by
        by_contra beyond
        obtain ⟨rfl, _⟩ := Prod.mk.inj (Except.ok.inj
          ((@call_beyond _ s env f n _ call grows (by omega)).symm.trans result))
        have kept := behind.size f (recut.nextFile ▸ bound) here
        rw [recut.size, if_pos done] at kept
        omega
      have sizes : t.fileMeta f = s.fileMeta f := same.fileMeta
      subst done
      rw [← sizes] at grows
      rw [← same.superMeta] at inside
      exact same.hasRoom (truncation.hasRoom coherent'.consistent bound grows inside)
    | wrote pwrite => exact absurd pwrite (apart _ _ _ _)
  cases op with
  | pwrite fd buffer len offset => exact pwriteFile_effect coherent ok narrow result
  | _ => exact other fun _ _ _ _ => nofun

end Effects

section Concrete
variable [Crc32] {start : FileSystem → Prop} {guard : FileSystem → Event → Prop}
  {check : FileSystem → Event → Bool} {env : Env}

/-- A call that passes the check. -/
def checked (check : FileSystem → Event → Bool) (s : FileSystem) (e : Event) : Except Fault FileSystem :=
  if check s e then s.next e else .error .fuel

/-- A run of calls that pass the check, recorded and followed to its end. -/
theorem exists_recording_of_ops {s : FileSystem} (init : start s) (ok : env.IoOk)
    (sound : ∀ s e, check s e = true → guard s e) (ops : List Op) (goal : FileSystem × LastWrites → Prop)
    [DecidablePred goal]
    (found : (Transition.runList (Transition.recorded (checked check) record) (ops.map (⟨env, ·⟩))
      (s, fun _ _ => none)).toOption.any (fun x => goal x) = true) :
    ∃ x, Transition.Recording start (fun s e => e.env.IoOk ∧ guard s e) Step record (fun _ _ => none) x ∧
      goal x := by
  refine Transition.Recording.exists_of_runList init _ (fun e member s s' taken => ?_) goal found
  obtain ⟨op, _, rfl⟩ := List.mem_map.mp member
  unfold checked at taken
  split at taken
  · next passed => exact ⟨⟨ok, sound s _ passed⟩, taken⟩
  · simp at taken

end Concrete

end FileSystem

end BlockFs
