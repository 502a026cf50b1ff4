import BlockFs.NameSections
import BlockFs.Runs

namespace BlockFs

namespace NameCaller
open FileSystem

/-- The key under which the next section of a `CreateFile` takes a file slot. -/
def takesFile (s : FileSystem) (l : NameCaller) : Option (Nat × Name) :=
  match l.call, l.stage, s.freeFhs with
  | .createFile _ tmpfile, .located dir filename, fh :: _ =>
    let dh := (s.dirMeta dir).dh
    if !tmpfile && (s.createdFiles.lookup (dh, filename)).isSome then none
    else some (dh, storedName tmpfile filename fh)
  | _, _, _ => none

/-- The name under which the next section of a `CreateDirectory` takes a directory slot. -/
def takesDir (s : FileSystem) (l : NameCaller) : Option Name :=
  match l.call, l.stage, s.freeDhs with
  | .createDirectory path, .looking [], _ :: _ =>
    match DirHandle.transformPath path with
    | .error _ => none
    | .ok dirName => if (s.createdDirs.lookup dirName).isSome then none else some dirName
  | _, _, _ => none

/-- The directory whose slot the next section of a `DeleteDirectory` clears. -/
def clearsDir (s : FileSystem) (l : NameCaller) : Option DirectoryPtr :=
  match l.stage with
  | .unopened _ dir => if (s.dirMeta dir).used then some dir else none
  | _ => none

end NameCaller

namespace FileSystem

/-- No name is used twice, every file lies in a directory in use and every directory but the mount
point below one. -/
structure WellNamed (s : FileSystem) : Prop where
  files : ∀ x y, (s.fileMetas x).used = true → (s.fileMetas y).used = true →
    (s.fileMetas x).dh = (s.fileMetas y).dh → (s.fileMetas x).fileName = (s.fileMetas y).fileName → x = y
  dirs : ∀ i j, (s.dirMetas i).used = true → (s.dirMetas j).used = true →
    (s.dirMetas i).dirName = (s.dirMetas j).dirName → i = j
  housed : ∀ x, (s.fileMetas x).used = true →
    ∃ i, (s.dirMetas i).used = true ∧ (s.dirMetas i).dh = (s.fileMetas x).dh
  parents : ∀ i, (s.dirMetas i).used = true → (s.dirMetas i).dirName ≠ ['/'] →
    ∃ j, (s.dirMetas j).used = true ∧ (s.dirMetas j).dirName = getDirName (s.dirMetas i).dirName

end FileSystem

namespace NameCalls
open FileSystem NameCaller

variable {Tid : Type*}

abbrev Config (Tid : Type*) := Interleaving.Config Tid FileSystem NameCaller

/-- A file system that has just been mounted, and calls that have not begun. -/
structure Start [Crc32] (c : Config Tid) : Prop where
  fresh : FreshlyMounted c.shared
  begun : ∀ t, (c.threads t).stage = .begun

/-- A section that takes a slot for a name finds no other call that has taken one for it, and the
directory above in use; one that clears the slot of a directory finds nothing in it and nothing about
to be. -/
structure Careful (c : Config Tid) (t : Tid) : Prop where
  file : ∀ dh name, (c.threads t).takesFile c.shared = some (dh, name) →
    (c.shared.dirMetas dh).used = true ∧ c.shared.createdFiles.lookup (dh, name) = none ∧
      ∀ u f, (c.threads u).stage.pendingFile = some f →
        ((c.shared.fileMeta f).dh, (c.shared.fileMeta f).fileName) ≠ (dh, name)
  dir : ∀ dirName, (c.threads t).takesDir c.shared = some dirName →
    (∀ p, c.shared.createdDirs.lookup (getDirName dirName) = some p → (c.shared.dirMeta p).used = true) ∧
      ∀ u d, (c.threads u).stage.pendingDir = some d → (c.shared.dirMeta d).dirName ≠ dirName
  removal : ∀ dir, (c.threads t).clearsDir c.shared = some dir → c.shared.childCount dir = 0 ∧
    (∀ u f, (c.threads u).stage.pendingFile = some f → (c.shared.fileMeta f).dh ≠ (c.shared.dirMeta dir).dh) ∧
      ∀ u d, (c.threads u).stage.pendingDir = some d →
        getDirName (c.shared.dirMeta d).dirName ≠ (c.shared.dirMeta dir).dirName

/-- Whenever no call is in progress the names are in order, and of the creations of one path at most one
has returned success, that of a directory where no call removes it. -/
structure Safe (c : Config Tid) : Prop where
  wellNamed : (∀ t, (c.threads t).stage.Idle) → c.shared.WellNamed
  files : ∀ t u, t ≠ u → ∀ path, (c.threads t).call = .createFile path false →
    (c.threads u).call = .createFile path false → (c.threads t).stage = .returned 0 →
    (c.threads u).stage ≠ .returned 0
  dirs : ∀ t u, t ≠ u → ∀ path path' dirName, (c.threads t).call = .createDirectory path →
    (c.threads u).call = .createDirectory path' → DirHandle.transformPath path = .ok dirName →
    DirHandle.transformPath path' = .ok dirName →
    (∀ w q, (c.threads w).call = .deleteDirectory q → DirHandle.transformPath q ≠ .ok dirName) →
    (c.threads t).stage = .returned 0 → (c.threads u).stage ≠ .returned 0

section Run
variable [Crc32] [DecidableEq Tid] {c c' : Config Tid}

omit [DecidableEq Tid] in
theorem Start.sound (start : Start c) : NamesSound c.shared.roster c.threads := by
  obtain ⟨d, env, attempts, same, _⟩ := start.fresh.eq_mounted
  have begun := start.begun
  rw [same]
  have rootTable_dh (i : Nat) : (rootTable env i).dh = i := by
    rw [rootTable, Function.update_apply]
    split
    · next root => exact root.symm
    · rfl
  have unused (x : Nat) : ((mounted d env attempts).roster.files x).used = false := rfl
  have only {i : Nat} (used : ((mounted d env attempts).roster.dirs i).used = true) : i = 0 := by
    by_contra other
    change (rootTable env i).used = true at used
    rw [rootTable, Function.update_of_ne other] at used
    simp [formattedDir] at used
  have root : ((mounted d env attempts).roster.dirs 0).dirName = ['/'] := by
    change (rootTable env 0).dirName = _
    rw [rootTable, Function.update_self]
    rfl
  have childless (q : DirectoryPtr) (bound : q < (mounted d env attempts).roster.nextDirectory) :
      (mounted d env attempts).roster.children q = ∅ := by
    obtain rfl := Nat.lt_one_iff.mp bound
    rfl
  have slot : (mounted d env attempts).roster.slot 0 = 0 := rfl
  have entry {n : Name} {e : DirectoryPtr}
      (there : (mounted d env attempts).roster.createdDirs.lookup n = some e) : n = ['/'] ∧ e = 0 := by
    rcases lookup_of_insert there with both | ⟨_, there⟩
    · exact both
    · simp at there
  have not_made (t : Tid) : ¬(c.threads t).Made := by
    rw [Made, begun]
    simp [NameStage.pendingFile, NameStage.pendingDir]
  constructor
  · constructor
    · intro x used
      simp [unused] at used
    · intro x y used
      simp [unused] at used
    · intro x used
      simp [unused] at used
    · intro x used
      simp [unused] at used
  · constructor
    · exact rootTable_dh
    · intro e bound e' bound' _
      rw [Nat.lt_one_iff.mp bound, Nat.lt_one_iff.mp bound']
    · intro e bound
      rw [Nat.lt_one_iff.mp bound, slot]
      exact fun member => by simpa using (List.mem_range'_1.mp member).1
    · exact List.nodup_range'
    · intro n e there
      obtain ⟨rfl, rfl⟩ := entry there
      exact ⟨Nat.zero_lt_one, root⟩
    · intro q bound x e there
      rw [childless q bound] at there
      simp at there
    · intro i used
      obtain rfl := only used
      refine ⟨0, Nat.zero_lt_one, slot, .inl ?_⟩
      rw [root]
      exact AList.lookup_insert _
    · intro i j usedI usedJ _
      rw [only usedI, only usedJ]
    · intro i used inner
      obtain rfl := only used
      exact absurd root inner
    · intro i used inner
      obtain rfl := only used
      exact absurd root inner
    · intro q bound x e there
      rw [childless q bound] at there
      simp at there
    · intro q bound q' bound' _ _ _
      rw [Nat.lt_one_iff.mp bound, Nat.lt_one_iff.mp bound']
  · intro t
    rw [Roster.Own, begun]
    trivial
  · intro t u _ e there
    rw [begun] at there
    simp [NameStage.pendingDir] at there
  · intro t u e there
    rw [begun] at there
    simp [NameStage.target] at there
  · intro t u _ e there
    rw [begun] at there
    simp at there
  · exact fun t _ _ made => absurd made (not_made t)
  · exact fun t _ _ _ _ _ made => absurd made (not_made t)
  · exact fun t _ _ _ _ _ made => absurd made (not_made t)
  · exact fun t _ _ _ _ _ _ _ _ _ _ made => absurd made (not_made t)

omit [Crc32] in
/-- A careful section keeps the invariant: one case for each thing a section can do to the roster. -/
theorem sound_step (sound : NamesSound c.shared.roster c.threads) {t : Tid} (careful : Careful c t) {v : Roster}
    {stage : NameStage} (moves : Moves c.shared.roster (c.threads t).call (c.threads t).stage v stage) :
    NamesSound v (moveTo c.threads t stage) := by
  have dirs := sound.dirs
  have own := sound.own t
  generalize call_eq : (c.threads t).call = call at moves
  generalize from_eq : (c.threads t).stage = from_ at moves
  rw [Roster.Own, from_eq] at own
  cases moves with
  | fail file dir =>
    refine sound.quiet from_eq file.symm (from_.unlistedFile_none file).symm dir.symm (fun d this => ?_)
      (fun d this => ?_) trivial (fun d this => ?_) (fun d => by simp) (by simp)
    · rw [(from_.unlistedDir_none dir).1] at this
      simp at this
    · rw [(from_.unlistedDir_none dir).2] at this
      simp at this
    · simp [NameStage.target] at this
  | search before after =>
    obtain ⟨file, dir, _, _, _⟩ := before.idle
    obtain ⟨file', dir', target', dropped', returned'⟩ := after.idle
    refine sound.quiet from_eq (file'.trans file.symm)
      ((stage.unlistedFile_none file').trans (from_.unlistedFile_none file).symm) (dir'.trans dir.symm)
      (fun d this => ?_) (fun d this => ?_) ?_ (fun d this => ?_) dropped' returned'
    · rw [(from_.unlistedDir_none dir).1] at this
      simp at this
    · rw [(from_.unlistedDir_none dir).2] at this
      simp at this
    · cases stage <;> first | exact trivial | exact after.elim
    · rw [target'] at this
      simp at this
  | locate found leads =>
    obtain ⟨bound, title⟩ := dirs.named _ _ found
    refine sound.quiet from_eq rfl rfl rfl (fun d this => by simp [NameStage.unlistedDir] at this)
      (fun d this => by simp [NameStage.listedDir] at this) ⟨bound, fun path same => ?_⟩
      (fun d this => by simp [NameStage.target] at this) (fun d => by simp) (by simp)
    rw [title]
    exact leads path (call_eq ▸ same)
  | @takeFile path tmpfile dir filename x rest same free unused vacant =>
    have key : (c.threads t).takesFile c.shared =
        some ((c.shared.dirMeta dir).dh, storedName tmpfile filename x) := by
      rw [takesFile, call_eq, same, from_eq, show c.shared.freeFhs = x :: rest from free]
      dsimp only
      rw [if_neg]
      cases tmpfile with
      | true => simp
      | false =>
        have none : c.shared.createdFiles.lookup ((c.shared.dirMeta dir).dh, filename) = none := vacant rfl
        simp [none]
    obtain ⟨home, absent, apart⟩ := careful.file _ _ key
    have handle : (c.shared.dirMeta dir).dh = c.shared.roster.slot dir := dirs.slots _
    refine sound.takeFile (call_eq.trans same) from_eq unused ?_ absent fun f has => has.elim (apart · f)
    rw [handle] at home
    exact home
  | writeFile =>
    exact sound.quiet from_eq rfl rfl rfl (fun d this => by simp [NameStage.unlistedDir] at this)
      (fun d this => by simp [NameStage.listedDir] at this) own
      (fun d this => by simp [NameStage.target] at this) (fun d => by simp) (by simp)
  | listFile => exact sound.listFile from_eq
  | enterFile => exact sound.enterFile from_eq
  | @takeDir path dirName parent x rest same leads vacant above free =>
    have name : (c.threads t).takesDir c.shared = some dirName := by
      have none : c.shared.createdDirs.lookup dirName = none := vacant
      rw [takesDir, call_eq, same, from_eq, show c.shared.freeDhs = x :: rest from free]
      dsimp only
      rw [leads]
      simp [none]
    obtain ⟨home, apart⟩ := careful.dir _ name
    exact sound.takeDir (call_eq.trans same) from_eq leads vacant free above (fun _ => home) fun d has =>
      has.elim (apart · d)
  | writeDir =>
    exact sound.quiet from_eq rfl rfl rfl (fun d this => .inl this)
      (fun d this => by simp [NameStage.listedDir] at this) own
      (fun d this => by simp [NameStage.target] at this) (fun d => by simp) (by simp)
  | @stand parent dir root =>
    refine sound.quiet from_eq rfl rfl rfl (fun d this => ?_)
      (fun d this => by simp [NameStage.listedDir] at this) ⟨own.1, fun p same => ?_⟩
      (fun d this => by simp [NameStage.target] at this) (fun d => by simp) (by simp)
    · obtain rfl := Option.some.inj this
      exact .inr root
    · subst same
      exact absurd root own.2.2.1
  | adopt _ _ => exact sound.adopt from_eq
  | @listedTwice parent dir present =>
    obtain ⟨_, free, _, bound, _⟩ := own
    rw [show (c.shared.roster.dir dir).dh = c.shared.roster.slot dir from dirs.slots _, free parent bound] at present
    simp at present
  | enterDir vacant => exact sound.enterDir from_eq vacant
  | @lostChild parent dir absent =>
    obtain ⟨_, lists⟩ := own
    have present := (lists parent rfl).2
    rw [← show (c.shared.roster.dir dir).dh = c.shared.roster.slot dir from dirs.slots _, absent] at present
    simp at present
  | @find path dirName parent dir same leads above found =>
    obtain ⟨bound, title⟩ := dirs.named _ _ found
    refine sound.quiet from_eq rfl rfl rfl (fun d this => by simp [NameStage.unlistedDir] at this)
      (fun d this => by simp [NameStage.listedDir] at this)
      ⟨(dirs.named _ _ above).1, bound, path, call_eq.trans same, title ▸ leads⟩
      (fun d this => .inr fun u pending => ?_) (fun d => by simp) (by simp)
    obtain rfl := Option.some.inj this
    exact (sound.hasDir ⟨u, pending⟩).2.2 _ found
  | countChildren | countLinks =>
    exact sound.quiet from_eq rfl rfl rfl (fun d this => by simp [NameStage.unlistedDir] at this)
      (fun d this => by simp [NameStage.listedDir] at this) own (fun d this => .inl this)
      (fun d => by simp) (by simp)
  | @clear parent dir =>
    refine sound.clear from_eq fun used => ?_
    have clears : (c.threads t).clearsDir c.shared = some dir := by
      rw [clearsDir, from_eq]
      exact if_pos used
    obtain ⟨empty, noFile, noDir⟩ := careful.removal dir clears
    obtain ⟨files, children⟩ := childCount_eq_zero empty
    have handle : (c.shared.dirMeta dir).dh = c.shared.roster.slot dir := dirs.slots _
    refine ⟨files, children, fun f has => ?_, fun e has => has.elim (noDir · e)⟩
    rw [← handle]
    exact has.elim (noFile · f)
  | orphan present => exact sound.orphan from_eq present
  | dropDir => exact sound.dropDir from_eq

omit [DecidableEq Tid] [Crc32] in
theorem safe_of_sound (sound : NamesSound c.shared.roster c.threads) : Safe c := by
  have returned {t : Tid} (done : (c.threads t).stage = .returned 0) : (c.threads t).Made := .inr (.inr done)
  refine ⟨fun _ => ⟨?_, ?_, ?_, ?_⟩, ?_, ?_⟩
  · intro x y usedX usedY dh name
    exact sound.files.distinct x y usedX usedY (Prod.ext dh name)
  · exact sound.dirs.titled
  · intro x used
    exact ⟨_, sound.files.housed x used, sound.dirs.slots _⟩
  · exact sound.dirs.parented
  · intro t u apart path same same' done done'
    exact sound.fileOnce t u apart path same same' (returned done) (returned done')
  · intro t u apart path path' dirName same same' leads leads' spared done done'
    exact sound.dirOnce t u apart path path' dirName same same' leads leads' spared (returned done)
      (returned done')

/-- In every interleaving of careful sections the names stay in order. -/
theorem names_safe (reach : Interleaving.Reached NameCaller.next Start
    (fun c event => event.2.IoOk ∧ Careful c event.1) c) : Safe c := by
  refine safe_of_sound (reach.invariant (fun c => NamesSound c.shared.roster c.threads)
    (fun c start => start.sound) fun c event c' sound guard step => ?_)
  obtain ⟨t, env⟩ := event
  obtain ⟨s', l', taken, rfl⟩ := step
  obtain ⟨⟨t', stage⟩, advanced, same⟩ := Option.map_eq_some_iff.mp taken
  obtain ⟨rfl, rfl⟩ := Prod.mk.inj same
  exact sound_step sound guard.2 (advance_moves guard.1 advanced)

end Run

section Concrete

/-- Decides whether the next section is a careful one. -/
def isCareful (c : Config Bool) (t : Bool) : Bool :=
  (match (c.threads t).takesFile c.shared with
  | none => true
  | some (dh, name) => (c.shared.dirMetas dh).used && (c.shared.createdFiles.lookup (dh, name)).isNone &&
    [false, true].all fun u => (c.threads u).stage.pendingFile.all fun f =>
      decide (((c.shared.fileMeta f).dh, (c.shared.fileMeta f).fileName) ≠ (dh, name))) &&
  (match (c.threads t).takesDir c.shared with
  | none => true
  | some dirName => (c.shared.createdDirs.lookup (getDirName dirName)).all (fun p => (c.shared.dirMeta p).used) &&
    [false, true].all fun u => (c.threads u).stage.pendingDir.all fun d =>
      decide ((c.shared.dirMeta d).dirName ≠ dirName)) &&
  match (c.threads t).clearsDir c.shared with
  | none => true
  | some dir => c.shared.childCount dir == 0 &&
    ([false, true].all fun u => (c.threads u).stage.pendingFile.all fun f =>
      decide ((c.shared.fileMeta f).dh ≠ (c.shared.dirMeta dir).dh)) &&
    [false, true].all fun u => (c.threads u).stage.pendingDir.all fun d =>
      decide (getDirName (c.shared.dirMeta d).dirName ≠ (c.shared.dirMeta dir).dirName)

theorem all_of_pending (view : NameStage → Option Nat) {test : Nat → Bool} {threads : Bool → NameCaller}
    (passed : ([false, true].all fun u => (view (threads u).stage).all test) = true) {u : Bool} {p : Nat}
    (here : view (threads u).stage = some p) : test p = true := by
  have one := List.all_eq_true.mp passed u (by cases u <;> simp)
  rw [here] at one
  exact one

theorem isCareful_sound {c : Config Bool} {t : Bool} (passed : isCareful c t = true) : Careful c t := by
  rw [isCareful, Bool.and_eq_true, Bool.and_eq_true] at passed
  obtain ⟨⟨files, dirs⟩, removals⟩ := passed
  refine ⟨fun dh name takes => ?_, fun dirName takes => ?_, fun dir clears => ?_⟩
  · rw [takes] at files
    obtain ⟨both, apart⟩ := Bool.and_eq_true_iff.mp files
    obtain ⟨used, absent⟩ := Bool.and_eq_true_iff.mp both
    exact ⟨used, Option.isNone_iff_eq_none.mp absent,
      fun u f here => of_decide_eq_true (all_of_pending NameStage.pendingFile apart here)⟩
  · rw [takes] at dirs
    obtain ⟨home, apart⟩ := Bool.and_eq_true_iff.mp dirs
    refine ⟨fun p above => ?_,
      fun u d here => of_decide_eq_true (all_of_pending NameStage.pendingDir apart here)⟩
    rw [above] at home
    exact home
  · rw [clears] at removals
    obtain ⟨both, noDir⟩ := Bool.and_eq_true_iff.mp removals
    obtain ⟨empty, noFile⟩ := Bool.and_eq_true_iff.mp both
    exact ⟨beq_iff_eq.mp empty,
      fun u f here => of_decide_eq_true (all_of_pending NameStage.pendingFile noFile here),
      fun u d here => of_decide_eq_true (all_of_pending NameStage.pendingDir noDir here)⟩

/-- Two calls on a file system that has just been mounted. -/
def two (first second : NameCall) (s : FileSystem) : Config Bool where
  shared := s
  threads u := ⟨if u then second else first, .begun⟩

/-- The sections of two calls, followed to their end. -/
theorem exists_two (guard : Config Bool → Bool → Bool) (first second : NameCall) (turns : List Bool)
    (goal : Config Bool → Prop) [DecidablePred goal]
    (found : ((Transition.runList (Interleaving.attempt (@NameCaller.next zeroCrc) fun c event =>
      guard c event.1 = true) (turns.map (·, steadyEnv))
        (two first second (freshDevice 8 fun _ => 0))).toOption.any fun c => goal c) = true) :
    ∃ c, Interleaving.Reached (@NameCaller.next zeroCrc) (@Start Bool zeroCrc)
      (fun c event => event.2.IoOk ∧ guard c event.1 = true) c ∧ goal c := by
  let _ := zeroCrc
  have start : Start (two first second (freshDevice 8 fun _ => 0)) := ⟨freshDevice_fresh 8 fun _ => 0, fun _ => rfl⟩
  refine Transition.Reaches.exists_of_runList (.start start) _ (fun event member c c' taken => ?_) goal found
  obtain ⟨_, _, rfl⟩ := List.mem_map.mp member
  obtain ⟨allowed, step⟩ := Interleaving.attempt_sound taken
  exact ⟨⟨steadyEnv_ok, allowed⟩, step⟩

/-- A file and a directory are created side by side. -/
theorem names_safe_two : ∃ c : Config Bool, (∀ t, (c.threads t).stage = .returned 0) ∧ c.shared.WellNamed ∧ Safe c := by
  let _ := zeroCrc
  obtain ⟨c, reach, first, second⟩ := exists_two isCareful (.createFile ['/', 'a'] false)
    (.createDirectory ['/', 'b']) [false, true, false, true, true, false, true, false, true, false, true, true]
    (fun c => (c.threads false).stage = .returned 0 ∧ (c.threads true).stage = .returned 0) (by decide +kernel)
  have done (t : Bool) : (c.threads t).stage = .returned 0 := by
    cases t with
    | false => exact first
    | true => exact second
  have safe := names_safe (reach.mono fun c event allowed => ⟨allowed.1, isCareful_sound allowed.2⟩)
  refine ⟨c, done, safe.wellNamed fun t => ?_, safe⟩
  rw [done]
  trivial

/-- Two calls create one file: both find its name free before either enters it. -/
theorem not_names_safe : ∃ c, Interleaving.Reached (@NameCaller.next zeroCrc) (@Start Bool zeroCrc)
    (fun _ event => event.2.IoOk) c ∧ (∀ t, (c.threads t).call = .createFile ['/', 'a'] false) ∧
      (∀ t, (c.threads t).stage = .returned 0) ∧ ¬c.shared.WellNamed ∧ ¬Safe c := by
  let _ := zeroCrc
  obtain ⟨c, reach, calls, done, used, dh, name⟩ := exists_two (fun _ _ => true) (.createFile ['/', 'a'] false)
    (.createFile ['/', 'a'] false) [false, true, false, true, false, true, false, true, false, true]
    (fun c => (∀ t, (c.threads t).call = .createFile ['/', 'a'] false) ∧
      (∀ t, (c.threads t).stage = .returned 0) ∧
      ((c.shared.fileMetas 0).used = true ∧ (c.shared.fileMetas 1).used = true) ∧
      (c.shared.fileMetas 0).dh = (c.shared.fileMetas 1).dh ∧
      (c.shared.fileMetas 0).fileName = (c.shared.fileMetas 1).fileName) (by decide +kernel)
  refine ⟨c, reach.mono fun c event allowed => allowed.1, calls, done, fun well => ?_, fun safe => ?_⟩
  · simpa using well.files 0 1 used.1 used.2 dh name
  · exact safe.files false true (by decide) _ (calls false) (calls true) (done false) (done true)

end Concrete

end NameCalls

end BlockFs
