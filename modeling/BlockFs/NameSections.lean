import BlockFs.NameSafety

namespace BlockFs

section Effects
variable {Tid : Type*} [DecidableEq Tid] {v : Roster} {threads : Tid → NameCaller} {t : Tid}

/-- A file gets its slot. -/
theorem NamesSound.takeFile (sound : NamesSound v threads) {path : Name} {tmpfile : Bool} {dir : DirectoryPtr}
    {filename : Name} {x : Nat} {rest : List Nat} (call : (threads t).call = .createFile path tmpfile)
    (here : (threads t).stage = .located dir filename) (unused : (v.files x).used = false)
    (home : (v.dir dir).used = true)
    (absent : v.createdFiles.lookup ((v.dir dir).dh, storedName tmpfile filename x) = none)
    (apart : ∀ f, HasStage threads NameStage.pendingFile f →
      (v.file f).key ≠ ((v.dir dir).dh, storedName tmpfile filename x)) :
    NamesSound (v.takeFile x rest (v.dir dir).dh (storedName tmpfile filename x))
      (moveTo threads t (.fileTaken dir v.nextFile)) := by
  have own := sound.own t
  rw [Roster.Own, here] at own
  obtain ⟨bound, leads⟩ := own
  have handle : (v.dir dir).dh = v.slot dir := sound.dirs.slots _
  have unkeyed {y : Nat} (used : (v.files y).used = true) := sound.unkeyed absent apart used
  generalize storedName_eq : storedName tmpfile filename x = name at absent apart unkeyed ⊢
  have ne {y : Nat} (used : (v.files y).used = true) : y ≠ x := by
    rintro rfl
    rw [unused] at used
    simp at used
  have new : (v.takeFile x rest (v.dir dir).dh name).files x = ⟨true, x, (v.dir dir).dh, name⟩ :=
    Function.update_self ..
  have old {y : Nat} (other : y ≠ x) : (v.takeFile x rest (v.dir dir).dh name).files y = v.files y :=
    Function.update_of_ne other ..
  have slot : (v.takeFile x rest (v.dir dir).dh name).fileSlot v.nextFile = x := Function.update_self ..
  have keeps : Roster.Keeps v (v.takeFile x rest (v.dir dir).dh name) :=
    { files := fun y used => old (ne used)
      dirs := fun _ _ => rfl
      nextFile := Nat.le_succ _
      nextDirectory := le_rfl
      fileSlot := fun f before => Function.update_of_ne before.ne ..
      slot := fun _ _ => rfl
      dir := fun _ _ => rfl }
  have before {view : NameStage → Option Nat} (none : view (.located dir filename) = none) {q : Nat}
      (has : HasStage threads view q) : HasStage (moveTo threads t (.fileTaken dir v.nextFile)) view q := by
    rcases has.moveTo t (.fileTaken dir v.nextFile) with has | own
    · exact has
    · rw [here, none] at own
      simp at own
  refine sound.next ?_ ?_ ?_ (fun u _ => keeps.own (sound.own u) (fun _ _ => id) (fun _ _ _ => id)
    (fun _ _ _ _ _ => id) fun _ _ _ => id) (fun d this => ?_) (fun d this => ?_) (fun d this => ?_)
    (fun _ => keeps.fileAt) (fun _ _ => keeps.dirAt) (fun path' same made => .inr ⟨?_, ?_⟩)
    fun path' n same => ?_
  · constructor
    · intro y used
      by_cases this : y = x
      · exact .inr ⟨v.nextFile, .self rfl, slot.trans this.symm⟩
      · rw [old this] at used ⊢
        rcases sound.files.registered y used with entered | ⟨f, has, at_⟩
        · exact .inl entered
        · exact .inr ⟨f, before rfl has, (keeps.fileSlot f (sound.hasFile has).1).trans at_⟩
    · intro y z usedY usedZ same
      by_cases hy : y = x
      · by_cases hz : z = x
        · rw [hy, hz]
        · rw [hy, new, old hz] at same
          rw [old hz] at usedZ
          exact absurd same.symm (unkeyed usedZ)
      · by_cases hz : z = x
        · rw [hz, new, old hy] at same
          rw [old hy] at usedY
          exact absurd same (unkeyed usedY)
        · rw [old hy] at usedY same
          rw [old hz] at usedZ same
          exact sound.files.distinct y z usedY usedZ same
    · intro y used
      by_cases this : y = x
      · rw [this, new]
        dsimp only
        rw [handle]
        exact home
      · rw [old this] at used ⊢
        exact sound.files.housed y used
    · intro y used
      by_cases this : y = x
      · exact .inl ⟨v.nextFile, .self rfl, slot.trans this.symm⟩
      · rw [old this] at used ⊢
        rcases sound.files.filed y used with ⟨f, has, at_⟩ | listed
        · exact .inl ⟨f, before rfl has, (keeps.fileSlot f (sound.hasFile has.unlisted_pendingFile).1).trans at_⟩
        · exact .inr listed
  · exact sound.dirs.of_files rfl rfl rfl rfl (fun _ => rfl) (fun _ => rfl) (by rw [here]; rfl)
      (by rw [here]; rfl) (by rw [here]; rfl)
  · have entry : (v.takeFile x rest (v.dir dir).dh name).file v.nextFile = ⟨true, x, (v.dir dir).dh, name⟩ := by
      rw [Roster.file, slot, new]
    refine ⟨⟨Nat.lt_succ_self _, ?_, ?_⟩, bound, ?_⟩
    · rw [entry]
    · rw [entry, slot]
    · rw [entry]
      exact handle.symm
  · simp [NameStage.pendingDir] at this
  · simp [NameStage.target] at this
  · simp at this
  · rw [call] at same
    obtain ⟨rfl, rfl⟩ := NameCall.createFile.inj same
    have address := leads path call
    have short := storedName_short address x
    refine ⟨(v.dir dir).dirName, filename, v.slot dir, x, address, home, rfl, ?_, ?_⟩
    · rw [new]
    · rw [new, FileEntry.key, handle, ← storedName_eq, short]
  · intro u apart' same' made'
    rw [call] at same
    obtain ⟨rfl, rfl⟩ := NameCall.createFile.inj same
    have address := leads path call
    have short := storedName_short address x
    obtain ⟨dirName, filename', d, y, address', usedDir, title, usedFile, key⟩ := sound.fileAt u path same' made'
    obtain ⟨dirname, parts, inside⟩ := address
    obtain ⟨dirname', parts', inside'⟩ := address'
    rw [parts] at parts'
    obtain ⟨rfl, rfl⟩ := Prod.mk.inj (Except.ok.inj parts')
    rw [inside] at inside'
    have title' := Except.ok.inj inside'
    have same_dir := sound.dirs.titled d (v.slot dir) usedDir home (title.trans title'.symm)
    refine unkeyed usedFile ?_
    rw [key, same_dir, handle, ← storedName_eq, short]
  · rw [call] at same
    simp at same

/-- A directory lists its new file. -/
theorem NamesSound.listFile (sound : NamesSound v threads) {dir : DirectoryPtr} {f : FilePtr}
    (here : (threads t).stage = .fileWritten dir f) :
    NamesSound (v.listFile dir f) (moveTo threads t (.fileListed f)) := by
  have own := sound.own t
  rw [Roster.Own, here] at own
  obtain ⟨has, bound, home⟩ := own
  have view {β : Type} (field : Directory → β) (blind : ∀ d m, field { d with itemMaps := m } = field d)
      (d : DirectoryPtr) : field ((v.listFile dir f).directories d) = field (v.directories d) := by
    change field (FileSystem.enlisted v.directories dir (v.file f).fh f d) = _
    rw [FileSystem.enlisted]
    split
    · rfl
    · exact FileSystem.view_update v.directories dir d field (blind _ _)
  have slot (d : DirectoryPtr) : (v.listFile dir f).slot d = v.slot d := view (·.metaSlot) (fun _ _ => rfl) d
  have dir_eq (d : DirectoryPtr) : (v.listFile dir f).dir d = v.dir d := congrArg v.dirs (slot d)
  have children (d : DirectoryPtr) : (v.listFile dir f).children d = v.children d :=
    view (·.childDirMaps) (fun _ _ => rfl) d
  have lists {d : DirectoryPtr} {x : Nat} (there : ((v.directories d).itemMaps.lookup x).isSome ∨
      d = dir ∧ x = v.fileSlot f) : (((v.listFile dir f).directories d).itemMaps.lookup x).isSome := by
    change ((FileSystem.enlisted v.directories dir (v.file f).fh f d).itemMaps.lookup x).isSome
    rw [FileSystem.enlisted, has.2.2]
    by_cases present : ((v.directories dir).itemMaps.lookup (v.fileSlot f)).isSome
    · rw [if_pos present]
      rcases there with there | ⟨rfl, rfl⟩
      · exact there
      · exact present
    · rw [if_neg present, Function.update_apply]
      by_cases same : d = dir
      · rw [if_pos same]
        by_cases slot : x = v.fileSlot f
        · rw [slot, AList.lookup_insert]
          rfl
        · rw [AList.lookup_insert_ne slot]
          rcases there with there | ⟨_, here⟩
          · exact same ▸ there
          · exact absurd here slot
      · rw [if_neg same]
        exact there.resolve_right fun both => same both.1
  have keeps : Roster.Keeps v (v.listFile dir f) :=
    { files := fun _ _ => rfl
      dirs := fun _ _ => rfl
      nextFile := le_rfl
      nextDirectory := le_rfl
      fileSlot := fun _ _ => rfl
      slot := fun d _ => slot d
      dir := fun d _ => dir_eq d }
  refine sound.next ?_ ?_ (keeps.hasFile has) (fun u _ => keeps.own (sound.own u) (fun _ _ => id) ?_ ?_
    fun _ _ _ => id) (fun d this => ?_) (fun d this => ?_) (fun d this => ?_) (fun _ => keeps.fileAt)
    (fun _ _ => keeps.dirAt) (fun _ _ _ => .inl (.inl (by simp [here, NameStage.pendingFile])))
    fun _ _ _ _ _ _ => .inl (.inl (by simp [here, NameStage.pendingFile]))
  · constructor
    · intro x used
      exact (sound.files.registered x used).imp_right (HasStage.exists_kept · (by rw [here]; rfl))
    · exact sound.files.distinct
    · exact sound.files.housed
    · intro x used
      rcases sound.files.filed x used with ⟨g, has', at_⟩ | ⟨d, known, home', there⟩
      · rcases has'.moveTo t (.fileListed f) with has' | mine
        · exact .inl ⟨g, has', at_⟩
        · rw [here] at mine
          obtain rfl := Option.some.inj mine
          refine .inr ⟨dir, bound, ?_, lists (.inr ⟨rfl, at_.symm⟩)⟩
          rw [slot, home, ← at_]
          rfl
      · exact .inr ⟨d, known, (slot d).trans home', lists (.inl there)⟩
  · exact sound.dirs.of_files rfl rfl rfl rfl slot children (by rw [here]; rfl) (by rw [here]; rfl)
      (by rw [here]; rfl)
  · intro d _ _ free q known
    rw [children]
    exact free q known
  · intro p _ d _ _ there
    rw [children]
    exact there
  · simp [NameStage.pendingDir] at this
  · simp [NameStage.target] at this
  · simp at this

/-- A file is entered under its key. -/
theorem NamesSound.enterFile (sound : NamesSound v threads) {f : FilePtr} (here : (threads t).stage = .fileListed f) :
    NamesSound (v.enterFile f) (moveTo threads t (.returned 0)) := by
  have keeps : Roster.Keeps v (v.enterFile f) :=
    ⟨fun _ _ => rfl, fun _ _ => rfl, le_rfl, le_rfl, fun _ _ => rfl, fun _ _ => rfl, fun _ _ => rfl⟩
  refine sound.next ?_ ?_ trivial (fun u _ => keeps.own (sound.own u) (fun _ _ => id) (fun _ _ _ => id)
    (fun _ _ _ _ _ => id) fun _ _ _ => id) (fun d this => ?_) (fun d this => ?_) (fun d this => ?_)
    (fun _ => keeps.fileAt) (fun _ _ => keeps.dirAt)
    (fun _ _ _ => .inl (.inl (by simp [here, NameStage.pendingFile])))
    fun _ _ _ _ _ _ => .inl (.inl (by simp [here, NameStage.pendingFile]))
  · have entered (x : Nat) (old : (v.createdFiles.lookup (v.files x).key).isSome) :
        ((v.enterFile f).createdFiles.lookup (v.files x).key).isSome := by
      change ((v.createdFiles.insert (v.file f).key f).lookup (v.files x).key).isSome
      by_cases same : (v.files x).key = (v.file f).key
      · rw [same, AList.lookup_insert]
        rfl
      · rwa [AList.lookup_insert_ne same]
    constructor
    · intro x used
      rcases sound.files.registered x used with old | ⟨g, has, at_⟩
      · exact .inl (entered x old)
      · rcases has.moveTo t (.returned 0) with has | mine
        · exact .inr ⟨g, has, at_⟩
        · rw [here] at mine
          obtain rfl := Option.some.inj mine
          refine .inl ?_
          change ((v.createdFiles.insert (v.file f).key f).lookup (v.files x).key).isSome
          rw [← at_, Roster.file, AList.lookup_insert]
          rfl
    · exact sound.files.distinct
    · exact sound.files.housed
    · intro x used
      exact (sound.files.filed x used).imp_left (HasStage.exists_kept · (by rw [here]; rfl))
  · exact sound.dirs.of_files rfl rfl rfl rfl (fun _ => rfl) (fun _ => rfl) (by rw [here]; rfl)
      (by rw [here]; rfl) (by rw [here]; rfl)
  · simp [NameStage.pendingDir] at this
  · simp [NameStage.target] at this
  · simp at this

/-- A directory gets its slot. -/
theorem NamesSound.takeDir (sound : NamesSound v threads) {path n : Name} {parent : Option DirectoryPtr} {x : Nat}
    {rest : List Nat} (call : (threads t).call = .createDirectory path)
    (here : (threads t).stage = .looking []) (leads : DirHandle.transformPath path = .ok n)
    (vacant : v.createdDirs.lookup n = none) (free : v.freeDhs = x :: rest)
    (above : if n = ['/'] then parent = none
      else ∃ p, parent = some p ∧ v.createdDirs.lookup (getDirName n) = some p)
    (home : n ≠ ['/'] → ∀ p, v.createdDirs.lookup (getDirName n) = some p → (v.dir p).used = true)
    (apart : ∀ d, HasStage threads NameStage.pendingDir d → (v.dir d).dirName ≠ n) :
    NamesSound (v.takeDir x rest n) (moveTo threads t (.taken parent v.nextDirectory)) := by
  have dirs := sound.dirs
  have head : x ∈ v.freeDhs := by simp [free]
  have untitled {i : Nat} (used : (v.dirs i).used = true) := sound.untitled vacant apart used
  have not_slot {d : DirectoryPtr} (bound : d < v.nextDirectory) : v.slot d ≠ x := fun same =>
    dirs.fresh d bound (same ▸ head)
  have ne {i : Nat} (used : (v.dirs i).used = true) : i ≠ x := by
    obtain ⟨d, bound, rfl, _⟩ := dirs.entered i used
    exact not_slot bound
  have new : (v.takeDir x rest n).dirs x = ⟨true, x, n⟩ := Function.update_self ..
  have old {i : Nat} (other : i ≠ x) : (v.takeDir x rest n).dirs i = v.dirs i := Function.update_of_ne other ..
  have object : (v.takeDir x rest n).directories v.nextDirectory =
      { metaSlot := x, nlink := 0, itemMaps := ∅, childDirMaps := ∅ } := Function.update_self ..
  have still {d : DirectoryPtr} (bound : d < v.nextDirectory) :
      (v.takeDir x rest n).directories d = v.directories d := Function.update_of_ne bound.ne ..
  have slot {d : DirectoryPtr} (bound : d < v.nextDirectory) : (v.takeDir x rest n).slot d = v.slot d := by
    rw [Roster.slot, still bound, Roster.slot]
  have slot_new : (v.takeDir x rest n).slot v.nextDirectory = x := by rw [Roster.slot, object]
  have entry_new : (v.takeDir x rest n).dir v.nextDirectory = ⟨true, x, n⟩ := by rw [Roster.dir, slot_new, new]
  have children {d : DirectoryPtr} (bound : d < v.nextDirectory) :
      (v.takeDir x rest n).children d = v.children d := by
    rw [Roster.children, still bound, Roster.children]
  have children_new : (v.takeDir x rest n).children v.nextDirectory = ∅ := by rw [Roster.children, object]
  have keeps : Roster.Keeps v (v.takeDir x rest n) :=
    { files := fun _ _ => rfl
      dirs := fun i used => old (ne used)
      nextFile := le_rfl
      nextDirectory := Nat.le_succ _
      fileSlot := fun _ _ => rfl
      slot := fun d bound => slot bound
      dir := fun d bound => by rw [Roster.dir, slot bound, old (not_slot bound), Roster.dir] }
  have which {d : DirectoryPtr} (bound : d < v.nextDirectory + 1) : d < v.nextDirectory ∨ d = v.nextDirectory :=
    Nat.lt_succ_iff_lt_or_eq.mp bound
  have listing {q c : DirectoryPtr} {y : Nat} (bound : q < v.nextDirectory + 1)
      (there : ((v.takeDir x rest n).children q).lookup y = some c) :
      q < v.nextDirectory ∧ (v.children q).lookup y = some c := by
    rcases which bound with before | rfl
    · exact ⟨before, by rwa [children before] at there⟩
    · rw [children_new] at there
      simp at there
  have before {view : NameStage → Option Nat} (none : view (.looking []) = none) {q : Nat}
      (has : HasStage threads view q) : HasStage (moveTo threads t (.taken parent v.nextDirectory)) view q := by
    rcases has.moveTo t (.taken parent v.nextDirectory) with has | own
    · exact has
    · rw [here, none] at own
      simp at own
  have higher : (v.takeDir x rest n).Above parent v.nextDirectory := by
    unfold Roster.Above
    by_cases root : n = ['/']
    · rw [if_pos root] at above
      subst above
      rw [entry_new]
      exact root
    · rw [if_neg root] at above
      obtain ⟨p, rfl, entered⟩ := above
      obtain ⟨bound, title⟩ := dirs.named _ p entered
      rw [entry_new]
      dsimp only
      rw [keeps.dir p bound]
      exact ⟨root, bound.trans (Nat.lt_succ_self _), home root p entered, title⟩
  refine sound.next ?_ ?_ ?_ (fun u _ => keeps.own (sound.own u) (fun _ _ => id) ?_ ?_ fun _ _ _ => id)
    (fun d this => .inr fun u => ⟨fun other => ?_, fun other => ?_⟩) (fun d this => ?_) (fun d this => ?_)
    (fun _ => keeps.fileAt) (fun _ _ => keeps.dirAt) (fun path' same => ?_)
    fun path' n' same leads' spared made => .inr ⟨?_, ?_⟩
  · exact sound.files.of_dirs rfl rfl rfl (fun i used _ => by rw [old (ne used)]; exact used) (Nat.le_succ _)
      (fun _ bound => slot bound) (fun _ bound => by rw [still bound]) (by rw [here]; rfl) (by rw [here]; rfl)
  · constructor
    · intro i
      by_cases this : i = x
      · rw [this, new]
      · rw [old this]
        exact dirs.slots i
    · intro d bound d' bound' same
      rcases which bound with hd | rfl <;> rcases which bound' with hd' | rfl
      · rw [slot hd, slot hd'] at same
        exact dirs.apart d hd d' hd' same
      · rw [slot hd, slot_new] at same
        exact absurd same (not_slot hd)
      · rw [slot_new, slot hd'] at same
        exact absurd same.symm (not_slot hd')
      · rfl
    · intro d bound
      have nodup := dirs.nodup
      rw [free, List.nodup_cons] at nodup
      rcases which bound with hd | rfl
      · rw [slot hd]
        intro member
        exact dirs.fresh d hd (free ▸ List.mem_cons_of_mem x member)
      · rw [slot_new]
        exact nodup.1
    · have nodup := dirs.nodup
      rw [free, List.nodup_cons] at nodup
      exact nodup.2
    · intro m d entered
      obtain ⟨bound, title⟩ := dirs.named m d entered
      exact ⟨bound.trans (Nat.lt_succ_self _), by rw [keeps.dir d bound]; exact title⟩
    · intro q bound y c there
      obtain ⟨hq, there⟩ := listing bound there
      obtain ⟨hc, at_⟩ := dirs.kids q hq y c there
      exact ⟨hc.trans (Nat.lt_succ_self _), (slot hc).trans at_⟩
    · intro i used
      by_cases this : i = x
      · exact ⟨v.nextDirectory, Nat.lt_succ_self _, slot_new.trans this.symm, .inr (.self rfl)⟩
      · rw [old this] at used ⊢
        obtain ⟨d, bound, at_, either⟩ := dirs.entered i used
        exact ⟨d, bound.trans (Nat.lt_succ_self _), (slot bound).trans at_, either.imp_right (before rfl)⟩
    · intro i j usedI usedJ same
      by_cases hi : i = x
      · by_cases hj : j = x
        · rw [hi, hj]
        · rw [hi, new, old hj] at same
          rw [old hj] at usedJ
          exact absurd same.symm (untitled usedJ)
      · by_cases hj : j = x
        · rw [hj, new, old hi] at same
          rw [old hi] at usedI
          exact absurd same (untitled usedI)
        · rw [old hi] at usedI same
          rw [old hj] at usedJ same
          exact dirs.titled i j usedI usedJ same
    · intro i used inner
      by_cases this : i = x
      · rw [this, new] at inner ⊢
        dsimp only at inner ⊢
        rw [if_neg inner] at above
        obtain ⟨p, rfl, entered⟩ := above
        exact keeps.dirAt ⟨v.slot p, home inner p entered, (dirs.named _ p entered).2⟩
      · rw [old this] at used inner ⊢
        exact keeps.dirAt (dirs.parented i used inner)
    · intro i used inner
      by_cases this : i = x
      · exact .inl ⟨v.nextDirectory, .self rfl, slot_new.trans this.symm⟩
      · rw [old this] at used inner ⊢
        rcases dirs.adopted i used inner with ⟨d, has, at_⟩ | ⟨q, bound, rest'⟩
        · refine .inl ⟨d, before rfl has, ?_⟩
          rw [slot (sound.hasDir has.unlisted_pending).1]
          exact at_
        · refine .inr ⟨q, bound.trans (Nat.lt_succ_self _), ?_⟩
          rw [keeps.dir q bound, children bound]
          exact rest'
    · intro q bound y c there
      obtain ⟨hq, there⟩ := listing bound there
      rw [keeps.dir c (dirs.kids q hq y c there).1]
      exact (dirs.held q hq y c there).imp_right (before rfl)
    · intro q bound q' bound' y there there'
      obtain ⟨c, there⟩ := Option.isSome_iff_exists.mp there
      obtain ⟨c', there'⟩ := Option.isSome_iff_exists.mp there'
      obtain ⟨hq, there⟩ := listing bound there
      obtain ⟨hq', there'⟩ := listing bound' there'
      exact dirs.once q hq q' hq' y (by simp [there]) (by simp [there'])
  · refine ⟨⟨Nat.lt_succ_self _, by rw [entry_new], fun m entered => ?_⟩, fun q bound => ?_, higher⟩
    · exact absurd (dirs.named m _ entered).1 (lt_irrefl _)
    · rw [slot_new]
      rcases which bound with hq | rfl
      · rw [children hq]
        cases there : (v.children q).lookup x with
        | none => rfl
        | some c =>
          obtain ⟨hc, at_⟩ := dirs.kids q hq x c there
          exact absurd at_ (not_slot hc)
      · rw [children_new]
        rfl
  · intro d hd _ unlisted q bound
    rcases which bound with hq | rfl
    · rw [children hq]
      exact unlisted q hq
    · rw [children_new]
      rfl
  · intro p hp d _ _ there
    rw [children hp]
    exact there
  · obtain rfl := Option.some.inj this
    exact absurd (sound.hasDir ⟨u, other⟩).1 (lt_irrefl _)
  · obtain rfl := Option.some.inj this
    exact absurd (sound.targeted other) (lt_irrefl _)
  · simp [NameStage.target] at this
  · simp at this
  · rw [call] at same
    simp at same
  · rw [call] at same
    obtain rfl := NameCall.createDirectory.inj same
    rw [leads] at leads'
    obtain rfl := Except.ok.inj leads'
    exact ⟨x, by rw [new], by rw [new]⟩
  · intro u other path'' same'' leads'' made''
    rw [call] at same
    obtain rfl := NameCall.createDirectory.inj same
    rw [leads] at leads'
    obtain rfl := Except.ok.inj leads'
    obtain ⟨i, used, title⟩ := sound.dirAt u path'' n same'' leads'' spared made''
    exact untitled used title

/-- A directory is listed by its parent. -/
theorem NamesSound.adopt (sound : NamesSound v threads) {p d : DirectoryPtr}
    (here : (threads t).stage = .written (some p) d) :
    NamesSound (v.adopt p d) (moveTo threads t (.listed (some p) d)) := by
  have dirs := sound.dirs
  have own := sound.own t
  rw [Roster.Own, here] at own
  obtain ⟨has, free, _, bound, used, title⟩ := own
  have handle : (v.dir d).dh = v.slot d := dirs.slots _
  have slot (q : DirectoryPtr) : (v.adopt p d).slot q = v.slot q :=
    FileSystem.adoptedBy_metaSlot v.directories p _ d q
  have dir_eq (q : DirectoryPtr) : (v.adopt p d).dir q = v.dir q := congrArg v.dirs (slot q)
  have kept {q : DirectoryPtr} {x : Nat} (other : x ≠ v.slot d) :
      ((v.adopt p d).children q).lookup x = (v.children q).lookup x := by
    refine FileSystem.lookup_adoptedBy ?_
    rwa [handle]
  have lists {q : DirectoryPtr} (known : q < v.nextDirectory) {c : DirectoryPtr} :
      ((v.adopt p d).children q).lookup (v.slot d) = some c ↔ q = p ∧ c = d := by
    have only := @FileSystem.lookup_adoptedBy_iff v.directories p q d (v.slot d) (free q known) (free p bound)
    rw [← handle] at only ⊢
    constructor
    · intro there
      have mine : c = d := by
        change (FileSystem.adoptedBy v.directories p (v.dir d).dh d q).childDirMaps.lookup _ = _ at there
        rw [FileSystem.adoptedBy] at there
        split at there
        · rw [handle] at there
          rw [show (v.directories q).childDirMaps.lookup (v.slot d) = none from free q known] at there
          simp at there
        · rw [Function.update_apply] at there
          split at there
          · rw [AList.lookup_insert] at there
            exact (Option.some.inj there).symm
          · rw [handle] at there
            rw [show (v.directories q).childDirMaps.lookup (v.slot d) = none from free q known] at there
            simp at there
      subst mine
      exact ⟨only.mp there, rfl⟩
    · rintro ⟨rfl, rfl⟩
      exact only.mpr rfl
  have listing {q c : DirectoryPtr} {x : Nat} (known : q < v.nextDirectory)
      (there : ((v.adopt p d).children q).lookup x = some c) :
      (v.children q).lookup x = some c ∨ x = v.slot d ∧ q = p ∧ c = d := by
    by_cases mine : x = v.slot d
    · rw [mine] at there
      exact .inr ⟨mine, (lists known).mp there⟩
    · rw [kept mine] at there
      exact .inl there
  have keeps : Roster.Keeps v (v.adopt p d) :=
    ⟨fun _ _ => rfl, fun _ _ => rfl, le_rfl, le_rfl, fun _ _ => rfl, fun q _ => slot q, fun q _ => dir_eq q⟩
  have foreign {u : Tid} (other : u ≠ t) {e : DirectoryPtr} (known : e < v.nextDirectory)
      (view : (threads u).stage.pendingDir = some e ∨ (threads u).stage.target = some e) :
      v.slot e ≠ v.slot d := by
    intro same
    obtain rfl := dirs.apart e known d has.1 same
    have mine : (threads t).stage.pendingDir = some e := by rw [here]; rfl
    rcases view with theirs | theirs
    · exact sound.pending u t other e theirs mine
    · exact sound.target u t e theirs mine
  refine sound.next ?_ ?_ ⟨keeps.hasDir has has.2.2, fun q same => ?_⟩ (fun u other => keeps.own (sound.own u) (fun _ _ => id)
    (fun e known stage unlisted q hq => ?_) (fun q hq e known stage there => ?_) fun _ _ _ => id) (fun e this => .inl ?_)
    (fun e this => ?_) (fun e this => ?_) (fun _ => keeps.fileAt) (fun _ _ => keeps.dirAt)
    (fun _ _ _ => .inl (.inr (.inl (by simp [here, NameStage.pendingDir]))))
    fun _ _ _ _ _ _ => .inl (.inr (.inl (by simp [here, NameStage.pendingDir])))
  · refine sound.files.of_dirs rfl rfl rfl (fun _ used _ => used) le_rfl (fun q _ => slot q) (fun q _ => ?_)
      (by rw [here]; rfl) (by rw [here]; rfl)
    change (FileSystem.adoptedBy v.directories p _ d q).itemMaps = _
    rw [FileSystem.adoptedBy]
    split
    · rfl
    · exact FileSystem.view_update v.directories p q (·.itemMaps) rfl
  · constructor
    · exact dirs.slots
    · simp only [slot]
      exact dirs.apart
    · simp only [slot]
      exact dirs.fresh
    · exact dirs.nodup
    · simp only [dir_eq]
      exact dirs.named
    · intro q hq x c there
      rw [slot]
      rcases listing hq there with there | ⟨rfl, rfl, rfl⟩
      · exact dirs.kids q hq x c there
      · exact ⟨has.1, rfl⟩
    · intro i used
      obtain ⟨e, known, at_, either⟩ := dirs.entered i used
      exact ⟨e, known, (slot e).trans at_, either.imp_right (·.kept (by rw [here]; rfl))⟩
    · exact dirs.titled
    · exact dirs.parented
    · intro i usedI inner
      rcases dirs.adopted i usedI inner with ⟨e, has', at_⟩ | ⟨q, hq, usedQ, titleQ, there⟩
      · rcases has'.moveTo t (.listed (some p) d) with has' | mine
        · exact .inl ⟨e, has', (slot e).trans at_⟩
        · rw [here] at mine
          obtain rfl := Option.some.inj mine
          subst at_
          refine .inr ⟨p, bound, ?_, ?_, ?_⟩
          · rw [dir_eq]
            exact used
          · rw [dir_eq]
            exact title
          · rw [(lists bound).mpr ⟨rfl, rfl⟩]
            rfl
      · refine .inr ⟨q, hq, ?_⟩
        rw [dir_eq]
        refine ⟨usedQ, titleQ, ?_⟩
        by_cases mine : i = v.slot d
        · rw [mine, free q hq] at there
          simp at there
        · rwa [kept mine]
    · intro q hq x c there
      rw [dir_eq]
      rcases listing hq there with there | ⟨-, -, rfl⟩
      · rcases dirs.held q hq x c there with entered | has'
        · exact .inl entered
        · exact .inr ((has'.moveTo t _).resolve_right fun mine => by rw [here] at mine; simp [NameStage.listedDir] at mine)
      · exact .inr (.self rfl)
    · intro q hq q' hq' x there there'
      obtain ⟨c, there⟩ := Option.isSome_iff_exists.mp there
      obtain ⟨c', there'⟩ := Option.isSome_iff_exists.mp there'
      rcases listing hq there with first | ⟨same, rfl, -⟩
      · rcases listing hq' there' with second | ⟨same, -, -⟩
        · exact dirs.once q hq q' hq' x (by simp [first]) (by simp [second])
        · rw [same, free q hq] at first
          simp at first
      · rcases listing hq' there' with second | ⟨-, rfl, -⟩
        · rw [same, free q' hq'] at second
          simp at second
        · rfl
  · obtain rfl := Option.some.inj same
    rw [slot, (lists bound).mpr ⟨rfl, rfl⟩]
    exact ⟨bound, rfl⟩
  · have apart : v.slot e ≠ v.slot d := by
      refine foreign other known (stage.imp (fun mine => ?_) fun mine => by rw [mine]; rfl)
      revert mine
      cases (threads u).stage <;> simp [NameStage.unlistedDir, NameStage.pendingDir]
    rw [kept apart]
    exact unlisted q hq
  · have apart : v.slot e ≠ v.slot d := foreign other known (.inl (by rw [stage]; rfl))
    rwa [kept apart]
  · rw [here]
    exact this
  · simp [NameStage.target] at this
  · simp at this

/-- A directory is entered under its name. -/
theorem NamesSound.enterDir (sound : NamesSound v threads) {parent : Option DirectoryPtr} {d : DirectoryPtr}
    (here : (threads t).stage = .listed parent d) (vacant : v.createdDirs.lookup (v.dir d).dirName = none) :
    NamesSound (v.enterDir d) (moveTo threads t (.returned 0)) := by
  have dirs := sound.dirs
  have own := sound.own t
  rw [Roster.Own, here] at own
  obtain ⟨has, _⟩ := own
  have entry {n : Name} {e : DirectoryPtr} (there : (v.enterDir d).createdDirs.lookup n = some e) :
      n = (v.dir d).dirName ∧ e = d ∨ v.createdDirs.lookup n = some e :=
    (FileSystem.lookup_of_insert there).imp_right And.right
  have kept {n : Name} {e : DirectoryPtr} (there : v.createdDirs.lookup n = some e) :
      (v.enterDir d).createdDirs.lookup n = some e := by
    change (v.createdDirs.insert (v.dir d).dirName d).lookup n = some e
    rw [AList.lookup_insert_ne]
    · exact there
    · rintro rfl
      rw [vacant] at there
      simp at there
  have mine : (v.enterDir d).createdDirs.lookup (v.dir d).dirName = some d := AList.lookup_insert _
  have keeps : Roster.Keeps v (v.enterDir d) :=
    ⟨fun _ _ => rfl, fun _ _ => rfl, le_rfl, le_rfl, fun _ _ => rfl, fun _ _ => rfl, fun _ _ => rfl⟩
  refine sound.next ?_ ?_ trivial (fun u other => keeps.own (sound.own u) (fun e theirs unentered n there => ?_)
    (fun _ _ _ => id) (fun _ _ _ _ _ => id) fun _ _ _ => kept) (fun e this => ?_) (fun e this => ?_)
    (fun e this => ?_) (fun _ => keeps.fileAt) (fun _ _ => keeps.dirAt)
    (fun _ _ _ => .inl (.inr (.inl (by simp [here, NameStage.pendingDir]))))
    fun _ _ _ _ _ _ => .inl (.inr (.inl (by simp [here, NameStage.pendingDir])))
  · exact sound.files.of_dirs rfl rfl rfl (fun _ used _ => used) le_rfl (fun _ _ => rfl) (fun _ _ => rfl)
      (by rw [here]; rfl) (by rw [here]; rfl)
  · refine
      { slots := dirs.slots, apart := dirs.apart, fresh := dirs.fresh, nodup := dirs.nodup, kids := dirs.kids
        titled := dirs.titled, parented := dirs.parented, once := dirs.once, named := ?_, entered := ?_
        adopted := ?_, held := ?_ }
    · intro n e there
      rcases entry there with ⟨rfl, rfl⟩ | old
      · exact ⟨has.1, rfl⟩
      · exact dirs.named n e old
    · intro i used
      obtain ⟨e, known, at_, entered | pending⟩ := dirs.entered i used
      · exact ⟨e, known, at_, .inl (kept entered)⟩
      · rcases pending.moveTo t (.returned 0) with pending | own
        · exact ⟨e, known, at_, .inr pending⟩
        · rw [here] at own
          obtain rfl := Option.some.inj own
          subst at_
          exact ⟨d, known, rfl, .inl mine⟩
    · intro i used inner
      exact (dirs.adopted i used inner).imp_left (HasStage.exists_kept · (by rw [here]; rfl))
    · intro q bound x c there
      rcases dirs.held q bound x c there with entered | listed
      · exact .inl (kept entered)
      · rcases listed.moveTo t (.returned 0) with listed | own
        · exact .inr listed
        · rw [here] at own
          obtain rfl := Option.some.inj own
          exact .inl mine
  · rcases entry there with ⟨rfl, rfl⟩ | old
    · exact sound.pending u t other e theirs (by rw [here]; rfl)
    · exact unentered n old
  · simp [NameStage.pendingDir] at this
  · simp [NameStage.target] at this
  · simp at this

/-- A directory that lists nothing, and in which nothing is being created, loses its slot. -/
theorem NamesSound.clear (sound : NamesSound v threads) {parent d : DirectoryPtr}
    (here : (threads t).stage = .unopened parent d)
    (empty : (v.dir d).used = true → (v.directories d).itemMaps = ∅ ∧ (v.directories d).childDirMaps = ∅ ∧
      (∀ f, HasStage threads NameStage.pendingFile f → (v.file f).dh ≠ v.slot d) ∧
      ∀ e, HasStage threads NameStage.pendingDir e → getDirName (v.dir e).dirName ≠ (v.dir d).dirName) :
    NamesSound (v.clear d) (moveTo threads t (.cleared parent d)) := by
  have dirs := sound.dirs
  have own := sound.own t
  rw [Roster.Own, here] at own
  obtain ⟨known, bound, path, call, leads⟩ := own
  have cleared : (v.clear d).dirs (v.slot d) = { v.dir d with used := false } := Function.update_self ..
  have old {i : Nat} (other : i ≠ v.slot d) : (v.clear d).dirs i = v.dirs i := Function.update_of_ne other ..
  have title (i : Nat) : ((v.clear d).dirs i).dirName = (v.dirs i).dirName :=
    FileSystem.view_update v.dirs _ i (·.dirName) rfl
  have titled (e : DirectoryPtr) : ((v.clear d).dir e).dirName = (v.dir e).dirName := title _
  have ne {i : Nat} (used : ((v.clear d).dirs i).used = true) : i ≠ v.slot d := by
    rintro rfl
    rw [cleared] at used
    simp at used
  have before {i : Nat} (used : ((v.clear d).dirs i).used = true) : (v.dirs i).used = true := by
    rwa [old (ne used)] at used
  have still {i : Nat} (used : (v.dirs i).used = true) (other : i ≠ v.slot d) :
      ((v.clear d).dirs i).used = true := by
    rwa [old other]
  -- No file in use lies in the directory, and no other directory in use is below it.
  have no_file {x : Nat} (used : (v.files x).used = true) : (v.files x).dh ≠ v.slot d := by
    intro home
    have usedDir := home ▸ sound.files.housed x used
    obtain ⟨noFiles, -, apart, -⟩ := empty usedDir
    rcases sound.files.filed x used with ⟨f, has, rfl⟩ | ⟨e, he, at_, lists⟩
    · exact apart f has.unlisted_pendingFile home
    · obtain rfl := dirs.apart e he d bound (at_.trans home)
      rw [noFiles] at lists
      simp at lists
  have no_child {i : Nat} (used : (v.dirs i).used = true) (inner : (v.dirs i).dirName ≠ ['/'])
      (usedDir : (v.dir d).used = true) : getDirName (v.dirs i).dirName ≠ (v.dir d).dirName := by
    intro below
    obtain ⟨-, noChildren, -, apart⟩ := empty usedDir
    rcases dirs.adopted i used inner with ⟨e, has, rfl⟩ | ⟨q, hq, usedQ, titleQ, lists⟩
    · exact apart e has.unlisted_pending below
    · have same := dirs.titled (v.slot q) (v.slot d) usedQ usedDir (titleQ.trans below)
      obtain rfl := dirs.apart q hq d bound same
      rw [Roster.children, noChildren] at lists
      simp at lists
  have mine {u : Tid} {e : DirectoryPtr} (he : e < v.nextDirectory)
      (theirs : (threads u).stage.pendingDir = some e) : v.slot e ≠ v.slot d := by
    intro same
    obtain rfl := dirs.apart e he d bound same
    exact sound.target t u e (by rw [here]; rfl) theirs
  have hasDir {u : Tid} {e : DirectoryPtr} (has : v.HasDir e)
      (theirs : (threads u).stage.pendingDir = some e) : (v.clear d).HasDir e :=
    ⟨has.1, still has.2.1 (mine has.1 theirs), has.2.2⟩
  have above {u : Tid} {p : Option DirectoryPtr} {e : DirectoryPtr} (above : v.Above p e)
      (theirs : (threads u).stage.pendingDir = some e) : (v.clear d).Above p e := by
    cases p with
    | none => exact (titled e).trans above
    | some p =>
      obtain ⟨inner, hp, usedP, titleP⟩ := above
      refine ⟨(titled e).symm ▸ inner, hp, still usedP fun same => ?_, (titled p).trans (titleP.trans (congrArg getDirName (titled e)).symm)⟩
      have usedDir : (v.dir d).used = true := by
        rw [Roster.dir, ← same]
        exact usedP
      have same : v.slot p = v.slot d := same
      refine (empty usedDir).2.2.2 e ⟨u, theirs⟩ ?_
      rw [← titleP, Roster.dir, same, Roster.dir]
  refine sound.next ?_ ?_ ⟨⟨known, path, call⟩, bound, by rw [Roster.dir]; exact congrArg DirEntry.used cleared⟩
    (fun u other => ?_) (fun e this => ?_) (fun e this => .inl ?_) (fun e this => ?_) (fun path' there => ?_)
    (fun n spared there => ?_) (fun path' same => ?_) fun path' n same => ?_
  · refine sound.files.of_dirs rfl rfl rfl (fun i used lies => still used fun same => ?_) le_rfl
      (fun _ _ => rfl) (fun _ _ => rfl) (by rw [here]; rfl) (by rw [here]; rfl)
    obtain ⟨x, usedX, home⟩ := lies
    exact no_file usedX (home.trans same)
  · constructor
    · intro i
      have handle : ((v.clear d).dirs i).dh = (v.dirs i).dh := FileSystem.view_update v.dirs _ i (·.dh) rfl
      exact handle.trans (dirs.slots i)
    · exact dirs.apart
    · exact dirs.fresh
    · exact dirs.nodup
    · intro n e there
      obtain ⟨he, name⟩ := dirs.named n e there
      exact ⟨he, (titled e).trans name⟩
    · exact dirs.kids
    · intro i used
      obtain ⟨e, he, at_, either⟩ := dirs.entered i (before used)
      rw [title]
      exact ⟨e, he, at_, either.imp_right (·.kept (by rw [here]; rfl))⟩
    · intro i j usedI usedJ same
      rw [title, title] at same
      exact dirs.titled i j (before usedI) (before usedJ) same
    · intro i used inner
      rw [title] at inner ⊢
      obtain ⟨e, usedE, titleE⟩ := dirs.parented i (before used) inner
      refine ⟨e, still usedE fun same => ?_, (title e).trans titleE⟩
      subst same
      exact no_child (before used) inner usedE titleE.symm
    · intro i used inner
      rw [title] at inner ⊢
      rcases dirs.adopted i (before used) inner with ⟨e, has, at_⟩ | ⟨q, hq, usedQ, titleQ, lists⟩
      · exact .inl ⟨e, has.kept (by rw [here]; rfl), at_⟩
      · refine .inr ⟨q, hq, still usedQ fun same => ?_, (titled q).trans titleQ, lists⟩
        have usedDir : (v.dir d).used = true := by
          rw [Roster.dir, ← same]
          exact usedQ
        have same : v.slot q = v.slot d := same
        refine no_child (before used) inner usedDir ?_
        rw [← titleQ, Roster.dir, same, Roster.dir]
    · intro q hq x c there
      rw [titled]
      exact (dirs.held q hq x c there).imp_right (·.kept (by rw [here]; rfl))
    · exact dirs.once
  · have theirs := sound.own u
    have pending {e : DirectoryPtr} (same : (threads u).stage.pendingDir = some e) :
        (v.HasDir e → (v.clear d).HasDir e) ∧ ∀ p, v.Above p e → (v.clear d).Above p e :=
      ⟨fun has => hasDir has same, fun _ above' => above above' same⟩
    revert theirs pending
    rcases threads u with ⟨other, stage⟩
    intro theirs pending
    cases stage with
    | begun | looking | within | returned => trivial
    | located dir filename =>
      refine ⟨theirs.1, fun path same => ?_⟩
      rw [titled]
      exact theirs.2 path same
    | fileTaken | fileWritten | fileListed => exact theirs
    | taken p e | written p e =>
      exact ⟨(pending rfl).1 theirs.1, theirs.2.1, (pending rfl).2 p theirs.2.2⟩
    | listed p e => exact ⟨(pending rfl).1 theirs.1, theirs.2⟩
    | found p e | childless p e | unopened p e =>
      obtain ⟨hp, he, path, same, leads⟩ := theirs
      exact ⟨hp, he, path, same, by rw [titled]; exact leads⟩
    | cleared p e =>
      refine ⟨theirs.1, theirs.2.1, ?_⟩
      by_contra used
      rw [Bool.not_eq_false] at used
      have unused := theirs.2.2
      rw [show (v.dir e).used = true from before used] at unused
      simp at unused
    | delisted e =>
      refine ⟨theirs.1, ?_, ?_, theirs.2.2.2⟩
      · by_contra used
        rw [Bool.not_eq_false] at used
        have unused := theirs.2.1
        rw [show (v.dir e).used = true from before used] at unused
        simp at unused
      · rw [titled]
        exact theirs.2.2.1
  · simp [NameStage.pendingDir] at this
  · rw [here]
    exact this
  · simp at this
  · obtain ⟨dirName, filename, i, x, address, usedDir, name, usedFile, key⟩ := there
    have home : (v.files x).dh = i := congrArg Prod.fst key
    exact ⟨dirName, filename, i, x, address, still usedDir fun same => no_file usedFile (home.trans same),
      (title i).trans name, usedFile, key⟩
  · obtain ⟨i, used, name⟩ := there
    refine ⟨i, still used fun same => ?_, (title i).trans name⟩
    subst same
    exact spared t path call (name ▸ leads)
  · rw [call] at same
    simp at same
  · rw [call] at same
    simp at same

/-- A directory without a slot is taken out of the child map of its parent. -/
theorem NamesSound.orphan (sound : NamesSound v threads) {p d : DirectoryPtr}
    (here : (threads t).stage = .cleared p d) (present : ((v.children p).lookup (v.dir d).dh).isSome) :
    NamesSound (v.orphan p d) (moveTo threads t (.delisted d)) := by
  have dirs := sound.dirs
  have own := sound.own t
  rw [Roster.Own, here] at own
  obtain ⟨⟨known, path, call⟩, bound, unused⟩ := own
  have handle : (v.dir d).dh = v.slot d := dirs.slots _
  rw [handle] at present
  have slot (q : DirectoryPtr) : (v.orphan p d).slot q = v.slot q :=
    FileSystem.orphanedFrom_metaSlot v.directories p _ q
  have dir_eq (q : DirectoryPtr) : (v.orphan p d).dir q = v.dir q := congrArg v.dirs (slot q)
  have kept {q : DirectoryPtr} {x : Nat} (other : x ≠ v.slot d) :
      ((v.orphan p d).children q).lookup x = (v.children q).lookup x := by
    refine FileSystem.lookup_orphanedFrom ?_
    rwa [handle]
  have gone : ((v.orphan p d).children p).lookup (v.slot d) = none := by
    change (FileSystem.orphanedFrom v.directories p (v.dir d).dh p).childDirMaps.lookup _ = _
    rw [FileSystem.orphanedFrom, Function.update_self, handle]
    exact AList.lookup_erase (v.slot d) (v.children p)
  have listing {q c : DirectoryPtr} {x : Nat} (there : ((v.orphan p d).children q).lookup x = some c) :
      (v.children q).lookup x = some c := by
    by_cases mine : x = v.slot d
    · by_cases same : q = p
      · rw [mine, same, gone] at there
        simp at there
      · change (FileSystem.orphanedFrom v.directories p (v.dir d).dh q).childDirMaps.lookup x = _ at there
        rwa [FileSystem.orphanedFrom, Function.update_of_ne same] at there
    · rwa [kept mine] at there
  have entered : v.createdDirs.lookup (v.dir d).dirName = some d := by
    obtain ⟨c, there⟩ := Option.isSome_iff_exists.mp present
    obtain ⟨hc, at_⟩ := dirs.kids p known _ c there
    obtain rfl := dirs.apart c hc d bound at_
    rcases dirs.held p known _ c there with entered | listed
    · exact entered
    · obtain ⟨u, pending⟩ := listed.listed_pending
      exact absurd pending (sound.target t u c (by rw [here]; rfl))
  have keeps : Roster.Keeps v (v.orphan p d) :=
    ⟨fun _ _ => rfl, fun _ _ => rfl, le_rfl, le_rfl, fun _ _ => rfl, fun q _ => slot q, fun q _ => dir_eq q⟩
  have unlist {x : Nat} (unlisted : v.Unlisted x) : (v.orphan p d).Unlisted x := by
    intro q hq
    cases there : ((v.orphan p d).children q).lookup x with
    | none => rfl
    | some c =>
      have before := unlisted q hq
      rw [listing there] at before
      simp at before
  refine sound.next ?_ ?_ ⟨⟨bound, path, call⟩, ?_, ?_, fun q hq => ?_⟩ (fun u other => keeps.own (sound.own u)
    (fun _ _ => id) (fun e he _ => ?_) (fun q hq e he stage there => ?_) fun _ _ _ => id) (fun e this => ?_)
    (fun e this => .inl ?_) (fun e this u other => ?_) (fun _ => keeps.fileAt) (fun _ _ => keeps.dirAt)
    (fun path' same => ?_) fun path' n same => ?_
  · refine sound.files.of_dirs rfl rfl rfl (fun _ used _ => used) le_rfl (fun q _ => slot q) (fun q _ => ?_)
      (by rw [here]; rfl) (by rw [here]; rfl)
    exact FileSystem.view_update v.directories p q (·.itemMaps) rfl
  · constructor
    · exact dirs.slots
    · simp only [slot]
      exact dirs.apart
    · simp only [slot]
      exact dirs.fresh
    · exact dirs.nodup
    · simp only [dir_eq]
      exact dirs.named
    · intro q hq x c there
      rw [slot]
      exact dirs.kids q hq x c (listing there)
    · intro i used
      obtain ⟨e, he, at_, either⟩ := dirs.entered i used
      exact ⟨e, he, (slot e).trans at_, either.imp_right (·.kept (by rw [here]; rfl))⟩
    · exact dirs.titled
    · exact dirs.parented
    · intro i used inner
      rcases dirs.adopted i used inner with ⟨e, has, at_⟩ | ⟨q, hq, usedQ, titleQ, lists⟩
      · exact .inl ⟨e, has.kept (by rw [here]; rfl), (slot e).trans at_⟩
      · refine .inr ⟨q, hq, ?_⟩
        rw [dir_eq, kept]
        · exact ⟨usedQ, titleQ, lists⟩
        · rintro rfl
          rw [Roster.dir] at unused
          rw [show (v.dirs (v.slot d)).used = true from used] at unused
          simp at unused
    · intro q hq x c there
      rw [dir_eq]
      exact (dirs.held q hq x c (listing there)).imp_right (·.kept (by rw [here]; rfl))
    · intro q hq q' hq' x there there'
      obtain ⟨c, there⟩ := Option.isSome_iff_exists.mp there
      obtain ⟨c', there'⟩ := Option.isSome_iff_exists.mp there'
      exact dirs.once q hq q' hq' x (by simp [listing there]) (by simp [listing there'])
  · rw [dir_eq]
    exact unused
  · rw [dir_eq]
    exact entered
  · rw [slot]
    cases there : ((v.orphan p d).children q).lookup (v.slot d) with
    | none => rfl
    | some c =>
      obtain rfl := dirs.once q hq p known (v.slot d) (by simp [listing there]) present
      rw [gone] at there
      simp at there
  · exact unlist
  · rw [kept]
    · exact there
    · intro same
      obtain rfl := dirs.apart e he d bound same
      exact sound.target t u e (by rw [here]; rfl) (by rw [stage]; rfl)
  · simp [NameStage.pendingDir] at this
  · rw [here]
    exact this
  · obtain rfl := NameStage.delisted.inj this
    intro theirs
    have own := sound.own u
    rw [Roster.Own, theirs] at own
    rw [own.2.2.2 p known] at present
    simp at present
  · rw [call] at same
    simp at same
  · rw [call] at same
    simp at same

/-- A directory that no map lists leaves the index. -/
theorem NamesSound.dropDir (sound : NamesSound v threads) {d : DirectoryPtr} {r : Int}
    (here : (threads t).stage = .delisted d) : NamesSound (v.dropDir d) (moveTo threads t (.returned r)) := by
  have dirs := sound.dirs
  have own := sound.own t
  rw [Roster.Own, here] at own
  obtain ⟨⟨bound, path, call⟩, unused, entered, unlisted⟩ := own
  have entry {n : Name} {e : DirectoryPtr} (there : (v.dropDir d).createdDirs.lookup n = some e) :
      v.createdDirs.lookup n = some e := (FileSystem.lookup_of_erase there).1
  have kept {e : DirectoryPtr} (there : v.createdDirs.lookup (v.dir e).dirName = some e) (other : e ≠ d) :
      (v.dropDir d).createdDirs.lookup (v.dir e).dirName = some e := by
    change (v.createdDirs.erase (v.dir d).dirName).lookup _ = _
    rw [AList.lookup_erase_ne]
    · exact there
    · intro same
      rw [same, entered] at there
      exact other (Option.some.inj there).symm
  have keeps : Roster.Keeps v (v.dropDir d) :=
    ⟨fun _ _ => rfl, fun _ _ => rfl, le_rfl, le_rfl, fun _ _ => rfl, fun _ _ => rfl, fun _ _ => rfl⟩
  refine sound.next ?_ ?_ trivial (fun u other => keeps.own (sound.own u) (fun e _ unentered n there => ?_)
    (fun _ _ _ => id) (fun _ _ _ _ _ => id) fun e _ theirs there => ?_) (fun e this => ?_) (fun e this => ?_)
    (fun e this => ?_) (fun _ => keeps.fileAt) (fun _ _ => keeps.dirAt) (fun path' same => ?_) fun path' n same => ?_
  · exact sound.files.of_dirs rfl rfl rfl (fun _ used _ => used) le_rfl (fun _ _ => rfl) (fun _ _ => rfl)
      (by rw [here]; rfl) (by rw [here]; rfl)
  · refine
      { slots := dirs.slots, apart := dirs.apart, fresh := dirs.fresh, nodup := dirs.nodup, kids := dirs.kids
        titled := dirs.titled, parented := dirs.parented, once := dirs.once
        named := fun n e there => dirs.named n e (entry there), entered := ?_, adopted := ?_, held := ?_ }
    · intro i used
      obtain ⟨e, he, rfl, there | pending⟩ := dirs.entered i used
      · refine ⟨e, he, rfl, .inl (kept there fun same => ?_)⟩
        rw [← same] at unused
        rw [show (v.dir e).used = true from used] at unused
        simp at unused
      · exact ⟨e, he, rfl, .inr (pending.kept (by rw [here]; rfl))⟩
    · intro i used inner
      exact (dirs.adopted i used inner).imp_left (HasStage.exists_kept · (by rw [here]; rfl))
    · intro q hq x c there
      rcases dirs.held q hq x c there with found | listed
      · refine .inl (kept found fun same => ?_)
        subst same
        have none := unlisted q hq
        rw [(dirs.kids q hq x c there).2] at none
        rw [show (v.children q).lookup x = some c from there] at none
        simp at none
      · exact .inr (listed.kept (by rw [here]; rfl))
  · exact unentered n (entry there)
  · refine kept there fun same => ?_
    subst same
    exact sound.dropped u t other e theirs here
  · simp [NameStage.pendingDir] at this
  · simp [NameStage.target] at this
  · simp at this
  · rw [call] at same
    simp at same
  · rw [call] at same
    simp at same

end Effects

end BlockFs
