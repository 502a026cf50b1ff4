import BlockFs.Mirroring
import BlockFs.Listing

namespace BlockFs.FileSystem

section Calls
variable [Crc32] {D F B : Set Nat} {s t : FileSystem} {env : Env}

section Files
variable {f : FilePtr} {lost : Lost}

omit [Crc32] in
theorem addFileToDirectory_plates (s : FileSystem) (dir : DirectoryPtr) (f : FilePtr) :
    (s.addFileToDirectory dir f).plates = s.plates := by
  rw [addFileToDirectory_frame]
  rfl

omit [Crc32] in
theorem removeFileFromoDirectory_plates (s : FileSystem) (dir : DirectoryPtr) (f : FilePtr) :
    (s.removeFileFromoDirectory dir f).1.plates = s.plates := by
  obtain ⟨directories, names, fhs, state⟩ := removeFileFromoDirectory_frame s dir f
  rw [state]
  rfl

omit [Crc32] in
theorem getCreatedDirectory_handle (housed : Housed s) {path : Name} {dir : DirectoryPtr}
    (found : s.getCreatedDirectory path = .ok dir) : (s.dirMeta dir).dh ∈ s.dirHandles := by
  obtain ⟨p, leads⟩ := getCreatedDirectory_ok found
  have entry := (housed.named p dir leads).2
  rw [housed.dirMeta_dh]
  simp [dirHandles, entry]

omit [Crc32] in
theorem take_ne_nil {name : Name} (real : name ≠ []) : name.take kBlockFsMaxFileNameLen ≠ [] := by
  cases name with
  | nil => exact absurd rfl real
  | cons c rest => simp [kBlockFsMaxFileNameLen]

omit [Crc32] in
theorem tmpFileName_ne_nil (x : Nat) : tmpFileName x ≠ [] := by
  simp [tmpFileName]

omit [Crc32] in
/-- A new file gets the first free slot, a name and a directory. -/
theorem newFile_fresh (clean : CleanFhs s) (housed : Housed s) (env : Env) (dirname : Name) {filename : Name}
    {tmpfile : Bool} (named : tmpfile = true ∨ filename ≠ []) :
    (∃ e, s.newFile env dirname filename tmpfile = ({ s with errno := e }, none)) ∨
    ∃ x rest dir name, name ≠ [] ∧ (s.dirMeta dir).dh ∈ s.dirHandles ∧
      s.newFile env dirname filename tmpfile =
        (s.allocated x rest (s.freshMeta env x (s.dirMeta dir).dh name tmpfile), some (dir, s.nextFile)) := by
  rw [newFile]
  cases found : s.getCreatedDirectory dirname with
  | error e => exact .inl ⟨_, rfl⟩
  | ok dir =>
    dsimp only
    split
    · exact .inl ⟨_, rfl⟩
    cases free : s.freeFhs with
    | nil =>
      refine .inl ⟨ENFILE, ?_⟩
      cases tmpfile <;> simp [newFreeTmpFileNolock, newFreeFileNolock, newFreeFile, free]
    | cons x rest =>
      refine .inr ⟨x, rest, dir, if tmpfile then tmpFileName x else filename, ?_,
        getCreatedDirectory_handle housed found, ?_⟩
      · cases tmpfile with
        | true => exact tmpFileName_ne_nil x
        | false => exact named.resolve_left Bool.false_ne_true
      cases tmpfile <;>
        simp [newFreeTmpFileNolock, newFreeFileNolock, clean.newFreeFile_cons _ _ _ free, allocated, freshMeta]

theorem Flushed.createFileIn (flushed : Flushed s) (clean : CleanFhs s) (housed : Housed s) (ok : env.IoOk)
    (dirname : Name) {filename : Name} {tmpfile : Bool} (named : tmpfile = true ∨ filename ≠ []) :
    Flushed (s.createFileIn env dirname filename tmpfile).1 := by
  rw [FileSystem.createFileIn]
  rcases newFile_fresh clean housed env dirname named with ⟨e, refused⟩ | ⟨x, rest, dir, name, real, home, made⟩
  · rw [refused]
    exact flushed.congr rfl
  · rw [made]
    dsimp only
    have slot : (s.allocated x rest (s.freshMeta env x (s.dirMeta dir).dh name tmpfile)).fileMeta s.nextFile =
        s.freshMeta env x (s.dirMeta dir).dh name tmpfile := by simp [allocated, fileMeta]
    rw [writeMeta, slot, writeFileMeta_ok ok]
    have written : Flushed ((s.modifyFileMeta x fun _ => s.freshMeta env x (s.dirMeta dir).dh name tmpfile).saveFile x) := by
      refine flushed.rewriteFile ⟨(flushed.steady x).1, fun _ => ⟨?_, home⟩⟩
      exact take_ne_nil real
    refine Flushed.congr ?_ (addFileToDirectory_plates _ dir s.nextFile)
    exact written.congr rfl

omit [Crc32] in
/-- A path that does not end with a separator names a file. -/
theorem transformPath_named {filename dirname name : Name} (real : filename ≠ [])
    (parts : FileHandle.transformPath filename = .ok (dirname, name)) : name ≠ [] := by
  unfold FileHandle.transformPath at parts
  split at parts
  · simp at parts
  next open_ =>
  split at parts
  · simp at parts
  obtain ⟨_, rfl⟩ := Prod.mk.inj (Except.ok.inj parts)
  obtain ⟨init, c, rfl⟩ := (List.eq_nil_or_concat' filename).resolve_left real
  have plain : (c != '/') = true := by simpa using open_
  rw [getFileName, List.rtakeWhile_concat_pos (· != '/') _ _ plain]
  simp

theorem Flushed.createFile (flushed : Flushed s) (clean : CleanFhs s) (housed : Housed s) (ok : env.IoOk)
    {filename : Name} (real : filename ≠ []) (tmpfile : Bool) : Flushed (s.createFile env filename tmpfile).1 := by
  unfold FileSystem.createFile
  split
  · exact flushed.createFileIn clean housed ok filename (.inl rfl)
  · split
    · exact flushed.congr rfl
    · next parts => exact flushed.createFileIn clean housed ok _ (.inr (transformPath_named real parts))

theorem Mirrored.releasedAll (mirrored : Mirrored D F B s) (b : FileBlockPtr) : Mirrored D F B (s.releasedAll b) := by
  have cleared := (mirrored.rewriteFileBlock b (s.fileBlockMetas b).clear).mono le_rfl le_rfl Set.sdiff_subset
  exact cleared.congr rfl

theorem Mirrored.drained (mirrored : Mirrored D F B s) (f : FilePtr) : Mirrored D F B (s.drained f) := by
  have released (bs : List FileBlockPtr) (u : FileSystem) (before : Mirrored D F B u) :
      Mirrored D F B (bs.foldl FileSystem.releasedAll u) := by
    induction bs generalizing u with
    | nil => exact before
    | cons b bs ih => exact ih _ (before.releasedAll b)
  exact (released (s.attached f) s mirrored).congr rfl

theorem Mirrored.discharged (mirrored : Mirrored D F B s) (f : FilePtr) :
    Mirrored D (F \ {(s.files f).metaSlot}) B (s.discharged f) :=
  mirrored.rewriteFile (FileMeta.clear_steady _ _)

/-- A file whose slot alone is ahead of the device is emptied and its slot cleared. -/
theorem Mirrored.emptied (mirrored : Mirrored ∅ F ∅ s) (only : F ⊆ {(s.files f).metaSlot}) (rep : s.FileRep f) :
    Flushed ((s.drained f).discharged f) := by
  obtain ⟨blocks, writes, state, _, _⟩ := drained_eq (f := f) rep
  have slot : ((s.drained f).files f).metaSlot = (s.files f).metaSlot := by
    rw [state]
    simp [persist]
  refine ((mirrored.drained f).discharged f).mono le_rfl ?_ le_rfl
  rintro j ⟨member, apart⟩
  rw [slot] at apart
  exact absurd (only member) apart

theorem Mirrored.removal (mirrored : Mirrored ∅ F ∅ s) (only : F ⊆ {(s.files f).metaSlot}) (rep : s.FileRep f)
    (dir : DirectoryPtr) : ∃ v done, ((s.drained f).discharged f).removeFileFromoDirectory dir f = (v, done) ∧
      Flushed v :=
  ⟨_, _, rfl, (mirrored.emptied only rep).congr (removeFileFromoDirectory_plates _ dir f)⟩

theorem Flushed.unlink (flushed : Flushed s) (coherent : Coherent s lost) (ok : env.IoOk) (filename : Name) :
    Flushed (s.unlink env filename).1 := by
  unfold FileSystem.unlink
  split
  · exact flushed.congr rfl
  next e _ =>
  dsimp only
  have noted : SameSides s (s.storeErrno e) := ⟨rfl, rfl⟩
  have coherent' := noted.coherent coherent
  have flushed' : Flushed (s.storeErrno e) := flushed.congr rfl
  generalize s.storeErrno e = t at noted coherent' flushed'
  split
  · exact flushed'.congr rfl
  split
  · exact flushed'.congr rfl
  next parentDir f found =>
  obtain ⟨_, entry⟩ := findFile_ok found
  have rep := coherent'.consistent.rep f (coherent'.registered.entered entry)
  split
  · exact flushed'.congr rfl
  obtain ⟨v, done, last, removed⟩ := Mirrored.removal flushed' (Set.empty_subset _) rep parentDir
  rw [removeAllFileBlock_ok ok]
  dsimp only
  rw [release_ok ok (drained_fh rep (coherent'.consistent.fileMeta_fh f))]
  dsimp only
  rw [last]
  cases done with
  | false => exact removed
  | true => exact removed.congr rfl

/-- The deferred deletion of a file that nobody holds open. -/
theorem Flushed.unlinkFileNolock (flushed : Flushed s) (consistent : Consistent s lost) (ok : env.IoOk)
    (live : ∀ x f, s.createdFhs.lookup x = some f → f < s.nextFile) {fh : Nat} (idle : ∀ f, s.createdFhs.lookup fh = some f → (s.files f).nlink ≤ 0) :
    Flushed (s.unlinkFileNolock env fh).1 := by
  unfold FileSystem.unlinkFileNolock
  split
  · exact flushed.congr rfl
  next f found =>
  split
  · exact flushed.congr rfl
  next parentDir home =>
  have stamped : (s.modifyFileMeta (s.files f).metaSlot fun m => { m with mtime := env.now, ctime := env.now }) =
      s.restamped f env.now := rfl
  have mirrored : Mirrored ∅ {(s.files f).metaSlot} ∅ (s.restamped f env.now) :=
    (Mirrored.modifyFileMeta flushed _ _).mono le_rfl (by simp) le_rfl
  have own : (s.restamped f env.now).fileMeta f = { s.fileMeta f with mtime := env.now, ctime := env.now } :=
    Function.update_self _ _ _
  have same : SameFile s (s.restamped f env.now) f :=
    { metaSlot := rfl
      itemMaps := rfl
      fh := by rw [own]
      size := by rw [own]
      isTemp := by rw [own]
      used := by rw [own]
      fileBlockMetas := fun _ _ => rfl }
  have rep := same.fileRep (consistent.rep f (live fh f found))
  have fh : ((s.restamped f env.now).fileMeta f).fh = ((s.restamped f env.now).files f).metaSlot := by
    rw [own]
    exact consistent.fileMeta_fh f
  dsimp only
  rw [stamped]
  split
  · next busy => exact absurd busy (not_lt.mpr (idle f found))
  obtain ⟨v, done, last, removed⟩ := mirrored.removal le_rfl rep parentDir
  rw [removeAllFileBlock_ok ok]
  dsimp only
  rw [release_ok ok (drained_fh rep fh)]
  dsimp only
  rw [last]
  cases done with
  | false => exact removed
  | true => exact removed.congr rfl

theorem Flushed.close (flushed : Flushed s) (coherent : Coherent s lost) (ok : env.IoOk) (fd : Nat) :
    Flushed (s.close env fd).1 := by
  unfold FileSystem.close
  cases found : s.getOpenFile fd with
  | error e => exact flushed.congr rfl
  | ok o =>
    dsimp only
    have linked : Relinked s (s.modifyFile o.file fun g => { g with locked := false, nlink := g.nlink - 1 }) :=
      ⟨rfl, rfl, fun g => view_update s.files o.file g (·.metaSlot) rfl,
        fun g => view_update s.files o.file g (·.itemMaps) rfl⟩
    have unlinked : Flushed (s.modifyFile o.file fun g => { g with locked := false, nlink := g.nlink - 1 }) :=
      flushed.congr rfl
    have consistent := coherent.consistent.congr linked.resources
    have bound := coherent.registered.bound (coherent.registered.opens fd o.file (getOpenFile_ok found))
    have own (g : FilePtr) (entry : s.createdFhs.lookup ((s.modifyFile o.file fun g =>
        { g with locked := false, nlink := g.nlink - 1 }).files o.file).metaSlot = some g) : g = o.file := by
      rw [linked.metaSlot] at entry
      exact coherent.registered.slots o.file bound g entry
    have live : ∀ x f, (s.modifyFile o.file fun g =>
        { g with locked := false, nlink := g.nlink - 1 }).createdFhs.lookup x = some f → f < s.nextFile :=
      coherent.registered.live
    generalize (s.modifyFile o.file fun g => { g with locked := false, nlink := g.nlink - 1 }) = t
      at linked unlinked consistent own live
    have last : Flushed (t.closeLast env o.file) := by
      have gone (none : (t.files o.file).nlink = 0) : Flushed (t.unlinkFileNolock env (t.fileMeta o.file).fh).1 := by
        refine unlinked.unlinkFileNolock consistent ok (fun x f entry => ?_) fun g entry => ?_
        · rw [linked.resources.nextFile]
          exact live x f entry
        · rw [consistent.fileMeta_fh, linked.createdFhs] at entry
          obtain rfl := own g entry
          omega
      unfold closeLast
      split
      · next none =>
        split
        · exact gone none
        · split
          · exact gone none
          · exact unlinked
      · exact unlinked
    refine last.congr ?_
    unfold putFd
    split <;> rfl

/-- A renamed file is entered in a directory that does not list it, so its slot is written. -/
theorem Flushed.enterRenamed (flushed : Flushed s) (fhs : ∀ i, (s.fileMetas i).fh = i) (ok : env.IoOk)
    {newDir : DirectoryPtr} (home : (s.dirMeta newDir).dh ∈ s.dirHandles)
    (free : (s.directories newDir).itemMaps.lookup (s.files f).metaSlot = none)
    {target : Name} (real : getFileName target ≠ []) : Flushed (s.enterRenamed env f newDir target).1 := by
  have stamped : ((s.modifyFileMeta (s.files f).metaSlot fun m =>
      { (m.setFileName (getFileName target)) with dh := (s.dirMeta newDir).dh }).updateTimeStamp f env.now) =
      { s with
        fileMetas := Function.update s.fileMetas (s.files f).metaSlot
          (s.renamedMeta f (s.dirMeta newDir).dh target env.now) } := by
    simp [updateTimeStamp, renamedMeta, fileMeta]
  have entry : (s.renamedMeta f (s.dirMeta newDir).dh target env.now).fh = (s.files f).metaSlot := fhs _
  have steady : (s.renamedMeta f (s.dirMeta newDir).dh target env.now).Steady s.dirHandles :=
    ⟨(flushed.steady _).1, fun _ => ⟨take_ne_nil real, home⟩⟩
  have checked : (s.renamedMeta f (s.dirMeta newDir).dh target env.now).sealed =
      s.renamedMeta f (s.dirMeta newDir).dh target env.now := rfl
  rw [FileSystem.enterRenamed, stamped]
  generalize s.renamedMeta f (s.dirMeta newDir).dh target env.now = m at entry steady checked ⊢
  have slot : (s.entered f m).fileMeta f = m := Function.update_self ..
  have enters : ({ s with fileMetas := Function.update s.fileMetas (s.files f).metaSlot m } : FileSystem).addFileNoLock f =
      s.entered f m := by
    have own : ({ s with fileMetas := Function.update s.fileMetas (s.files f).metaSlot m } : FileSystem).fileMeta f = m :=
      Function.update_self ..
    rw [addFileNoLock, own, entry]
    rfl
  have unlisted : ((s.entered f m).directories newDir).itemMaps.lookup ((s.entered f m).fileMeta f).fh = none := by
    rw [slot, entry]
    exact free
  have written : Flushed ((s.modifyFileMeta (s.files f).metaSlot fun _ => m).saveFile (s.files f).metaSlot) :=
    flushed.rewriteFile steady
  rw [enters, addChildFile, unlisted]
  simp only [Option.isSome_none, Bool.false_eq_true, if_false]
  have handle (g : Directory → Directory) :
      (((s.entered f m).modifyDirectory newDir g).fileMeta f).fh = (s.files f).metaSlot :=
    (congrArg FileMeta.fh slot).trans entry
  rw [writeMeta, handle, writeFileMeta_ok ok]
  exact written.congr rfl

/-- The directory a file is renamed into does not list it once it has left its own. -/
theorem Flushed.fileRename (flushed : Flushed s) (coherent : Coherent s lost) (indexed : Indexed s) (ok : env.IoOk)
    (here : s.IsRegistered f) {target : Name} (real : getFileName target ≠ []) :
    Flushed (s.fileRename env f target).1 := by
  have handle := coherent.consistent.fileMeta_fh f
  unfold FileSystem.fileRename
  split
  · exact flushed
  next oldDir home =>
  split
  · exact flushed.congr rfl
  next newDir leads =>
  obtain ⟨known, slot⟩ := coherent.housed.handles _ _ home
  unfold removeChildFile
  cases listed : (s.directories oldDir).itemMaps.lookup (s.fileMeta f).fh with
  | none => exact flushed
  | some g =>
    simp only [Option.isNone_some, Bool.false_eq_true, if_false]
    rcases removeFileNoLock_cases (s.modifyDirectory oldDir fun d =>
        { d with itemMaps := d.itemMaps.erase (s.fileMeta f).fh }) f with ⟨_, failed⟩ | ⟨done, erased, _⟩
    · rw [failed]
      exact flushed.congr rfl
    · rw [erased]
      cases done with
      | false => exact flushed.congr rfl
      | true =>
        let u : FileSystem := { s.modifyDirectory oldDir fun d =>
            { d with itemMaps := d.itemMaps.erase (s.fileMeta f).fh } with
          createdFiles := s.createdFiles.erase (s.key f)
          createdFhs := s.createdFhs.erase (s.fileMeta f).fh }
        have left : Flushed u := flushed.congr rfl
        have home : (u.dirMeta newDir).dh ∈ u.dirHandles := by
          have slots : (u.directories newDir).metaSlot = (s.directories newDir).metaSlot :=
            view_update s.directories oldDir newDir (·.metaSlot) rfl
          rw [dirMeta, slots]
          exact getCreatedDirectory_handle coherent.housed leads
        have unlisted : (u.directories newDir).itemMaps.lookup (u.files f).metaSlot = none := ?_
        · exact left.enterRenamed coherent.consistent.slots ok home unlisted real
        change ((Function.update s.directories oldDir { s.directories oldDir with
          itemMaps := (s.directories oldDir).itemMaps.erase (s.fileMeta f).fh }) newDir).itemMaps.lookup
            (s.files f).metaSlot = none
        by_cases same : newDir = oldDir
        · rw [same, Function.update_self, handle]
          exact AList.lookup_erase _ _
        · rw [Function.update_of_ne same]
          cases there : (s.directories newDir).itemMaps.lookup (s.files f).metaSlot with
          | none => rfl
          | some h =>
            obtain ⟨path, found⟩ := getCreatedDirectory_ok leads
            have bound := coherent.housed.paths path newDir found
            obtain ⟨registered, own, where_⟩ := indexed.filed newDir bound _ h there
            obtain rfl : h = f := coherent.consistent.metaSlot_unique (coherent.registered.bound registered)
              (coherent.registered.bound here) own
            exact absurd (coherent.housed.apart newDir bound oldDir known (where_.trans slot.symm)) same

end Files

section Directories
variable {lost : Lost} {r : Int} {parent child : DirectoryPtr}

/-- The tables stay as they are, and the directories stay too. -/
structure Gains (s t : FileSystem) : Prop where
  rest : { t.plates with createdDhs := s.createdDhs } = s.plates
  handles : s.dirHandles ⊆ t.dirHandles

omit [Crc32] in
theorem Gains.of_plates (same : t.plates = s.plates) : Gains s t where
  rest := by
    rw [same]
    rfl
  handles := by
    have dhs : t.createdDhs = s.createdDhs := congrArg Plates.createdDhs same
    rw [dirHandles, dirHandles, dhs]

omit [Crc32] in
theorem Gains.trans {u : FileSystem} (first : Gains s t) (second : Gains t u) : Gains s u where
  rest := by
    have plates := congrArg (fun p : Plates => { p with createdDhs := s.createdDhs }) second.rest
    exact plates.trans first.rest
  handles := first.handles.trans second.handles

theorem Flushed.gains (flushed : Flushed s) (gains : Gains s t) : Flushed t :=
  flushed.rehoused gains.rest fun i used => gains.handles ((flushed.steady i).2 used).2

omit [Crc32] in
theorem addDirectory2CreateNolock_gains (s : FileSystem) (child : DirectoryPtr) :
    Gains s (s.addDirectory2CreateNolock child).1 := by
  unfold addDirectory2CreateNolock
  split
  · exact .of_plates rfl
  · split
    · exact .of_plates rfl
    · refine ⟨rfl, fun x known => ?_⟩
      by_cases here : x = (s.dirMeta child).dh
      · simp [dirHandles, here]
      · have kept : ((s.createdDhs.insert (s.dirMeta child).dh child).lookup x).isSome := by
          rw [AList.lookup_insert_ne here]
          exact known
        exact kept

omit [Crc32] in
/-- A directory that leaves the indices takes no other with it. -/
theorem removeDirectoryFromCreateNolock_plates (s : FileSystem) (child : DirectoryPtr) :
    { (s.removeDirectoryFromCreateNolock child).1.plates with createdDhs := s.createdDhs } = s.plates ∧
      ∀ x ∈ s.dirHandles, x ≠ (s.dirMeta child).dh → x ∈ (s.removeDirectoryFromCreateNolock child).1.dirHandles := by
  unfold removeDirectoryFromCreateNolock
  split
  · exact ⟨rfl, fun x known _ => known⟩
  · dsimp only
    split
    · exact ⟨rfl, fun x known _ => known⟩
    · refine ⟨rfl, fun x known apart => ?_⟩
      have kept : ((s.createdDhs.erase (s.dirMeta child).dh).lookup x).isSome := by
        rw [AList.lookup_erase_ne apart]
        exact known
      exact kept

omit [Crc32] in
theorem addChildDirectory_plates (s : FileSystem) (parent child : DirectoryPtr) :
    (s.addChildDirectory parent child).1.plates = s.plates := by
  unfold addChildDirectory
  split <;> rfl

omit [Crc32] in
theorem removChildDirectory_plates (s : FileSystem) (parent child : DirectoryPtr) :
    (s.removChildDirectory parent child).1.plates = s.plates := by
  unfold removChildDirectory
  split <;> rfl

omit [Crc32] in
theorem addDirectory_gains {parent : Option DirectoryPtr} {added : Bool}
    (result : s.addDirectory parent child = .ok (t, added)) : Gains s t := by
  have enters (u : FileSystem) := addDirectory2CreateNolock_gains u child
  unfold addDirectory at result
  split at result
  · have first := enters s
    split at result
    · next u done =>
      rw [done] at first
      obtain ⟨rfl, _⟩ := Prod.mk.inj (Except.ok.inj result)
      exact first
    · simp at result
  · split at result
    · simp at result
    next p =>
    have first := addChildDirectory_plates s p child
    split at result
    · next u failed =>
      rw [failed] at first
      obtain ⟨rfl, _⟩ := Prod.mk.inj (Except.ok.inj result)
      exact .of_plates first
    next u done =>
    rw [done] at first
    have second := enters u
    split at result
    · next v done' =>
      rw [done'] at second
      obtain ⟨rfl, _⟩ := Prod.mk.inj (Except.ok.inj result)
      exact (Gains.of_plates first).trans second
    next v failed =>
    rw [failed] at second
    have third := removChildDirectory_plates v p child
    split at result
    · simp at result
    · next w kept =>
      rw [kept] at third
      obtain ⟨rfl, _⟩ := Prod.mk.inj (Except.ok.inj result)
      exact ((Gains.of_plates first).trans second).trans (.of_plates third)

omit [Crc32] in
theorem newDirectory_lodged (s : FileSystem) (env : Env) (dirName : Name) :
    (∃ e, s.newDirectory env dirName = ({ s with errno := e }, none)) ∨
      ∃ x rest parent, s.newDirectory env dirName =
        (s.lodged env dirName x rest, some (parent, s.nextDirectory)) := by
  unfold newDirectory
  split
  · exact .inl ⟨_, rfl⟩
  split
  · rcases newFreeDirectoryNolock_cases s env dirName with ⟨e, _, refused⟩ | ⟨x, rest, _, made⟩
    · rw [refused]
      exact .inl ⟨e, rfl⟩
    · rw [made]
      exact .inr ⟨x, rest, none, rfl⟩
  split
  · exact .inl ⟨_, rfl⟩
  next parent _ =>
  rcases newFreeDirectoryNolock_cases s env dirName with ⟨e, _, refused⟩ | ⟨x, rest, _, made⟩
  · rw [refused]
    exact .inl ⟨e, rfl⟩
  · rw [made]
    exact .inr ⟨x, rest, some parent, rfl⟩

theorem Flushed.createDirectory (flushed : Flushed s) (ok : env.IoOk) {path : Name}
    (result : s.createDirectory env path = .ok (t, r)) : Flushed t := by
  unfold FileSystem.createDirectory at result
  generalize s.checkFileExist path true = checked at result
  obtain ⟨e, absent⟩ := checked
  dsimp only at result
  have noted : Flushed (s.storeErrno e) := flushed.congr rfl
  generalize s.storeErrno e = u at noted result
  split at result
  · obtain ⟨rfl, _⟩ := Prod.mk.inj (Except.ok.inj result)
    exact noted
  split at result
  · obtain ⟨rfl, _⟩ := Prod.mk.inj (Except.ok.inj result)
    exact noted.congr rfl
  next dirName _ =>
  rcases newDirectory_lodged u env dirName with ⟨e', refused⟩ | ⟨x, rest, parent, made⟩
  · rw [refused] at result
    obtain ⟨rfl, _⟩ := Prod.mk.inj (Except.ok.inj result)
    exact noted.congr rfl
  rw [made] at result
  dsimp only at result
  have lodged : Mirrored {x} ∅ ∅ (u.lodged env dirName x rest) := by
    have taken := (Mirrored.modifyDirMeta noted x fun _ => (u.lodged env dirName x rest).dirMetas x).congr
      (t := u.lodged env dirName x rest) (by simp [FileSystem.lodged, plates])
    exact taken.mono (by simp) le_rfl le_rfl
  have handle : ((u.lodged env dirName x rest).dirMeta u.nextDirectory).dh = x := by
    simp [FileSystem.lodged, dirMeta]
  obtain ⟨v, written, there⟩ := lodged.writeDirMeta ok x
  have flushed' : Flushed v := there.mono (by simp) le_rfl le_rfl
  rw [handle, writeDirMetaRetry, written] at result
  obtain ⟨⟨w, added⟩, entered, last⟩ := Except.bind_eq_ok.mp result
  have gains := addDirectory_gains entered
  dsimp only at last
  split at last
  · obtain ⟨rfl, _⟩ := Prod.mk.inj (Except.ok.inj last)
    exact (flushed'.gains gains).congr rfl
  · obtain ⟨rfl, _⟩ := Prod.mk.inj (Except.ok.inj last)
    exact flushed'.gains gains

/-- Every file slot in use belongs to a file that a directory lists. -/
def Homed (s : FileSystem) : Prop :=
  ∀ i, (s.fileMetas i).used = true →
    ∃ d < s.nextDirectory, (s.directories d).metaSlot = (s.fileMetas i).dh ∧ (s.directories d).itemMaps ≠ ∅

/-- A directory that goes is empty, so no file slot in use names it. -/
theorem Flushed.deleteDirectory (flushed : Flushed s) (housed : Housed s) (homed : Homed s) (ok : env.IoOk)
    (path : Name) : Flushed (s.deleteDirectory env path).1 := by
  unfold FileSystem.deleteDirectory
  generalize s.checkFileExist path false = checked
  obtain ⟨e, absent⟩ := checked
  dsimp only
  have noted : Flushed (s.storeErrno e) := flushed.congr rfl
  have housed' := (housed.storeErrno e).housed
  have homed' : Homed (s.storeErrno e) := homed
  generalize s.storeErrno e = u at noted housed' homed'
  split
  · exact noted
  split
  · exact noted.congr rfl
  split
  · exact noted.congr rfl
  split
  · exact noted.congr rfl
  next parent dir search =>
  split
  · exact noted.congr rfl
  next childless =>
  split
  · exact noted.congr rfl
  have empty : (u.directories dir).itemMaps = ∅ := by
    rw [childCount] at childless
    have none : (u.directories dir).itemMaps.entries.length = 0 := by omega
    exact AList.ext (List.length_eq_zero_iff.mp none)
  have known := housed'.paths _ dir (findDirectory_ok search).2
  have kept : ∀ i, (u.fileMetas i).used = true → (u.fileMetas i).dh ≠ (u.directories dir).metaSlot := by
    intro i used same
    obtain ⟨d, bound, home, listed⟩ := homed' i used
    obtain rfl := housed'.apart d bound dir known (home.trans same)
    exact listed empty
  have cleared := Mirrored.modifyDirMeta noted (u.directories dir).metaSlot fun m => m.clear.sealed
  have handle : ((u.modifyDirMeta (u.directories dir).metaSlot fun m => m.clear.sealed).dirMeta dir).dh =
      (u.directories dir).metaSlot :=
    (congrArg DirMeta.dh (Function.update_self (u.directories dir).metaSlot _ u.dirMetas)).trans (housed'.slots _)
  obtain ⟨v, written, there⟩ := cleared.writeDirMeta ok (u.directories dir).metaSlot
  have flushed' : Flushed v := there.mono (by simp) le_rfl le_rfl
  rw [handle, written]
  dsimp only
  have state := congrArg Prod.fst (written.symm.trans (writeDirMeta_ok ok _ _))
  dsimp only at state
  have files : v.fileMetas = u.fileMetas := by
    rw [state]
    rfl
  have own (w : FileSystem) (same : w.plates = v.plates) (slots : (w.directories dir).metaSlot = (u.directories dir).metaSlot) :
      (w.dirMeta dir).dh = (u.directories dir).metaSlot := by
    have metas : w.dirMetas = v.dirMetas := congrArg Plates.dirMetas same
    rw [dirMeta, metas, slots, state]
    have marked (metas : Nat → DirMeta) (x : Nat) : (Function.update metas x (metas x).sealed x).dh = (metas x).dh := by
      rw [Function.update_self]
      rfl
    exact (marked _ _).trans handle
  have first := removChildDirectory_plates v parent dir
  have slots : ((v.removChildDirectory parent dir).1.directories dir).metaSlot = (u.directories dir).metaSlot := by
    have before : (v.directories dir).metaSlot = (u.directories dir).metaSlot := by
      rw [state]
      rfl
    rw [← before]
    unfold removChildDirectory
    split
    · rfl
    · exact view_update v.directories parent dir (·.metaSlot) rfl
  split
  · next w failed =>
    rw [failed] at first
    exact flushed'.congr first
  next w done =>
  rw [done] at first slots
  obtain ⟨rest, others⟩ := removeDirectoryFromCreateNolock_plates w dir
  have gone : Flushed (w.removeDirectoryFromCreateNolock dir).1 := by
    refine (flushed'.congr first).rehoused rest fun i used => ?_
    have same : w.fileMetas = u.fileMetas := (congrArg Plates.fileMetas first).trans files
    refine others _ (((flushed'.congr first).steady i).2 used).2 ?_
    rw [same] at used ⊢
    rw [own w first slots]
    exact kept i used
  split
  · next z failed =>
    rw [failed] at gone
    exact gone
  · next z done' =>
    rw [done'] at gone
    exact gone.congr rfl

theorem Flushed.retitled {dir : DirectoryPtr} {target : Name} (flushed : Flushed s)
    (side : t.fileSide = s.fileSide) (kept : s.dirHandles ⊆ t.dirHandles) (retitled : Retitled s t dir target) :
    Flushed t := by
  have super : t.superMeta = s.superMeta := congrArg FileSide.superMeta side
  have files : t.fileMetas = s.fileMetas := congrArg FileSide.fileMetas side
  have fileBlocks : t.fileBlockMetas = s.fileBlockMetas := congrArg FileSide.fileBlockMetas side
  have perPage : kBlockFsPageSize / s.superMeta.dirMetaSize = dirsPerPage := by
    rw [flushed.dirMetaSize, dirsPerPage]
  have inside : (s.directories dir).metaSlot ∈ page dirsPerPage (s.directories dir).metaSlot :=
    mem_page (by decide) _
  have written := flushed.dirs.write inside ((s.dirMeta dir).setDirName target).sealed_intact
  rw [← retitled.dirMetas] at written
  have same : Flushed { t with createdDhs := s.createdDhs } :=
    { superMeta := by
        rw [retitled.disk, Disk.apply_superMeta, super]
        exact flushed.superMeta
      dirMetaSize := by
        rw [super]
        exact flushed.dirMetaSize
      fileMetaSize := by
        rw [super]
        exact flushed.fileMetaSize
      dirs := by
        rw [retitled.disk, perPage]
        exact written.mono Set.sdiff_subset
      files := by
        rw [files, retitled.disk]
        exact flushed.files
      fileBlocks := by
        rw [fileBlocks, retitled.disk]
        exact flushed.fileBlocks }
  exact same.gains ⟨rfl, kept⟩

/-- The path a directory is moved to is its own or free. -/
def Vacates (s : FileSystem) (source target : Name) : Prop :=
  ∀ path path', DirHandle.transformPath source = .ok path → DirHandle.transformPath target = .ok path' →
    path' ≠ path → s.createdDirs.lookup path' = none

omit [Crc32] in
theorem MovedDirectory.handles {path target : Name} {dir oldParent newParent : DirectoryPtr}
    (moved : MovedDirectory s t path target dir oldParent newParent) (free : (s.createdDirs.erase path).lookup target = none) :
    s.dirHandles ⊆ t.dirHandles := by
  have index := moved.index
  rw [if_neg (by simp [free])] at index
  intro x known
  change (t.createdDhs.lookup x).isSome
  rw [index.2]
  by_cases here : x = (s.directories dir).metaSlot
  · rw [here, AList.lookup_insert]
    rfl
  · rw [AList.lookup_insert_ne here, AList.lookup_erase_ne here]
    exact known

theorem Flushed.renameDirectory (flushed : Flushed s) (housed : Housed s) (ok : env.IoOk) {source target : Name}
    (vacates : s.Vacates source target) : Flushed (s.renameDirectory env source target).1 := by
  unfold FileSystem.renameDirectory
  generalize s.checkFileExist target true = checked
  obtain ⟨e, absent⟩ := checked
  dsimp only
  have noted : Flushed (s.storeErrno e) := flushed.congr rfl
  have housed' := (housed.storeErrno e).housed
  have vacates' : (s.storeErrno e).Vacates source target := vacates
  generalize s.storeErrno e = u at noted housed' vacates'
  split
  · exact noted
  split
  · exact noted.congr rfl
  split
  · exact noted.congr rfl
  next fromDirName fromParts =>
  split
  · exact noted.congr rfl
  next toDirName toParts =>
  split
  · exact noted.congr rfl
  next oldParent dir search =>
  obtain ⟨leads, found⟩ := findDirectory_ok search
  rcases directoryRename_cases housed' ok found leads (dirTransformPath_ok fromParts).2 (dirTransformPath_ok toParts).2
    with ⟨_, failed⟩ | ⟨v, newParent, done, moved, retitled⟩
  · rw [failed]
    exact noted.congr rfl
  · rw [done]
    refine noted.retitled moved.fileSide (moved.handles ?_) retitled
    by_cases stays : toDirName = fromDirName
    · rw [stays]
      exact AList.lookup_erase _ _
    · rw [AList.lookup_erase_ne stays]
      exact vacates' _ _ fromParts toParts stays

theorem Flushed.openDirectory (flushed : Flushed s) (path : Name) : Flushed (s.openDirectory path).1 := by
  unfold FileSystem.openDirectory
  split
  · exact flushed.congr rfl
  · exact flushed.congr rfl
  unfold getFd
  split
  next u fd taken =>
  have plates : u.plates = s.plates := by
    split at taken <;>
    · obtain ⟨rfl, _⟩ := Prod.mk.inj taken
      rfl
  split
  · exact flushed.congr plates
  · exact flushed.congr plates

theorem Flushed.served (flushed : Flushed s) (stream : Nat) (d : DirStream) : Flushed (s.serve stream d).1 := by
  unfold serve
  split
  · exact flushed.congr rfl
  · exact flushed.congr rfl

/-- A listing refreshes the times of its directory in memory alone. -/
theorem Flushed.readDirectory (flushed : Flushed s) {stream : Nat} {item : Option BlockFsDirent}
    (result : s.readDirectory env stream = .ok (t, item)) : Flushed t := by
  cases found : s.dirStreams.lookup stream with
  | none =>
    unfold FileSystem.readDirectory at result
    rw [found] at result
    obtain ⟨rfl, _⟩ := Prod.mk.inj (Except.ok.inj result)
    exact flushed
  | some d =>
    rw [readDirectory_eq found] at result
    split at result
    · have last := Except.ok.inj result
      obtain rfl : (s.serve stream d).1 = t := congrArg Prod.fst last
      exact flushed.served stream d
    · obtain ⟨items, _, stamped⟩ := Except.bind_eq_ok.mp result
      have touched : Flushed (s.touched env d.dir) := Mirrored.restampDir flushed (DirMeta.sealed_intact _) rfl
      have last := Except.ok.inj stamped
      obtain rfl := congrArg Prod.fst last
      exact touched.served stream _

theorem Flushed.closeDirectory (flushed : Flushed s) (stream : Nat) : Flushed (s.closeDirectory stream).1 := by
  unfold FileSystem.closeDirectory
  split
  · exact flushed
  · unfold putFd
    split
    · exact flushed.congr rfl
    · exact flushed.congr rfl

end Directories

section Opens
variable {f : FilePtr} {lost : Lost} {r : Int} {path : Name} {flags : Nat}

/-- The call enters a file without a name: at the empty path, or renamed to a path that ends with a
separator. -/
def Nameless (s : FileSystem) : Op → Prop
  | .createFile path => path = []
  | .openFile path _ => path = []
  | .rename oldpath newpath => (∃ f, s.getCreatedFile oldpath = .ok f) ∧ getFileName newpath = []
  | _ => False

/-- The truncation that a call makes gives up before it has taken anything, if it does. -/
def SettlesCall (s : FileSystem) (op : Op) : Prop := ∀ f n, s.ftruncateCall op = some (f, n) → s.Settles f n

omit [Crc32] in
theorem openFd_plates (s : FileSystem) (f : FilePtr) (flags : Nat) : (s.openFd f flags).1.plates = s.plates := by
  unfold openFd getFd
  cases s.freeFdPool with
  | nil => rfl
  | cons fd rest => rfl

omit [Crc32] in
theorem dup_plates (s : FileSystem) (oldfd : Int) : (s.dup oldfd).1.plates = s.plates := by
  unfold FileSystem.dup
  split
  · rfl
  · exact openFd_plates s _ 0

theorem Flushed.openTarget (flushed : Flushed s) (coherent : Coherent s lost) (ok : env.IoOk) (real : path ≠ [])
    (narrow : s.NarrowCall (.openFile path flags)) (settles : s.SettlesCall (.openFile path flags))
    {target : Option FilePtr} (result : s.openTarget env path flags = .ok (t, target)) : Flushed t := by
  cases needed : isNeedCreateTempFile flags with
  | mk e tmpfile =>
    cases tmpfile with
    | true =>
      rw [FileSystem.openTarget, needed] at result
      have noted : SameSides s (s.storeErrno e) := ⟨rfl, rfl⟩
      have flushed' : Flushed (s.storeErrno e) := flushed.congr rfl
      have coherent' := noted.coherent coherent
      have created := flushed'.createFile coherent'.consistent.clean coherent'.housed ok real true
      obtain rfl : ((s.storeErrno e).createFile env path true).1 = t := congrArg Prod.fst (Except.ok.inj result)
      exact created
    | false =>
      cases directory : s.getCreatedDirectory path with
      | ok dir =>
        rw [openTarget_directory env needed directory] at result
        obtain ⟨rfl, _⟩ := Prod.mk.inj (Except.ok.inj result)
        exact flushed.congr rfl
      | error e' =>
        rw [openTarget_search env needed directory] at result
        have same : SameSides s ((s.storeErrno e).storeErrno e') := ⟨rfl, rfl⟩
        have plates : ((s.storeErrno e).storeErrno e').plates = s.plates := rfl
        generalize (s.storeErrno e).storeErrno e' = u at result same plates
        cases found : s.getCreatedFile path with
        | error e'' =>
          rw [found] at result
          dsimp only at result
          split at result
          · have noted : SameSides s (u.storeErrno e'') := same.trans ⟨rfl, rfl⟩
            have flushed' : Flushed (u.storeErrno e'') := flushed.congr plates
            have coherent' := noted.coherent coherent
            have created := flushed'.createFile coherent'.consistent.clean coherent'.housed ok real false
            obtain rfl : ((u.storeErrno e'').createFile env path false).1 = t := congrArg Prod.fst (Except.ok.inj result)
            exact created
          · obtain ⟨rfl, _⟩ := Prod.mk.inj (Except.ok.inj result)
            exact flushed.congr plates
        | ok f =>
          rw [found] at result
          have call : s.ftruncateCall (.openFile path flags) =
              if (verifyOpenExistFileFlag flags).isNone && truncatesOnOpen flags then some (f, 0) else none := by
            simp only [ftruncateCall, needed, directory, found]
          dsimp only at result
          split at result
          · obtain ⟨rfl, _⟩ := Prod.mk.inj (Except.ok.inj result)
            exact flushed.congr plates
          · next verified =>
            split at result
            · next cuts =>
              rw [verified, cuts] at call
              obtain ⟨⟨v, q⟩, ran, last⟩ := Except.bind_eq_ok.mp result
              have cut := flushed.ftruncate coherent ok same plates (getCreatedFile_accessible found)
                (narrow f 0 call) (settles f 0 call) ran
              dsimp only at last
              split at last
              · obtain ⟨rfl, _⟩ := Prod.mk.inj (Except.ok.inj last)
                exact cut
              · obtain ⟨rfl, _⟩ := Prod.mk.inj (Except.ok.inj last)
                exact cut
            · obtain ⟨rfl, _⟩ := Prod.mk.inj (Except.ok.inj result)
              exact flushed.congr plates

theorem Flushed.openFile (flushed : Flushed s) (coherent : Coherent s lost) (ok : env.IoOk) (real : path ≠ [])
    (narrow : s.NarrowCall (.openFile path flags)) (settles : s.SettlesCall (.openFile path flags))
    (result : s.openFile env path flags = .ok (t, r)) : Flushed t := by
  obtain ⟨⟨u, target⟩, first, last⟩ := Except.bind_eq_ok.mp result
  have found := flushed.openTarget coherent ok real narrow settles first
  cases target with
  | none =>
    obtain ⟨rfl, _⟩ := Prod.mk.inj (Except.ok.inj last)
    exact found
  | some f =>
    obtain rfl : (u.openFd f flags).1 = t := congrArg Prod.fst (Except.ok.inj last)
    exact found.congr (openFd_plates u f flags)

theorem Flushed.truncatePath (flushed : Flushed s) (coherent : Coherent s lost) (ok : env.IoOk) {size : Int}
    (narrow : s.NarrowCall (.truncatePath path size)) (settles : s.SettlesCall (.truncatePath path size))
    (result : s.truncatePath env path size = .ok (t, r)) : Flushed t := by
  unfold FileSystem.truncatePath at result
  split at result
  · obtain ⟨rfl, _⟩ := Prod.mk.inj (Except.ok.inj result)
    exact flushed.congr rfl
  · next f found =>
    have call : s.ftruncateCall (.truncatePath path size) = some (f, toU64 size) := by
      simp only [ftruncateCall, found]
    exact flushed.ftruncate coherent ok ⟨rfl, rfl⟩ rfl (getCreatedFile_accessible found) (narrow f _ call)
      (settles f _ call) result

theorem Flushed.truncateFd (flushed : Flushed s) (coherent : Coherent s lost) (ok : env.IoOk) {fd size : Int}
    (narrow : s.NarrowCall (.truncateFd fd size)) (settles : s.SettlesCall (.truncateFd fd size))
    (result : s.truncateFd env fd size = .ok (t, r)) : Flushed t := by
  unfold FileSystem.truncateFd at result
  split at result
  · obtain ⟨rfl, _⟩ := Prod.mk.inj (Except.ok.inj result)
    exact flushed.congr rfl
  · next o found =>
    have opened := getOpenFile_ok found
    have call : s.ftruncateCall (.truncateFd fd size) = some (o.file, toU64 size) := by
      rw [ftruncateCall, opened]
      rfl
    exact flushed.ftruncate coherent ok ⟨rfl, rfl⟩ rfl (.inl ⟨_, opened⟩) (narrow _ _ call) (settles _ _ call)
      result

/-- A write sets the times in memory alone and puts the bytes on the device. -/
theorem Flushed.writeData (flushed : Flushed s) {fd len offset : Nat} {o : OpenFile} {buffer : Nat → UInt8}
    (result : (s.stamped env o.file).writeData fd o buffer len offset = .ok (t, r)) : Flushed t := by
  have stamped : Flushed (s.stamped env o.file) := by
    unfold FileSystem.stamped
    split
    · exact Mirrored.restampFile flushed (Set.notMem_empty _) rfl rfl
    · exact flushed
  generalize s.stamped env o.file = u at result stamped
  unfold FileSystem.writeData at result
  split at result
  · simp at result
  obtain ⟨blocks, _, result⟩ := Except.bind_eq_ok.mp result
  obtain ⟨⟨d, n⟩, moved, done⟩ := Except.bind_eq_ok.mp result
  obtain ⟨data, rfl⟩ := writeBlocks_data moved
  obtain ⟨rfl, _⟩ := Prod.mk.inj (Except.ok.inj done)
  exact stamped.congr rfl

theorem Flushed.pwriteFile (flushed : Flushed s) (coherent : Coherent s lost) (ok : env.IoOk) {fd len : Nat}
    {buffer : Nat → UInt8} {offset : Int} (narrow : s.NarrowCall (.pwrite fd buffer len offset))
    (settles : s.SettlesCall (.pwrite fd buffer len offset))
    (result : s.pwriteFile env fd buffer len offset = .ok (t, r)) : Flushed t := by
  unfold FileSystem.pwriteFile at result
  split at result
  · obtain ⟨rfl, _⟩ := Prod.mk.inj (Except.ok.inj result)
    exact flushed.congr rfl
  next o found =>
  have opened := getOpenFile_ok found
  have call : s.ftruncateCall (.pwrite fd buffer len offset) =
      if len ≠ 0 ∧ (s.fileMeta o.file).size < (toU64 offset + len) % 2 ^ 64 then
        some (o.file, (toU64 offset + len) % 2 ^ 64)
      else none := by rw [ftruncateCall, opened]
  dsimp only [pwrite] at result
  split at result
  · obtain ⟨rfl, _⟩ := Prod.mk.inj (Except.ok.inj result)
    exact flushed
  next positive =>
  by_cases grows : (s.fileMeta o.file).size < (toU64 offset + len) % 2 ^ 64
  · rw [if_pos ⟨positive, grows⟩] at call
    rw [if_pos grows] at result
    obtain ⟨⟨u, q⟩, ran, last⟩ := Except.bind_eq_ok.mp result
    have grown := flushed.ftruncate coherent ok ⟨rfl, rfl⟩ rfl (.inl ⟨_, opened⟩) (narrow _ _ call)
      (settles _ _ call) ran
    dsimp only at last
    split at last
    · obtain ⟨rfl, _⟩ := Prod.mk.inj (Except.ok.inj last)
      exact grown
    · exact grown.writeData last
  · rw [if_neg grows, Except.ok_bind] at result
    dsimp only at result
    rw [if_neg (by decide)] at result
    exact flushed.writeData result

end Opens

section Reads
variable {r : Int} {fd len : Nat} {buffer back : Nat → UInt8}

omit [Crc32] in
theorem pread_plates {offset : Nat} {o : OpenFile} (result : s.pread fd o buffer len offset = .ok (t, back, r)) :
    t.plates = s.plates := by
  rcases pread_cases result with rfl | ⟨ret, rfl⟩
  · rfl
  · rfl

omit [Crc32] in
theorem preadFile_plates {offset : Int} (result : s.preadFile fd buffer len offset = .ok (t, back, r)) :
    t.plates = s.plates := by
  unfold preadFile at result
  split at result
  · obtain ⟨rfl, _⟩ := Prod.mk.inj (Except.ok.inj result)
    rfl
  · exact pread_plates result

omit [Crc32] in
theorem readFile_plates {fd : Int} (result : s.readFile fd buffer len = .ok (t, back, r)) :
    t.plates = s.plates := by
  unfold readFile at result
  split at result
  · obtain ⟨rfl, _⟩ := Prod.mk.inj (Except.ok.inj result)
    rfl
  · exact pread_plates result

omit [Crc32] in
theorem seekFile_plates (s : FileSystem) (fd : Nat) (offset : Int) (whence : Whence) :
    (s.seekFile fd offset whence).1.plates = s.plates := by
  unfold seekFile
  split
  · rfl
  · cases whence <;> rfl

omit [Crc32] in
theorem fcntlFile_plates (s : FileSystem) (fd : Int) (lockType : LockType) :
    (s.fcntlFile fd lockType).1.plates = s.plates := by
  unfold fcntlFile
  split
  · rfl
  · cases lockType <;> dsimp only <;> split <;> rfl

end Reads

section Steps
variable {lost : Lost} {r : Int} {op : Op}

theorem Flushed.createFilePath (flushed : Flushed s) (clean : CleanFhs s) (housed : Housed s) (ok : env.IoOk)
    {path : Name} (real : path ≠ []) : Flushed (s.createFilePath env path).1 := by
  have made := flushed.createFile clean housed ok real false
  unfold FileSystem.createFilePath
  generalize s.createFile env path false = created at made
  obtain ⟨t, target⟩ := created
  cases target with
  | none => exact made
  | some f => exact made

theorem Flushed.renamePath (flushed : Flushed s) (coherent : Coherent s lost) (indexed : Indexed s) (ok : env.IoOk)
    {oldpath newpath : Name} (named : ¬s.Nameless (.rename oldpath newpath))
    (anchored : (∀ f, s.getCreatedFile oldpath ≠ .ok f) → s.Vacates oldpath newpath) :
    Flushed (s.renamePath env oldpath newpath).1 := by
  unfold FileSystem.renamePath
  split
  · exact flushed.congr rfl
  split
  · exact flushed
  next e _ =>
  dsimp only
  have noted : SameSides s (s.storeErrno e) := ⟨rfl, rfl⟩
  have coherent' := noted.coherent coherent
  have indexed' := (Quiet.of_fileSide noted.fileSide).sameIndex.indexed coherent.registered indexed
    (coherent.housed.of_dirSide noted.dirSide)
  have flushed' : Flushed (s.storeErrno e) := flushed.congr rfl
  have named' : ¬(s.storeErrno e).Nameless (.rename oldpath newpath) := named
  have anchored' : (∀ f, (s.storeErrno e).getCreatedFile oldpath ≠ .ok f) → (s.storeErrno e).Vacates oldpath newpath :=
    anchored
  generalize s.storeErrno e = u at noted coherent' flushed' indexed' named' anchored'
  split
  · next f found =>
    obtain ⟨dir, name, _, entry⟩ := getCreatedFile_ok found
    exact flushed'.fileRename coherent' indexed' ok (coherent'.registered.names _ f entry).2
      fun nameless => named' ⟨⟨f, found⟩, nameless⟩
  next e' absent =>
  split
  · exact flushed'.congr rfl
  · have again : Flushed (u.storeErrno e') := flushed'.congr rfl
    refine again.renameDirectory (coherent'.housed.storeErrno e').housed ok (anchored' fun f found => ?_)
    rw [absent] at found
    simp at found

/-- Whatever call runs to its end, the device holds all there is in the tables again. -/
theorem Flushed.call (flushed : Flushed s) (coherent : Coherent s lost) (indexed : Indexed s) (homed : Homed s)
    (ok : env.IoOk) (narrow : s.NarrowCall op) (settles : s.SettlesCall op) (named : ¬s.Nameless op)
    (anchored : ∀ oldpath newpath, op = .rename oldpath newpath → (∀ f, s.getCreatedFile oldpath ≠ .ok f) →
      s.Vacates oldpath newpath) (result : s.call env op = .ok (t, r)) : Flushed t := by
  cases op with
  | createFile path =>
    obtain rfl : (s.createFilePath env path).1 = t := congrArg Prod.fst (Except.ok.inj result)
    exact flushed.createFilePath coherent.consistent.clean coherent.housed ok named
  | openFile path flags => exact flushed.openFile coherent ok named narrow settles result
  | close fd =>
    obtain rfl : (s.close env fd).1 = t := congrArg Prod.fst (Except.ok.inj result)
    exact flushed.close coherent ok fd
  | dup oldfd =>
    obtain rfl : (s.dup oldfd).1 = t := congrArg Prod.fst (Except.ok.inj result)
    exact flushed.congr (dup_plates s oldfd)
  | unlink path =>
    obtain rfl : (s.unlink env path).1 = t := congrArg Prod.fst (Except.ok.inj result)
    exact flushed.unlink coherent ok path
  | rename oldpath newpath =>
    obtain rfl : (s.renamePath env oldpath newpath).1 = t := congrArg Prod.fst (Except.ok.inj result)
    exact flushed.renamePath coherent indexed ok named (anchored oldpath newpath rfl)
  | truncatePath path size => exact flushed.truncatePath coherent ok narrow settles result
  | truncateFd fd size => exact flushed.truncateFd coherent ok narrow settles result
  | pwrite fd buffer len offset => exact flushed.pwriteFile coherent ok narrow settles result
  | pread fd len offset =>
    obtain ⟨⟨u, back, n⟩, ran, last⟩ := Except.bind_eq_ok.mp result
    obtain ⟨rfl, _⟩ := Prod.mk.inj (Except.ok.inj last)
    exact flushed.congr (preadFile_plates ran)
  | read fd len =>
    obtain ⟨⟨u, back, n⟩, ran, last⟩ := Except.bind_eq_ok.mp result
    obtain ⟨rfl, _⟩ := Prod.mk.inj (Except.ok.inj last)
    exact flushed.congr (readFile_plates ran)
  | seek fd offset whence =>
    obtain rfl : (s.seekFile fd offset whence).1 = t := congrArg Prod.fst (Except.ok.inj result)
    exact flushed.congr (seekFile_plates s fd offset whence)
  | fcntl fd lockType =>
    obtain rfl : (s.fcntlFile fd lockType).1 = t := congrArg Prod.fst (Except.ok.inj result)
    exact flushed.congr (fcntlFile_plates s fd lockType)
  | mkdir path => exact flushed.createDirectory ok result
  | rmdir path =>
    obtain rfl : (s.deleteDirectory env path).1 = t := congrArg Prod.fst (Except.ok.inj result)
    exact flushed.deleteDirectory coherent.housed homed ok path
  | opendir path =>
    have opened := flushed.openDirectory path
    simp only [FileSystem.call] at result
    generalize s.openDirectory path = taken at opened result
    obtain ⟨u, stream⟩ := taken
    cases stream with
    | none =>
      obtain ⟨rfl, _⟩ := Prod.mk.inj (Except.ok.inj result)
      exact opened
    | some stream =>
      obtain ⟨rfl, _⟩ := Prod.mk.inj (Except.ok.inj result)
      exact opened
  | readdir stream =>
    obtain ⟨⟨u, item⟩, ran, last⟩ := Except.bind_eq_ok.mp result
    obtain ⟨rfl, _⟩ := Prod.mk.inj (Except.ok.inj last)
    exact flushed.readDirectory ran
  | closedir stream =>
    obtain rfl : (s.closeDirectory stream).1 = t := congrArg Prod.fst (Except.ok.inj result)
    exact flushed.closeDirectory stream

end Steps

end Calls

end BlockFs.FileSystem
