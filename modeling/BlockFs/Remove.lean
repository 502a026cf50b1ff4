import BlockFs.Create

namespace BlockFs.FileSystem

/-- The name a file is entered under: its directory and its file name. -/
def key (s : FileSystem) (f : FilePtr) : Nat × Name := ((s.fileMeta f).dh, (s.fileMeta f).fileName)

/-- A file leaves both indices, or keeps its place in both because its name is not entered. -/
theorem removeFileNoLock_cases (s : FileSystem) (f : FilePtr) :
    (s.createdFiles.lookup (s.key f) = none ∧ s.removeFileNoLock f = (s, false)) ∨
    ∃ done, s.removeFileNoLock f =
      ({ s with
          createdFiles := s.createdFiles.erase (s.key f)
          createdFhs := s.createdFhs.erase (s.fileMeta f).fh }, done) ∧
        done = (s.createdFhs.lookup (s.fileMeta f).fh).isSome := by
  unfold removeFileNoLock
  split
  · next absent => exact .inl ⟨by simpa [key] using absent, rfl⟩
  · next present =>
    refine .inr ?_
    dsimp only
    split
    · next missing =>
      have absent : s.createdFhs.lookup (s.fileMeta f).fh = none := by
        simpa [fileMeta] using missing
      refine ⟨false, ?_, by rw [absent]; rfl⟩
      rw [erase_of_lookup_none absent]
      rfl
    · next found =>
      refine ⟨true, rfl, ?_⟩
      simpa [fileMeta, Option.isSome_iff_ne_none] using found

/-- A file has given its file block and its blocks back, and its slot has been cleared. -/
structure Emptied [Crc32] (s s' : FileSystem) (f : FilePtr) : Prop where
  layout : SameLayout s s'
  nextFile : s'.nextFile = s.nextFile
  freeFhs : s'.freeFhs = s.freeFhs
  freeFbhs : s'.freeFbhs = s.freeFbhs ++ s.attached f
  blockIdPool : s'.blockIdPool = refilled s.blockIdPool (s.blockIds f)
  files : s'.files = Function.update s.files f { s.files f with itemMaps := ∅ }
  fileMetas : s'.fileMetas = Function.update s.fileMetas (s.files f).metaSlot (s.fileMeta f).clear.sealed
  released : ∀ b ∈ s.attached f, s'.fileBlockMetas b = (s.fileBlockMetas b).clear.sealed
  kept : ∀ b, b ∉ s.attached f → s'.fileBlockMetas b = s.fileBlockMetas b
  openFiles : s'.openFiles = s.openFiles
  data : s'.disk.data = s.disk.data

/-- A file has been emptied and taken out of the indices, unless its directory did not list it or
its name was not entered. -/
structure Removed [Crc32] (s s' : FileSystem) (dir : DirectoryPtr) (f : FilePtr) : Prop
    extends Emptied s s' f where
  relisted : Relisted s s' (s.files f).metaSlot
  listing : s'.directories = delisted s.directories dir (s.files f).metaSlot
  index : (s'.createdFhs = s.createdFhs ∧ s'.createdFiles = s.createdFiles ∧
      (s.createdFiles.lookup (s.key f) = none ∨
        (s.directories dir).itemMaps.lookup (s.files f).metaSlot = none)) ∨
    (s'.createdFhs = s.createdFhs.erase (s.files f).metaSlot ∧
      s'.createdFiles = s.createdFiles.erase (s.key f))

section Removal
variable [Crc32] {s : FileSystem} {env : Env} {f : FilePtr} {lost : Lost}

/-- The ids of a file block are free again, and so is the file block. -/
def releasedAll (s : FileSystem) (b : FileBlockPtr) : FileSystem :=
  releasedFileBlock { s with blockIdPool := refilled s.blockIdPool (s.fileBlockMetas b).ids } b

/-- All file blocks of a file have been released. -/
def drained (s : FileSystem) (f : FilePtr) : FileSystem :=
  ((s.attached f).foldl releasedAll s).modifyFile f fun o => { o with itemMaps := ∅ }

/-- The slot of a file has been cleared and written. -/
def discharged (s : FileSystem) (f : FilePtr) : FileSystem :=
  (s.modifyFileMeta (s.files f).metaSlot FileMeta.clear).saveFile (s.files f).metaSlot

theorem releaseEntries_ok (ok : env.IoOk) (bs : List FileBlockPtr) (s : FileSystem) :
    releaseEntries env bs s = (bs.foldl releasedAll s, true) := by
  induction bs generalizing s with
  | nil => rfl
  | cons b bs ih =>
    have head : s.releaseAll env b = (s.releasedAll b, true) := by
      rw [releaseAll, putFreeBlockIdsLock, putFreeBlockIds_eq, releaseMyself_ok ok]
      rfl
    rw [releaseEntries, head]
    exact ih _

theorem removeAllFileBlock_ok (ok : env.IoOk) :
    s.removeAllFileBlock env f = (s.drained f, true) := by
  rw [removeAllFileBlock, releaseEntries_ok ok]
  rfl

theorem release_ok (ok : env.IoOk) (fh : (s.fileMeta f).fh = (s.files f).metaSlot) :
    s.release env f = (s.discharged f, true) := by
  have own : ((s.modifyFileMeta (s.files f).metaSlot FileMeta.clear).fileMeta f).fh =
      (s.files f).metaSlot :=
    (congrArg FileMeta.fh (Function.update_self (s.files f).metaSlot _ s.fileMetas)).trans fh
  rw [release, writeMeta, own, writeFileMeta_ok ok]
  rfl

theorem drained_eq (rep : s.FileRep f) :
    ∃ blocks writes,
      s.drained f =
        { s with
          blockIdPool := refilled s.blockIdPool (s.blockIds f)
          fileBlockMetas := blocks
          freeFbhs := s.freeFbhs ++ s.attached f
          files := Function.update s.files f { s.files f with itemMaps := ∅ } }.persist writes ∧
      (∀ b ∈ s.attached f, blocks b = (s.fileBlockMetas b).clear.sealed) ∧
      ∀ b, b ∉ s.attached f → blocks b = s.fileBlockMetas b := by
  cases rep with
  | empty size entries =>
    have none : s.attached f = [] := by simp [attached, entries]
    refine ⟨s.fileBlockMetas, [], ?_, by simp [none], by simp⟩
    simp [drained, blockIds, none, refilled, persist]
  | backed b size entries backs =>
    have one : s.attached f = [b] := by simp [attached, entries]
    refine ⟨Function.update s.fileBlockMetas b (s.fileBlockMetas b).clear.sealed,
      [.fileBlock b (s.fileBlockMetas b).clear.sealed], ?_, by simp [one], fun c other => ?_⟩
    · simp [drained, blockIds, one, releasedAll, releasedFileBlock, saveFileBlock, persist]
    · exact Function.update_of_ne (fun same => other (by simp [one, same])) _ _

theorem emptied_drained (rep : s.FileRep f) : Emptied s ((s.drained f).discharged f) f := by
  obtain ⟨blocks, writes, state, released, kept⟩ := drained_eq rep
  rw [state]
  exact
    { layout := ⟨rfl, rfl, by simp [discharged, saveFile, persist], rfl⟩
      nextFile := rfl
      freeFhs := rfl
      freeFbhs := rfl
      blockIdPool := rfl
      files := rfl
      fileMetas := by simp [discharged, saveFile, persist, fileMeta]
      released := released
      kept := kept
      openFiles := rfl
      data := by simp [discharged, saveFile, persist] }

theorem drained_fh (rep : s.FileRep f) (fh : (s.fileMeta f).fh = (s.files f).metaSlot) :
    ((s.drained f).fileMeta f).fh = ((s.drained f).files f).metaSlot := by
  obtain ⟨blocks, writes, state, _, _⟩ := drained_eq rep
  have slot : ((s.drained f).files f).metaSlot = (s.files f).metaSlot := by
    rw [state]
    simp [persist]
  rw [fileMeta, slot, state]
  exact fh

omit [Crc32] in
theorem removeFileFromoDirectory_cases (s : FileSystem) (dir : DirectoryPtr) (f : FilePtr) :
    ∃ done,
      (s.removeFileFromoDirectory dir f =
          ({ s with directories := (s.removeChildFile dir f).1.directories }, done) ∧
        (s.createdFiles.lookup (s.key f) = none ∨
          (s.directories dir).itemMaps.lookup (s.fileMeta f).fh = none)) ∨
      s.removeFileFromoDirectory dir f =
        ({ s with
            directories := (s.removeChildFile dir f).1.directories
            createdFiles := s.createdFiles.erase (s.key f)
            createdFhs := s.createdFhs.erase (s.fileMeta f).fh }, done) := by
  rw [removeFileFromoDirectory, removeChildFile]
  cases found : (s.directories dir).itemMaps.lookup (s.fileMeta f).fh with
  | none => exact ⟨false, .inl ⟨rfl, .inr rfl⟩⟩
  | some g =>
    simp only [Option.isNone_some, Bool.false_eq_true, if_false]
    rcases (s.modifyDirectory dir fun d =>
        { d with itemMaps := d.itemMaps.erase (s.fileMeta f).fh }).removeFileNoLock_cases f with
      ⟨absent, kept⟩ | ⟨done, erased, _⟩
    · exact ⟨_, .inl ⟨kept, .inl absent⟩⟩
    · exact ⟨_, .inr erased⟩

/-- The end of both deletions: the file is emptied, then taken out of its directory and the indices. -/
theorem removed_discharged (rep : s.FileRep f) (fh : (s.fileMeta f).fh = (s.files f).metaSlot)
    (dir : DirectoryPtr) :
    ∃ s' done, ((s.drained f).discharged f).removeFileFromoDirectory dir f = (s', done) ∧
      Removed s s' dir f ∧ Removed s { s' with errno := 0 } dir f := by
  have emptied := emptied_drained (f := f) rep
  obtain ⟨blocks, writes, state, _, _⟩ := drained_eq (f := f) rep
  have slot : (((s.drained f).discharged f).files f).metaSlot = (s.files f).metaSlot := by
    rw [emptied.files, Function.update_self]
  have cleared : ((s.drained f).discharged f).fileMeta f = (s.fileMeta f).clear.sealed := by
    rw [fileMeta, slot, emptied.fileMetas, Function.update_self]
  have name : ((s.drained f).discharged f).key f = s.key f := by
    rw [key, cleared]
    rfl
  have own : (((s.drained f).discharged f).fileMeta f).fh = (s.files f).metaSlot := by
    rw [cleared]
    exact fh
  have fhs : ((s.drained f).discharged f).createdFhs = s.createdFhs := by rw [state]; rfl
  have names : ((s.drained f).discharged f).createdFiles = s.createdFiles := by rw [state]; rfl
  have dirs : ((s.drained f).discharged f).directories = s.directories := by rw [state]; rfl
  have side : ((s.drained f).discharged f).dirSide = s.dirSide := by rw [state]; rfl
  obtain ⟨done, outcome⟩ := removeFileFromoDirectory_cases ((s.drained f).discharged f) dir f
  have left := removeChildFile_relisted ((s.drained f).discharged f) dir f
  have listing := removeChildFile_directories ((s.drained f).discharged f) dir f
  generalize (s.drained f).discharged f = t at *
  rw [own] at left
  rw [own, dirs] at listing
  have relisted := (Relisted.of_dirSide side _).trans left
  have homes : { t.dirSide with directories := s.directories } = s.dirSide := by rw [side]; rfl
  obtain ⟨super, count, size, parents⟩ := emptied.layout
  rcases outcome with ⟨result, cause⟩ | result
  · rw [names, name, dirs, own] at cause
    exact ⟨_, _, result,
      ⟨{ emptied with layout := ⟨super, count, size, parents⟩ },
        ⟨homes, relisted.metaSlot, relisted.childDirMaps, relisted.kept⟩, listing, .inl ⟨fhs, names, cause⟩⟩,
      ⟨{ emptied with layout := ⟨super, count, size, parents⟩ },
        ⟨homes, relisted.metaSlot, relisted.childDirMaps, relisted.kept⟩, listing, .inl ⟨fhs, names, cause⟩⟩⟩
  · rw [names, name, fhs, own] at result
    exact ⟨_, _, result,
      ⟨{ emptied with layout := ⟨super, count, size, parents⟩ },
        ⟨homes, relisted.metaSlot, relisted.childDirMaps, relisted.kept⟩, listing, .inr ⟨rfl, rfl⟩⟩,
      ⟨{ emptied with layout := ⟨super, count, size, parents⟩ },
        ⟨homes, relisted.metaSlot, relisted.childDirMaps, relisted.kept⟩, listing, .inr ⟨rfl, rfl⟩⟩⟩

theorem Removed.of_errno {e : Errno} {s' : FileSystem} {dir : DirectoryPtr}
    (removed : Removed { s with errno := e } s' dir f) : Removed s s' dir f := by
  obtain ⟨super, count, size, parents⟩ := removed.layout
  obtain ⟨rest, metaSlot, childDirMaps, kept⟩ := removed.relisted
  exact
    { removed with
      layout := ⟨super, count, size, parents⟩
      relisted := ⟨rest, metaSlot, childDirMaps, kept⟩ }

omit [Crc32] in
theorem findFile_ok {dirname filename : Name} {dir : DirectoryPtr}
    (found : s.findFile dirname filename = .ok (dir, f)) :
    s.Leads dir ∧ s.createdFiles.lookup ((s.dirMeta dir).dh, filename) = some f := by
  have member := @getCreatedDirectory_ok s
  unfold findFile at found
  grind only

/-- `unlink` fails without a trace, marks a file that is open, or removes one that is not. -/
theorem unlink_cases (consistent : Consistent s lost) (ok : env.IoOk)
    (entered : ∀ K f, s.createdFiles.lookup K = some f → f < s.nextFile) (filename : Name) :
    SameSides s (s.unlink env filename).1 ∨
    (∃ K f, s.createdFiles.lookup K = some f ∧ 0 < (s.files f).nlink ∧
      SameSides (s.modifyFile f fun o => { o with deleted := true }) (s.unlink env filename).1) ∨
    ∃ dir name f, s.Leads dir ∧
      s.createdFiles.lookup ((s.dirMeta dir).dh, name) = some f ∧ (s.files f).nlink ≤ 0 ∧
      Removed s (s.unlink env filename).1 dir f := by
  rw [unlink]
  cases s.getCreatedDirectory filename with
  | ok => exact .inl ⟨rfl, rfl⟩
  | error e =>
    dsimp only
    cases FileHandle.transformPath filename with
    | error e' => exact .inl ⟨rfl, rfl⟩
    | ok parts =>
      obtain ⟨dirname, name⟩ := parts
      dsimp only
      cases found : (s.storeErrno e).findFile dirname name with
      | error e' => exact .inl ⟨rfl, rfl⟩
      | ok result =>
        obtain ⟨dir, f⟩ := result
        obtain ⟨path, entry⟩ := findFile_ok found
        have bound : f < s.nextFile := entered _ f entry
        dsimp only
        split
        · next busy => exact .inr (.inl ⟨_, f, entry, busy, rfl, rfl⟩)
        · next idle =>
          have same : SameFile s (s.storeErrno e) f := .of_agree rfl rfl fun _ _ => rfl
          obtain ⟨s', done, last, removed, removed'⟩ :=
            removed_discharged (f := f) (same.fileRep (consistent.rep f bound)) (consistent.fileMeta_fh f) dir
          have fh := drained_fh (same.fileRep (consistent.rep f bound)) (consistent.fileMeta_fh f)
          rw [removeAllFileBlock_ok ok]
          dsimp only
          rw [release_ok ok fh]
          dsimp only
          rw [last]
          refine .inr (.inr ⟨dir, name, f, path, entry, not_lt.mp idle, ?_⟩)
          cases done
          · exact removed.of_errno
          · exact removed'.of_errno

/-- The state in which the slot of a file has taken the time of its removal. -/
def restamped (s : FileSystem) (f : FilePtr) (now : Int) : FileSystem :=
  s.modifyFileMeta (s.files f).metaSlot fun m => { m with mtime := now, ctime := now }

theorem Removed.of_restamped {now : Int} {s' : FileSystem} {dir : DirectoryPtr}
    (removed : Removed (s.restamped f now) s' dir f) : Removed s s' dir f := by
  obtain ⟨super, count, size, parents⟩ := removed.layout
  have own : (s.restamped f now).fileMeta f = { s.fileMeta f with mtime := now, ctime := now } :=
    Function.update_self _ _ _
  have name : (s.restamped f now).key f = s.key f := by
    rw [key, own]
    rfl
  have metas := removed.fileMetas
  have index := removed.index
  obtain ⟨rest, metaSlot, childDirMaps, kept⟩ := removed.relisted
  rw [own] at metas
  rw [name] at index
  exact
    { removed with
      layout := ⟨super, count, size, parents⟩
      fileMetas := metas.trans (Function.update_idem _ _ _)
      relisted := ⟨rest, metaSlot, childDirMaps, kept⟩
      index := index }

/-- The deferred deletion fails without a trace, restamps a file that is open again, or removes it. -/
theorem unlinkFileNolock_cases (consistent : Consistent s lost) (ok : env.IoOk)
    (live : ∀ x f, s.createdFhs.lookup x = some f → f < s.nextFile) (fh : Nat) :
    SameSides s (s.unlinkFileNolock env fh).1 ∨
    ∃ f dir, s.createdFhs.lookup fh = some f ∧ s.createdDhs.lookup (s.fileMeta f).dh = some dir ∧
      ((0 < (s.files f).nlink ∧ SameSides (s.restamped f env.now) (s.unlinkFileNolock env fh).1) ∨
        ((s.files f).nlink ≤ 0 ∧ Removed s (s.unlinkFileNolock env fh).1 dir f)) := by
  rw [unlinkFileNolock]
  cases found : s.createdFhs.lookup fh with
  | none => exact .inl ⟨rfl, rfl⟩
  | some f =>
    dsimp only
    cases home : s.createdDhs.lookup (s.fileMeta f).dh with
    | none => exact .inl ⟨rfl, rfl⟩
    | some dir =>
      have bound : f < s.nextFile := live fh f found
      refine .inr ⟨f, dir, rfl, home, ?_⟩
      have stamped : (s.modifyFileMeta (s.files f).metaSlot fun m =>
          { m with mtime := env.now, ctime := env.now }) = s.restamped f env.now := rfl
      have own : (s.restamped f env.now).fileMeta f =
          { s.fileMeta f with mtime := env.now, ctime := env.now } := Function.update_self _ _ _
      dsimp only
      rw [stamped]
      split
      · next busy => exact .inl ⟨busy, rfl, rfl⟩
      · next idle =>
        have same : SameFile s (s.restamped f env.now) f :=
          { metaSlot := rfl
            itemMaps := rfl
            fh := by rw [own]
            size := by rw [own]
            isTemp := by rw [own]
            used := by rw [own]
            fileBlockMetas := fun _ _ => rfl }
        have fh : ((s.restamped f env.now).fileMeta f).fh =
            ((s.restamped f env.now).files f).metaSlot := by
          rw [own]
          exact consistent.fileMeta_fh f
        have rep := same.fileRep (consistent.rep f bound)
        obtain ⟨s', done, last, removed, removed'⟩ := removed_discharged rep fh dir
        rw [removeAllFileBlock_ok ok]
        dsimp only
        rw [release_ok ok (drained_fh rep fh)]
        dsimp only
        rw [last]
        refine .inr ⟨not_lt.mp idle, ?_⟩
        cases done
        · exact removed.of_restamped
        · exact removed'.of_restamped

end Removal

section Accounts
variable [Crc32] {s s' : FileSystem} {f : FilePtr} {lost : Lost}

theorem Emptied.file (emptied : Emptied s s' f) : s'.files f = { s.files f with itemMaps := ∅ } := by
  rw [emptied.files, Function.update_self]

theorem Emptied.fileMeta_eq (emptied : Emptied s s' f) :
    s'.fileMeta f = (s.fileMeta f).clear.sealed := by
  rw [fileMeta, emptied.file, emptied.fileMetas]
  exact Function.update_self _ _ _

theorem Emptied.sameFile (consistent : Consistent s lost) (bound : f < s.nextFile)
    (emptied : Emptied s s' f) {g : FilePtr} (hg : g < s.nextFile) (apart : g ≠ f) :
    SameFile s s' g := by
  refine .of_agree ?_ ?_ fun b member => emptied.kept b fun mine => ?_
  · rw [emptied.files, Function.update_of_ne apart]
  · rw [emptied.fileMetas, Function.update_of_ne]
    exact fun same => apart (consistent.metaSlot_unique hg bound same)
  · exact apart (consistent.attached_unique hg bound member mine)

/-- What an emptied file gives back is free again; its slot stays with it. -/
theorem Consistent.emptied (consistent : Consistent s lost) (bound : f < s.nextFile)
    (emptied : Emptied s s' f) : Consistent s' lost := by
  have none : s'.attached f = [] := by
    rw [attached, emptied.file]
    rfl
  have pool : (s'.blockIdPool : Multiset Nat) = s.blockIds f + s.blockIdPool := by
    rw [emptied.blockIdPool]
    exact refilled_perm (consistent.blockIds_nodup bound) fun id member =>
      consistent.blockIds_not_free bound member
  refine consistent.replace bound emptied.layout emptied.nextFile
    (fun g hg apart => emptied.sameFile consistent bound hg apart) (fun i => ?_)
    ?_ ?_ ?_ (fun i member => ?_) (fun b member => ?_) ?_
  · rw [emptied.fileMetas, Function.update_apply]
    split
    · next here => rw [here]; exact consistent.fileMeta_fh f
    · exact consistent.slots i
  · rw [emptied.freeFhs, emptied.file]
  · rw [emptied.freeFbhs, none, ← Multiset.coe_add, Multiset.coe_nil, add_zero]
  · have noIds : s'.blockIds f = [] := by rw [blockIds, none, List.flatMap_nil]
    rw [pool, noIds, Multiset.coe_nil, add_zero, add_comm (s.blockIds f : Multiset Nat)]
  · rw [emptied.freeFhs] at member
    rw [emptied.fileMetas, Function.update_of_ne (consistent.metaSlot_not_free bound member).symm]
    exact consistent.cleanFhs i member
  · rw [emptied.freeFbhs, List.mem_append] at member
    by_cases mine : b ∈ s.attached f
    · rw [emptied.released b mine]
      exact ⟨rfl, rfl⟩
    · rw [emptied.kept b mine]
      exact consistent.cleanFbhs b (member.resolve_right mine)
  · refine .empty ?_ (by rw [emptied.file]; rfl)
    rw [emptied.fileMeta_eq]
    rfl

end Accounts

end BlockFs.FileSystem
