import BlockFs.Links

namespace BlockFs.FileSystem

/-- What a rename of the file `f` changes; `m` is its slot with the new directory and name. -/
structure Renamed (s s' : FileSystem) (f : FilePtr) (m : FileMeta) : Prop where
  rest : { s'.fileSide with
    fileMetas := s.fileMetas, createdFhs := s.createdFhs, createdFiles := s.createdFiles } = s.fileSide
  fileMetas : s'.fileMetas = Function.update s.fileMetas (s.files f).metaSlot m
  createdFhs : s'.createdFhs = (s.createdFhs.erase (s.files f).metaSlot).insert (s.files f).metaSlot f
  createdFiles : s'.createdFiles =
    (s.createdFiles.erase (s.key f)).insert (m.dh, m.fileName) f
  fh : m.fh = (s.fileMeta f).fh
  size : m.size = (s.fileMeta f).size
  used : m.used = (s.fileMeta f).used
  isTemp : m.isTemp = (s.fileMeta f).isTemp
  relisted : Relisted s s' (s.files f).metaSlot
  placed : ∃ dir, s.Leads dir ∧ m.dh = (s.dirMeta dir).dh ∧ s'.Lists dir (s.files f).metaSlot
  listing : ∃ oldDir dir, s.createdDhs.lookup (s.fileMeta f).dh = some oldDir ∧ s.Leads dir ∧
    m.dh = (s.dirMeta dir).dh ∧ s'.directories =
      enlisted (delisted s.directories oldDir (s.files f).metaSlot) dir (s.files f).metaSlot f

section Renaming
variable {s s' : FileSystem} {f : FilePtr} {m : FileMeta}

theorem Renamed.files (renamed : Renamed s s' f m) : s'.files = s.files :=
  congrArg FileSide.files renamed.rest

theorem Renamed.resources (renamed : Renamed s s' f m) : SameResources s s' where
  layout :=
    { superMeta := congrArg FileSide.superMeta renamed.rest
      maxBlockNum := congrArg FileSide.maxBlockNum renamed.rest
      diskSize := congrArg FileSide.diskSize renamed.rest
      parentFiles := congrArg FileSide.parentFiles renamed.rest }
  nextFile := congrArg FileSide.nextFile renamed.rest
  freeFhs := congrArg FileSide.freeFhs renamed.rest
  freeFbhs := congrArg FileSide.freeFbhs renamed.rest
  blockIdPool := congrArg FileSide.blockIdPool renamed.rest
  fileBlockMetas := congrArg FileSide.fileBlockMetas renamed.rest
  metaSlot _ := by rw [renamed.files]
  itemMaps _ := by rw [renamed.files]
  fh i := by rw [renamed.fileMetas]; exact view_update s.fileMetas _ i (·.fh) renamed.fh
  size i := by rw [renamed.fileMetas]; exact view_update s.fileMetas _ i (·.size) renamed.size
  used i := by rw [renamed.fileMetas]; exact view_update s.fileMetas _ i (·.used) renamed.used
  isTemp i := by rw [renamed.fileMetas]; exact view_update s.fileMetas _ i (·.isTemp) renamed.isTemp

theorem Renamed.data (renamed : Renamed s s' f m) : s'.disk.data = s.disk.data :=
  congrArg FileSide.diskData renamed.rest

theorem Renamed.openedFile (renamed : Renamed s s' f m) (fd : Nat) :
    s'.openedFile fd = s.openedFile fd := by
  have opens : s'.openFiles = s.openFiles := congrArg FileSide.openFiles renamed.rest
  rw [FileSystem.openedFile, FileSystem.openedFile, opens]

theorem Renamed.reentered [Crc32] {lost : Lost} (consistent : Consistent s lost)
    (bound : f < s.nextFile) (renamed : Renamed s s' f m) : Reentered s s' f where
  nextFile := renamed.resources.nextFile
  opened := renamed.openedFile
  nlink _ := by rw [renamed.files]
  others g hg apart := by
    have slots : (s.files g).metaSlot ≠ (s.files f).metaSlot := fun same =>
      apart (consistent.metaSlot_unique hg bound same)
    refine ⟨renamed.resources.sameFile g, ?_⟩
    rw [key, key, fileMeta, fileMeta, renamed.files, renamed.fileMetas, Function.update_of_ne slots]
  unshared g hg apart := by
    rw [renamed.files]
    exact fun same => apart (consistent.metaSlot_unique hg bound same)
  createdFhs := ⟨_, .inr rfl, by rw [renamed.files]; exact renamed.createdFhs⟩
  createdFiles := by
    have own : s'.key f = (m.dh, m.fileName) := by
      rw [key, fileMeta, renamed.files, renamed.fileMetas, Function.update_self]
    exact ⟨_, .inr rfl, by rw [own, renamed.createdFiles]⟩

end Renaming

section Calls
variable [Crc32] {s : FileSystem} {env : Env} {f : FilePtr} {lost : Lost}

/-- The slot of a renamed file. -/
def renamedMeta (s : FileSystem) (f : FilePtr) (dh : Nat) (target : Name) (now : Int) : FileMeta :=
  { (s.fileMeta f).setFileName (getFileName target) with dh := dh, mtime := now, ctime := now }.sealed

/-- The file has its new slot and is entered in both indices under it. -/
def entered (s : FileSystem) (f : FilePtr) (m : FileMeta) : FileSystem :=
  { s with
    fileMetas := Function.update s.fileMetas (s.files f).metaSlot m
    createdFhs := s.createdFhs.insert (s.files f).metaSlot f
    createdFiles := s.createdFiles.insert (m.dh, m.fileName) f }

/-- Writing a slot that is already sealed changes nothing in memory. -/
theorem saveFile_sameSides {i : Nat} (sealed : (s.fileMetas i).sealed = s.fileMetas i) :
    SameSides s (s.saveFile i) :=
  ⟨by simp [saveFile, persist, fileSide, sealed], rfl⟩

theorem enterRenamed_sameSides (ok : env.IoOk) (fh : (s.fileMeta f).fh = (s.files f).metaSlot)
    (newDir : DirectoryPtr) (target : Name) :
    SameSides ((s.entered f (s.renamedMeta f (s.dirMeta newDir).dh target env.now)).addChildFile
      newDir f).1 (s.enterRenamed env f newDir target).1 := by
  have stamped : ((s.modifyFileMeta (s.files f).metaSlot fun m =>
      { (m.setFileName (getFileName target)) with dh := (s.dirMeta newDir).dh }).updateTimeStamp f
        env.now) =
      { s with
        fileMetas := Function.update s.fileMetas (s.files f).metaSlot
          (s.renamedMeta f (s.dirMeta newDir).dh target env.now) } := by
    simp [updateTimeStamp, renamedMeta, fileMeta]
  have own (m : FileMeta) : ({ s with
      fileMetas := Function.update s.fileMetas (s.files f).metaSlot m } : FileSystem).fileMeta f = m :=
    Function.update_self _ _ _
  have added (m : FileMeta) (same : m.fh = (s.files f).metaSlot) : ({ s with
      fileMetas := Function.update s.fileMetas (s.files f).metaSlot m } : FileSystem).addFileNoLock f =
      s.entered f m := by
    rw [addFileNoLock, own, same]
    rfl
  have entry : (s.renamedMeta f (s.dirMeta newDir).dh target env.now).fh = (s.files f).metaSlot := fh
  have sealed : (s.renamedMeta f (s.dirMeta newDir).dh target env.now).sealed =
      s.renamedMeta f (s.dirMeta newDir).dh target env.now := rfl
  rw [enterRenamed, stamped, added _ entry]
  generalize s.renamedMeta f (s.dirMeta newDir).dh target env.now = m at entry sealed ⊢
  have slot : (s.entered f m).fileMeta f = m := own m
  simp only [addChildFile]
  cases ((s.entered f m).directories newDir).itemMaps.lookup ((s.entered f m).fileMeta f).fh with
  | some g => exact ⟨rfl, rfl⟩
  | none =>
    simp only [Option.isSome_none, Bool.false_eq_true, if_false]
    have slot' (g : Directory → Directory) :
        (((s.entered f m).modifyDirectory newDir g).fileMeta f).fh = (s.files f).metaSlot := by
      exact (congrArg FileMeta.fh slot).trans entry
    rw [writeMeta, slot', writeFileMeta_ok ok]
    refine saveFile_sameSides ?_
    change (Function.update s.fileMetas (s.files f).metaSlot m (s.files f).metaSlot).sealed =
      Function.update s.fileMetas (s.files f).metaSlot m (s.files f).metaSlot
    rw [Function.update_self, sealed]

theorem enterRenamed_relisted (ok : env.IoOk) (fh : (s.fileMeta f).fh = (s.files f).metaSlot)
    (newDir : DirectoryPtr) (target : Name) (x : Nat) :
    Relisted s (s.enterRenamed env f newDir target).1 x ∧
      (s.enterRenamed env f newDir target).1.Lists newDir (s.files f).metaSlot ∧
      (s.enterRenamed env f newDir target).1.directories =
        enlisted s.directories newDir (s.files f).metaSlot f := by
  obtain ⟨_, homes⟩ := enterRenamed_sameSides ok fh newDir target
  have slot : ((s.entered f (s.renamedMeta f (s.dirMeta newDir).dh target env.now)).fileMeta f).fh =
      (s.files f).metaSlot :=
    (congrArg FileMeta.fh (Function.update_self (s.files f).metaSlot _ s.fileMetas)).trans fh
  have lists := addChildFile_lists
    (s.entered f (s.renamedMeta f (s.dirMeta newDir).dh target env.now)) newDir f
  have relisted := (addChildFile_relisted
    (s.entered f (s.renamedMeta f (s.dirMeta newDir).dh target env.now)) newDir f x).trans
      (.of_dirSide homes x)
  have listing := addChildFile_directories
    (s.entered f (s.renamedMeta f (s.dirMeta newDir).dh target env.now)) newDir f
  have tables : (s.enterRenamed env f newDir target).1.directories = _ :=
    congrArg DirSide.directories homes
  rw [slot] at lists listing
  refine ⟨⟨relisted.rest, relisted.metaSlot, relisted.childDirMaps, relisted.kept⟩, ?_, tables.trans listing⟩
  rw [Lists, tables]
  exact lists

/-- `File::rename` of a named file is refused for want of a directory or of its entry in one, or
renames it. -/
theorem fileRename_cases (slots : ∀ i, (s.fileMetas i).fh = i) (here : s.IsRegistered f) (ok : env.IoOk)
    (named : s.createdFiles.lookup (s.key f) = some f) (target : Name) :
    (∃ e, s.fileRename env f target = (s.storeErrno e, -1) ∧
      (s.createdDhs.lookup (s.fileMeta f).dh = none ∨
        s.getCreatedDirectory (getDirName target) = .error e ∨
        ∃ oldDir, s.createdDhs.lookup (s.fileMeta f).dh = some oldDir ∧
          (s.directories oldDir).itemMaps.lookup (s.fileMeta f).fh = none)) ∨
      ∃ dir m, s.getCreatedDirectory (getDirName target) = .ok dir ∧
        (m.dh, m.fileName) =
          ((s.dirMeta dir).dh, (getFileName target).take kBlockFsMaxFileNameLen) ∧
        Renamed s (s.fileRename env f target).1 f m := by
  have fh : (s.fileMeta f).fh = (s.files f).metaSlot := slots _
  rw [fileRename]
  cases home : s.createdDhs.lookup (s.fileMeta f).dh with
  | none => exact .inl ⟨none, rfl, .inl rfl⟩
  | some oldDir =>
    dsimp only
    cases leads : s.getCreatedDirectory (getDirName target) with
    | error e => exact .inl ⟨e, rfl, .inr (.inl rfl)⟩
    | ok newDir =>
      dsimp only
      have left := removeChildFile_relisted s oldDir f
      rw [removeChildFile] at left ⊢
      cases listed : (s.directories oldDir).itemMaps.lookup (s.fileMeta f).fh with
      | none => exact .inl ⟨none, rfl, .inr (.inr ⟨oldDir, rfl, listed⟩)⟩
      | some g =>
        refine .inr ?_
        rw [listed] at left
        simp only [Option.isNone_some, Bool.false_eq_true, if_false] at left ⊢
        rcases (s.modifyDirectory oldDir fun d =>
            { d with itemMaps := d.itemMaps.erase (s.fileMeta f).fh }).removeFileNoLock_cases f with
          ⟨absent, _⟩ | ⟨done, erased, last⟩
        · exact absurd (named.symm.trans absent) (by simp)
        · have entry : s.createdFhs.lookup (s.fileMeta f).fh = some f := by rw [fh]; exact here
          have finished : done = true := by
            rw [last]
            exact congrArg Option.isSome entry
          subst finished
          rw [erased]
          obtain ⟨same, homes⟩ := enterRenamed_sameSides (s :=
            { s.modifyDirectory oldDir fun d =>
                { d with itemMaps := d.itemMaps.erase (s.fileMeta f).fh } with
              createdFiles := s.createdFiles.erase (s.key f)
              createdFhs := s.createdFhs.erase (s.fileMeta f).fh }) ok fh newDir target
          obtain ⟨relisted, lists, listing⟩ := enterRenamed_relisted (s :=
            { s.modifyDirectory oldDir fun d =>
                { d with itemMaps := d.itemMaps.erase (s.fileMeta f).fh } with
              createdFiles := s.createdFiles.erase (s.key f)
              createdFhs := s.createdFhs.erase (s.fileMeta f).fh }) ok fh newDir target
            (s.files f).metaSlot
          have side (t : FileSystem) : (t.addChildFile newDir f).1.fileSide = t.fileSide := by
            rw [addChildFile]
            split <;> rfl
          rw [side] at same
          have slot (i : DirectoryPtr) : (dirMeta (s.modifyDirectory oldDir fun d =>
              { d with itemMaps := d.itemMaps.erase (s.fileMeta f).fh }) i).dh = (s.dirMeta i).dh :=
            congrArg (fun i => (s.dirMetas i).dh) (left.metaSlot i)
          refine ⟨newDir, s.renamedMeta f (dirMeta (s.modifyDirectory oldDir fun d =>
            { d with itemMaps := d.itemMaps.erase (s.fileMeta f).fh }) newDir).dh target env.now,
            rfl, Prod.ext (slot newDir) rfl, ?_⟩
          exact
            { rest := congrArg (fun side : FileSide => { side with
                fileMetas := s.fileMetas, createdFhs := s.createdFhs,
                createdFiles := s.createdFiles }) same
              fileMetas := congrArg FileSide.fileMetas same
              createdFhs := (congrArg FileSide.createdFhs same).trans
                (congrArg (fun slot : Nat =>
                  ((s.createdFhs.erase slot).insert (s.files f).metaSlot f : Map Nat FilePtr)) fh)
              createdFiles := congrArg FileSide.createdFiles same
              fh := rfl
              size := rfl
              used := rfl
              isTemp := rfl
              relisted :=
                ⟨(congrArg (fun side : DirSide => { side with directories := s.directories })
                    relisted.rest).trans left.rest,
                  fun d => (relisted.metaSlot d).trans (left.metaSlot d),
                  fun d => (relisted.childDirMaps d).trans (left.childDirMaps d),
                  fun d y apart listed => relisted.kept d y apart
                    (left.kept d y (by rw [fh]; exact apart) listed)⟩
              placed := ⟨newDir, getCreatedDirectory_ok leads,
                slot newDir, lists⟩
              listing := ⟨oldDir, newDir, home, getCreatedDirectory_ok leads, slot newDir,
                listing.trans (congrArg (fun slot : Nat => enlisted
                  (delisted s.directories oldDir slot) newDir (s.files f).metaSlot f) fh)⟩ }

end Calls

end BlockFs.FileSystem
