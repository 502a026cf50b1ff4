import BlockFs.Registered

namespace BlockFs.FileSystem

/-- What opening a file at `fd` changes; an fd that was in use changes hands. -/
structure Opened (s s' : FileSystem) (fd : Nat) (f : FilePtr) : Prop extends Relinked s s' where
  opened : ∀ x, s'.openedFile x = if x = fd then some f else s.openedFile x
  nlink : ∀ g, (s'.files g).nlink = if g = f then (s.files g).nlink + 1 else (s.files g).nlink

/-- What closing `fd` changes, before anything is deleted. -/
structure Closed (s s' : FileSystem) (fd : Nat) (f : FilePtr) : Prop extends Relinked s s' where
  opened : ∀ x, s'.openedFile x = if x = fd then none else s.openedFile x
  nlink : ∀ g, (s'.files g).nlink = if g = f then (s.files g).nlink - 1 else (s.files g).nlink

section Index
variable {s s' : FileSystem} {fd : Nat} {f : FilePtr}

theorem Relinked.isRegistered (relinked : Relinked s s') (f : FilePtr) :
    s'.IsRegistered f ↔ s.IsRegistered f := by
  rw [IsRegistered, IsRegistered, relinked.createdFhs, relinked.metaSlot]

theorem Relinked.key_eq (relinked : Relinked s s') (f : FilePtr) : s'.key f = s.key f := by
  simp only [key, fileMeta, relinked.metaSlot, relinked.fileMetas]

/-- An open adds one descriptor and one link to its file, and takes a descriptor from another at most. -/
theorem openers_of_opened (opened : ∀ x, s'.openedFile x = if x = fd then some f else s.openedFile x)
    (nlink : ∀ g, (s'.files g).nlink = if g = f then (s.files g).nlink + 1 else (s.files g).nlink)
    {g : FilePtr} (before : ((s.openers g).card : Int) ≤ (s.files g).nlink) :
    ((s'.openers g).card : Int) ≤ (s'.files g).nlink := by
  rw [nlink]
  by_cases mine : g = f
  · subst mine
    have more : s'.openers g ⊆ insert fd (s.openers g) := by
      intro x member
      rw [mem_openers, opened] at member
      rw [Finset.mem_insert, mem_openers]
      by_cases here : x = fd
      · exact .inl here
      · exact .inr (by rwa [if_neg here] at member)
    have count := (Finset.card_le_card more).trans (Finset.card_insert_le _ _)
    rw [if_pos rfl]
    omega
  · have fewer : s'.openers g ⊆ s.openers g := by
      intro x member
      rw [mem_openers, opened] at member
      rw [mem_openers]
      split at member
      · exact absurd (Option.some.inj member).symm mine
      · exact member
    have count := Finset.card_le_card fewer
    rw [if_neg mine]
    omega

/-- A close takes the descriptor and one link from its file. -/
theorem openers_of_closed (found : s.openedFile fd = some f)
    (opened : ∀ x, s'.openedFile x = if x = fd then none else s.openedFile x)
    (nlink : ∀ g, (s'.files g).nlink = if g = f then (s.files g).nlink - 1 else (s.files g).nlink)
    {g : FilePtr} (before : ((s.openers g).card : Int) ≤ (s.files g).nlink) :
    ((s'.openers g).card : Int) ≤ (s'.files g).nlink := by
  have openers : s'.openers g = (s.openers g).erase fd := by
    ext x
    rw [mem_openers, opened, Finset.mem_erase, mem_openers]
    by_cases here : x = fd
    · simp [here]
    · simp [here]
  rw [nlink, openers]
  by_cases mine : g = f
  · subst mine
    have member : fd ∈ s.openers g := mem_openers.mpr found
    have count := Finset.card_erase_of_mem member
    have positive := Finset.card_pos.mpr ⟨fd, member⟩
    rw [if_pos rfl]
    omega
  · have count := Finset.card_erase_le (s := s.openers g) (a := fd)
    rw [if_neg mine]
    omega

theorem Registered.opened (registered : Registered s) (here : s.IsRegistered f)
    (opened : Opened s s' fd f) : Registered s' := by
  have same := opened.toRelinked.isRegistered
  exact
    { live := fun x g found => by
        rw [opened.resources.nextFile]
        exact registered.live x g (opened.createdFhs ▸ found)
      slots := fun g bound h found => by
        rw [opened.resources.nextFile] at bound
        rw [opened.createdFhs, opened.metaSlot] at found
        exact registered.slots g bound h found
      names := fun K g found => by
        rw [opened.createdFiles] at found
        rw [opened.key_eq, same]
        exact registered.names K g found
      opens := fun x g there => by
        rw [opened.opened] at there
        rw [same]
        split at there
        · obtain rfl := Option.some.inj there
          exact here
        · exact registered.opens x g there
      links := fun g bound => by
        rw [opened.resources.nextFile] at bound
        exact openers_of_opened opened.opened opened.nlink (registered.links g bound)
      held := fun g bound some_ => by
        rw [opened.resources.nextFile] at bound
        rw [(opened.resources.sameFile g).attached_eq] at some_
        exact (same g).mpr (registered.held g bound some_) }

theorem Registered.closed (registered : Registered s) (found : s.openedFile fd = some f)
    (closed : Closed s s' fd f) : Registered s' := by
  have same := closed.toRelinked.isRegistered
  exact
    { live := fun x g found => by
        rw [closed.resources.nextFile]
        exact registered.live x g (closed.createdFhs ▸ found)
      slots := fun g bound h found => by
        rw [closed.resources.nextFile] at bound
        rw [closed.createdFhs, closed.metaSlot] at found
        exact registered.slots g bound h found
      names := fun K g found => by
        rw [closed.createdFiles] at found
        rw [closed.key_eq, same]
        exact registered.names K g found
      opens := fun x g there => by
        rw [closed.opened] at there
        rw [same]
        split at there
        · simp at there
        · exact registered.opens x g there
      links := fun g bound => by
        rw [closed.resources.nextFile] at bound
        exact openers_of_closed found closed.opened closed.nlink (registered.links g bound)
      held := fun g bound some_ => by
        rw [closed.resources.nextFile] at bound
        rw [(closed.resources.sameFile g).attached_eq] at some_
        exact (same g).mpr (registered.held g bound some_) }

end Index

theorem openedFile_insert (m : Map Nat OpenFile) (fd : Nat) (o : OpenFile) (x : Nat) :
    ((m.insert fd o).lookup x).map (·.file) =
      if x = fd then some o.file else (m.lookup x).map (·.file) := by
  split
  · next here => rw [here, AList.lookup_insert]; rfl
  · next elsewhere => rw [AList.lookup_insert_ne elsewhere]

theorem openedFile_erase (m : Map Nat OpenFile) (fd x : Nat) :
    ((m.erase fd).lookup x).map (·.file) =
      if x = fd then none else (m.lookup x).map (·.file) := by
  split
  · next here => rw [here, AList.lookup_erase]; rfl
  · next elsewhere => rw [AList.lookup_erase_ne elsewhere]

section Calls
variable [Crc32] {s : FileSystem} {env : Env} {lost : Lost}

omit [Crc32] in
theorem openFd_opened (s : FileSystem) (f : FilePtr) (flags : Nat) :
    ∃ fd, Opened s (s.openFd f flags).1 fd f ∧ (s.openFd f flags).2 = toInt32 fd := by
  obtain ⟨same, homes⟩ := s.getFd_sameSides
  rw [openFd]
  generalize s.getFd = taken at same homes ⊢
  obtain ⟨t, fd⟩ := taken
  dsimp only at same homes ⊢
  have files : t.files = s.files := congrArg FileSide.files same
  have opens : t.openFiles = s.openFiles := congrArg FileSide.openFiles same
  refine ⟨toU64 fd, ⟨⟨homes, ?_, fun g => ?_, fun g => ?_⟩, fun x => ?_, fun g => ?_⟩, rfl⟩
  · rw [← same]
    simp only [fileSide, modifyFile, files, opens]
  · rw [← files]
    exact view_update t.files f g (·.metaSlot) rfl
  · rw [← files]
    exact view_update t.files f g (·.itemMaps) rfl
  · rw [openedFile, openedFile, ← opens]
    exact openedFile_insert _ _ _ x
  · simp only [modifyFile, files, Function.update_apply]
    split
    · next here => rw [here]
    · rfl

/-- A removal does not depend on which fds are open. -/
theorem Removed.reopen {s' u : FileSystem} {dir : DirectoryPtr} {f : FilePtr} {m : Map Nat OpenFile}
    (removed : Removed s s' dir f) (same : u.fileSide = { s'.fileSide with openFiles := m })
    (homes : u.dirSide = s'.dirSide) : Removed { s with openFiles := m } u dir f where
  layout :=
    { superMeta := (congrArg FileSide.superMeta same).trans removed.layout.superMeta
      maxBlockNum := (congrArg FileSide.maxBlockNum same).trans removed.layout.maxBlockNum
      diskSize := (congrArg FileSide.diskSize same).trans removed.layout.diskSize
      parentFiles := (congrArg FileSide.parentFiles same).trans removed.layout.parentFiles }
  nextFile := (congrArg FileSide.nextFile same).trans removed.nextFile
  freeFhs := (congrArg FileSide.freeFhs same).trans removed.freeFhs
  freeFbhs := (congrArg FileSide.freeFbhs same).trans removed.freeFbhs
  blockIdPool := (congrArg FileSide.blockIdPool same).trans removed.blockIdPool
  files := (congrArg FileSide.files same).trans removed.files
  fileMetas := (congrArg FileSide.fileMetas same).trans removed.fileMetas
  released b member := (congrFun (congrArg FileSide.fileBlockMetas same) b).trans (removed.released b member)
  kept b member := (congrFun (congrArg FileSide.fileBlockMetas same) b).trans (removed.kept b member)
  openFiles := congrArg FileSide.openFiles same
  data := (congrArg FileSide.diskData same).trans removed.data
  relisted :=
    have relisted := removed.relisted.trans (.of_dirSide homes _)
    ⟨relisted.rest, relisted.metaSlot, relisted.childDirMaps, relisted.kept⟩
  listing := (congrArg DirSide.directories homes).trans removed.listing
  index := by
    have fhs : u.createdFhs = s'.createdFhs := congrArg FileSide.createdFhs same
    have names : u.createdFiles = s'.createdFiles := congrArg FileSide.createdFiles same
    rw [fhs, names]
    exact removed.index

omit [Crc32] in
theorem restamped_quiet (s : FileSystem) (f : FilePtr) (now : Int) : Quiet s (s.restamped f now) := by
  have blind {α : Type} (view : FileMeta → α)
      (same : view { s.fileMeta f with mtime := now, ctime := now } = view (s.fileMeta f)) (i : Nat) :
      view ((s.restamped f now).fileMetas i) = view (s.fileMetas i) :=
    view_update s.fileMetas (s.files f).metaSlot i view same
  exact
    { resources :=
        { layout := ⟨rfl, rfl, rfl, rfl⟩
          nextFile := rfl
          freeFhs := rfl
          freeFbhs := rfl
          blockIdPool := rfl
          fileBlockMetas := rfl
          metaSlot := fun _ => rfl
          itemMaps := fun _ => rfl
          fh := blind (·.fh) rfl
          size := blind (·.size) rfl
          used := blind (·.used) rfl
          isTemp := blind (·.isTemp) rfl }
      data := rfl
      createdFhs := rfl
      createdFiles := rfl
      opened := fun _ => rfl
      nlink := fun _ => rfl
      dh := blind (·.dh) rfl
      fileName := blind (·.fileName) rfl }

/-- The deletion behind the last link fails without a trace, or removes the file. -/
theorem closeLast_cases (consistent : Consistent s lost) (ok : env.IoOk)
    (live : ∀ x f, s.createdFhs.lookup x = some f → f < s.nextFile) {f : FilePtr}
    (own : ∀ g, s.createdFhs.lookup (s.files f).metaSlot = some g → g = f) :
    (∃ now, SameSides s (s.closeLast env f) ∨ SameSides (s.restamped f now) (s.closeLast env f)) ∨
    ∃ dir, s.createdDhs.lookup (s.fileMeta f).dh = some dir ∧ (s.files f).nlink ≤ 0 ∧
      Removed s (s.closeLast env f) dir f := by
  have deleted : (∃ now, SameSides s (s.unlinkFileNolock env (s.fileMeta f).fh).1 ∨
      SameSides (s.restamped f now) (s.unlinkFileNolock env (s.fileMeta f).fh).1) ∨
      ∃ dir, s.createdDhs.lookup (s.fileMeta f).dh = some dir ∧ (s.files f).nlink ≤ 0 ∧
        Removed s (s.unlinkFileNolock env (s.fileMeta f).fh).1 dir f := by
    rcases unlinkFileNolock_cases consistent ok live (s.fileMeta f).fh with
      same | ⟨g, dir, found, home, ⟨_, stamped⟩ | ⟨idle, removed⟩⟩
    · exact .inl ⟨0, .inl same⟩
    · rw [consistent.fileMeta_fh] at found
      obtain rfl := own g found
      exact .inl ⟨env.now, .inr stamped⟩
    · have here := found
      rw [consistent.fileMeta_fh] at here
      obtain rfl := own g here
      exact .inr ⟨dir, home, idle, removed⟩
  unfold closeLast
  split
  · split
    · exact deleted
    · split
      · exact deleted
      · exact .inl ⟨0, .inl ⟨rfl, rfl⟩⟩
  · exact .inl ⟨0, .inl ⟨rfl, rfl⟩⟩

/-- `close` fails without a trace, or closes the fd and then may delete the file it was open on. -/
theorem close_cases (consistent : Consistent s lost) (registered : Registered s) (ok : env.IoOk)
    (fd : Nat) :
    (s.openedFile fd = none ∧ SameSides s (s.close env fd).1) ∨
    ∃ f t, s.openedFile fd = some f ∧ Closed s t fd f ∧
      ((Quiet t (s.close env fd).1 ∧ (s.close env fd).1.dirSide = t.dirSide) ∨
        ∃ dir, s.createdDhs.lookup (s.fileMeta f).dh = some dir ∧ (t.files f).nlink ≤ 0 ∧
          Removed t (s.close env fd).1 dir f) := by
  rw [close, getOpenFile]
  cases found : s.openFiles.lookup fd with
  | none => exact .inl ⟨by rw [openedFile, found]; rfl, rfl, rfl⟩
  | some o =>
    refine .inr ⟨o.file, { (s.modifyFile o.file fun g =>
      { g with locked := false, nlink := g.nlink - 1 }) with openFiles := s.openFiles.erase fd },
      by rw [openedFile, found]; rfl, ?_, ?_⟩
    · refine ⟨⟨rfl, rfl, fun g => ?_, fun g => ?_⟩, openedFile_erase s.openFiles fd, fun g => ?_⟩
      · exact view_update s.files o.file g (·.metaSlot) rfl
      · exact view_update s.files o.file g (·.itemMaps) rfl
      · simp only [modifyFile, Function.update_apply]
        split
        · next here => rw [here]
        · rfl
    · have linked : Relinked s (s.modifyFile o.file fun g =>
          { g with locked := false, nlink := g.nlink - 1 }) :=
        ⟨rfl, rfl, fun g => view_update s.files o.file g (·.metaSlot) rfl,
          fun g => view_update s.files o.file g (·.itemMaps) rfl⟩
      have bound : o.file < s.nextFile :=
        registered.bound (registered.opens fd o.file (by rw [openedFile, found]; rfl))
      have own (g : FilePtr) (entry : s.createdFhs.lookup ((s.modifyFile o.file fun g =>
          { g with locked := false, nlink := g.nlink - 1 }).files o.file).metaSlot = some g) :
          g = o.file := by
        rw [linked.metaSlot] at entry
        exact registered.slots o.file bound g entry
      have outcome := closeLast_cases (consistent.congr linked.resources) ok registered.live own
      have name : ((s.modifyFile o.file fun g =>
          { g with locked := false, nlink := g.nlink - 1 }).fileMeta o.file).dh =
          (s.fileMeta o.file).dh := by rw [fileMeta, fileMeta, linked.metaSlot, linked.fileMetas]
      have opens : (s.modifyFile o.file fun g =>
          { g with locked := false, nlink := g.nlink - 1 }).openFiles = s.openFiles := rfl
      have homes : (s.modifyFile o.file fun g =>
          { g with locked := false, nlink := g.nlink - 1 }).createdDhs = s.createdDhs := rfl
      dsimp only
      generalize (s.modifyFile o.file fun g =>
        { g with locked := false, nlink := g.nlink - 1 }) = t at *
      have side (u : FileSystem) : { u.putFd (toInt32 fd) with errno := 0 }.fileSide = u.fileSide :=
        (u.putFd_sameSides (toInt32 fd)).fileSide
      have homes' (u : FileSystem) : { u.putFd (toInt32 fd) with errno := 0 }.dirSide = u.dirSide :=
        (u.putFd_sameSides (toInt32 fd)).dirSide
      rcases outcome with ⟨now, same | same⟩ | ⟨dir, home, idle, removed⟩
      · obtain ⟨same, kept⟩ := same
        refine .inl ⟨.of_fileSide ((side _).trans ?_), (homes' _).trans kept⟩
        have opens' : (t.closeLast env o.file).openFiles = t.openFiles :=
          congrArg FileSide.openFiles same
        rw [← opens, ← opens']
        exact congrArg (fun side : FileSide =>
          { side with openFiles := (t.closeLast env o.file).openFiles.erase fd }) same
      · obtain ⟨same, kept⟩ := same
        have opens' : (t.closeLast env o.file).openFiles = t.openFiles :=
          congrArg FileSide.openFiles same
        refine .inl ⟨(restamped_quiet { t with openFiles := s.openFiles.erase fd } o.file now).trans
          (.of_fileSide ((side _).trans ?_)), (homes' _).trans kept⟩
        rw [← opens, ← opens']
        exact congrArg (fun side : FileSide =>
          { side with openFiles := (t.closeLast env o.file).openFiles.erase fd }) same
      · refine .inr ⟨dir, by rw [← name, ← homes]; exact home, idle, removed.reopen ?_ (homes' _)⟩
        rw [side, ← opens, ← removed.openFiles]
        rfl

end Calls

end BlockFs.FileSystem
