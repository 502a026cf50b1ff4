import BlockFs.Registry

namespace BlockFs.FileSystem

/-- What a call changes only by the turns below: the slots, the pools, the indices and maps that
hold files, directories and file blocks, and the metadata on the device. -/
structure Beneath where
  superMeta : SuperBlockMeta
  maxBlockNum : Nat
  blockIdPool : List Nat
  dirMetas : Nat → DirMeta
  freeDhs : List Nat
  dirSlots : DirectoryPtr → Nat
  dirItems : DirectoryPtr → Map Nat FilePtr
  childDirMaps : DirectoryPtr → Map Nat DirectoryPtr
  nextDirectory : Nat
  createdDirs : Map Name DirectoryPtr
  createdDhs : Map Nat DirectoryPtr
  fileMetas : Nat → FileMeta
  freeFhs : List Nat
  fileSlots : FilePtr → Nat
  fileItems : FilePtr → Map Nat FileBlockPtr
  nextFile : Nat
  createdFiles : Map (Nat × Name) FilePtr
  createdFhs : Map Nat FilePtr
  parentFiles : Map Nat ParentFile
  fileBlockMetas : Nat → FileBlockMeta
  freeFbhs : List Nat
  image : Disk
  journal : List MetaWrite

def beneath (s : FileSystem) : Beneath :=
  { superMeta := s.superMeta
    maxBlockNum := s.maxBlockNum
    blockIdPool := s.blockIdPool
    dirMetas := s.dirMetas
    freeDhs := s.freeDhs
    dirSlots := fun d => (s.directories d).metaSlot
    dirItems := fun d => (s.directories d).itemMaps
    childDirMaps := fun d => (s.directories d).childDirMaps
    nextDirectory := s.nextDirectory
    createdDirs := s.createdDirs
    createdDhs := s.createdDhs
    fileMetas := s.fileMetas
    freeFhs := s.freeFhs
    fileSlots := fun f => (s.files f).metaSlot
    fileItems := fun f => (s.files f).itemMaps
    nextFile := s.nextFile
    createdFiles := s.createdFiles
    createdFhs := s.createdFhs
    parentFiles := s.parentFiles
    fileBlockMetas := s.fileBlockMetas
    freeFbhs := s.freeFbhs
    image := { s.disk with data := fun _ => 0 }
    journal := s.journal }

/-- One turn of a call: it moves descriptors, locks, marks and data about, or it runs one of the
operations on a file or a directory. -/
inductive Turn [Crc32] (env : Env) : FileSystem → FileSystem → Prop
  | surface {s s'} (same : s'.beneath = s.beneath)
    (opens : ∀ fd f, s'.openedFile fd = some f → s.Accessible f) : Turn env s s'
  | created (s path tmpfile) : Turn env s (s.createFile env path tmpfile).1
  | truncated {s s' f n r} (known : s.Accessible f) (result : s.ftruncate env f n = .ok (s', r)) :
    Turn env s s'
  | stamped {s f} (known : s.Accessible f) : Turn env s (s.updateTimeStamp f env.now)
  | discarded {s fd f} (opened : s.openedFile fd = some f) (last : (s.files f).nlink = 0)
    (doomed : (s.fileMeta f).isTemp = true ∨ (s.files f).deleted = true) :
    Turn env s (s.unlinkFileNolock env (s.fileMeta f).fh).1
  | unlinked (s path) : Turn env s (s.unlink env path).1
  | renamed {s path f} (found : s.getCreatedFile path = .ok f) (target) :
    Turn env s (s.fileRename env f target).1
  | madeDirectory {s s' path r} (result : s.createDirectory env path = .ok (s', r)) : Turn env s s'
  | droppedDirectory (s path) : Turn env s (s.deleteDirectory env path).1
  | movedDirectory (s source target) : Turn env s (s.renameDirectory env source target).1
  | readDirectory {s s' stream item} (result : s.readDirectory env stream = .ok (s', item)) :
    Turn env s s'

section Surface
variable {s s' : FileSystem} {f : FilePtr}

theorem modifyFile_beneath (s : FileSystem) (f : FilePtr) (g : File → File)
    (metaSlot : (g (s.files f)).metaSlot = (s.files f).metaSlot)
    (itemMaps : (g (s.files f)).itemMaps = (s.files f).itemMaps) :
    (s.modifyFile f g).beneath = s.beneath := by
  have slots : (fun h => ((s.modifyFile f g).files h).metaSlot) = fun h => (s.files h).metaSlot := by
    funext h
    exact view_update s.files f h (·.metaSlot) metaSlot
  have items : (fun h => ((s.modifyFile f g).files h).itemMaps) = fun h => (s.files h).itemMaps := by
    funext h
    exact view_update s.files f h (·.itemMaps) itemMaps
  unfold beneath
  rw [slots, items]
  rfl

theorem links_beneath (s : FileSystem) (d : DirectoryPtr) (nlink : Int) :
    (s.modifyDirectory d fun o => { o with nlink := nlink }).beneath = s.beneath := by
  have agree {α : Type} (view : Directory → α) (blind : ∀ o, view { o with nlink := nlink } = view o) :
      (fun e => view ((s.modifyDirectory d fun o => { o with nlink := nlink }).directories e)) =
        fun e => view (s.directories e) := by
    funext e
    exact view_update s.directories d e view (blind _)
  unfold beneath
  rw [agree (·.metaSlot) fun _ => rfl, agree (·.itemMaps) fun _ => rfl,
    agree (·.childDirMaps) fun _ => rfl]
  rfl

theorem putFd_beneath (s : FileSystem) (fd : Int) : (s.putFd fd).beneath = s.beneath := by
  unfold putFd
  split <;> rfl

theorem getFd_beneath (s : FileSystem) : s.getFd.1.beneath = s.beneath := by
  unfold getFd
  split <;> rfl

variable [Crc32] {env : Env}

/-- A turn in which the open files stay what they are. -/
theorem Turn.still (same : s'.beneath = s.beneath) (opens : s'.openFiles = s.openFiles) :
    Turn env s s' := by
  refine .surface same fun fd f opened => .inl ⟨fd, ?_⟩
  rwa [openedFile, opens] at opened

theorem Turn.errno (e : Errno) : Turn env s { s with errno := e } := .still rfl rfl

/-- A file within reach is opened. -/
theorem openFd_turn (known : s.Accessible f) (flags : Nat) : Turn env s (s.openFd f flags).1 := by
  have drawn := getFd_beneath s
  have opens : s.getFd.1.openFiles = s.openFiles := by
    unfold getFd
    split <;> rfl
  unfold openFd
  split
  next u fd same =>
  rw [same] at drawn opens
  have linked := modifyFile_beneath u f (fun o => { o with nlink := o.nlink + 1 }) rfl rfl
  refine .surface (linked.trans drawn) fun x g opened => ?_
  obtain ⟨o, found, rfl⟩ := Option.map_eq_some_iff.mp opened
  rcases lookup_of_insert found with ⟨_, rfl⟩ | ⟨_, before⟩
  · exact known
  · rw [opens] at before
    exact .inl ⟨x, by rw [openedFile, before]; rfl⟩

/-- The file behind a descriptor is opened again under it, at another position. -/
theorem reopen_turn {fd : Nat} {o p : OpenFile} (opened : s.openedFile fd = some o.file)
    (same : p.file = o.file) : Turn env s { s with openFiles := s.openFiles.insert fd p } := by
  refine .surface rfl fun x g found => ?_
  obtain ⟨q, listed, rfl⟩ := Option.map_eq_some_iff.mp found
  rcases lookup_of_insert listed with ⟨_, rfl⟩ | ⟨_, before⟩
  · rw [same]
    exact .inl ⟨fd, opened⟩
  · exact .inl ⟨x, by rw [openedFile, before]; rfl⟩

end Surface

section Named
variable [Crc32] {s s' : FileSystem} {env : Env} {f : FilePtr} {r : Int}

/-- A file that was created has a name. -/
theorem createFile_named {path : Name} {tmpfile : Bool} {u : FileSystem}
    (result : s.createFile env path tmpfile = (u, some f)) : u.Accessible f := by
  have entered (dirname filename : Name) (made : s.createFileIn env dirname filename tmpfile = (u, some f)) :
      u.Accessible f := by
    unfold createFileIn at made
    split at made
    · simp at made
    · dsimp only at made
      split at made
      · simp at made
      · next v _ =>
        obtain ⟨rfl, same⟩ := Prod.mk.inj made
        obtain rfl := Option.some.inj same
        exact .inr ⟨_, AList.lookup_insert _⟩
  unfold createFile at result
  cases tmpfile with
  | true => exact entered _ _ result
  | false =>
    rw [if_neg Bool.false_ne_true] at result
    split at result
    · simp at result
    · exact entered _ _ result

/-- A file that is truncated keeps a name if it has one. -/
theorem ftruncate_named {n : Nat} (result : s.ftruncate env f n = .ok (s', r))
    (named : ∃ K, s.createdFiles.lookup K = some f) : ∃ K, s'.createdFiles.lookup K = some f := by
  have kept (same : s'.createdFiles = s.createdFiles) : ∃ K, s'.createdFiles.lookup K = some f := by
    rw [same]
    exact named
  unfold ftruncate at result
  split at result
  · exact kept (congrArg Registry.createdFiles (extendFile_registry result))
  · split at result
    swap
    · obtain ⟨rfl, _⟩ := Prod.mk.inj (Except.ok.inj result)
      exact named
    rcases shrinkFile_registry result with ⟨_, same⟩ | ⟨w, _, _, _, ⟨_, same⟩ | ⟨t, dir, _, _, _, same⟩⟩
    · exact kept (congrArg Registry.createdFiles same)
    · exact kept (show s'.createdFiles = s.createdFiles from congrArg Registry.createdFiles same)
    · -- The switch enters the file again, and nothing behind it touches the names.
      rw [show s'.createdFiles = (t.shrinkSwitch dir f w).createdFiles from
        congrArg Registry.createdFiles same]
      exact ⟨_, AList.lookup_insert _⟩

/-- A file that is truncated stays within reach. -/
theorem ftruncate_accessible {n : Nat} (result : s.ftruncate env f n = .ok (s', r))
    (known : s.Accessible f) : s'.Accessible f := by
  rcases known with ⟨fd, opened⟩ | named
  · have opens : s'.openFiles = s.openFiles := congrArg Outer.openFiles (ftruncate_outer result)
    exact .inl ⟨fd, by rw [openedFile, opens]; exact opened⟩
  · exact .inr (ftruncate_named result named)

end Named

section Calls
variable [Crc32] {s s' : FileSystem} {env : Env} {r : Int}

/-- Any number of turns. -/
abbrev Turns (env : Env) : FileSystem → FileSystem → Prop := Relation.ReflTransGen (Turn env)

theorem openTarget_turns {path : Name} {flags : Nat} {u : FileSystem} {target : Option FilePtr}
    (result : s.openTarget env path flags = .ok (u, target)) :
    Turns env s u ∧ ∀ f, target = some f → u.Accessible f := by
  have named (t : FileSystem) {f : FilePtr} (found : t.getCreatedFile path = .ok f) : t.Accessible f := by
    obtain ⟨dir, name, _, entry⟩ := getCreatedFile_ok found
    exact .inr ⟨_, entry⟩
  cases openTarget_targeted result with
  | refused e => exact ⟨.single (.errno e), nofun⟩
  | @taken e f found =>
    refine ⟨.single (.errno e), fun g same => ?_⟩
    obtain rfl := Option.some.inj same
    exact named { s with errno := e } found
  | @created e tmpfile u target made =>
    have turn := @Turn.created _ env { s with errno := e } path tmpfile
    rw [made] at turn
    refine ⟨(Relation.ReflTransGen.single (.errno e)).tail turn, fun f same => ?_⟩
    exact createFile_named (same ▸ made)
  | @truncated e f u r found cut =>
    have known := named { s with errno := e } found
    refine ⟨(Relation.ReflTransGen.single (.errno e)).tail (.truncated known cut), fun g same => ?_⟩
    split at same
    · simp at same
    · obtain rfl := Option.some.inj same
      exact ftruncate_accessible cut known

theorem close_turns (s : FileSystem) (env : Env) (fd : Nat) : Turns env s (s.close env fd).1 := by
  unfold close
  split
  · exact .single (.still rfl rfl)
  · next o found =>
    have opened : (s.modifyFile o.file fun f =>
        { f with locked := false, nlink := f.nlink - 1 }).openedFile fd = some o.file :=
      getOpenFile_ok found
    have unlocked : Turn env s (s.modifyFile o.file fun f =>
        { f with locked := false, nlink := f.nlink - 1 }) :=
      .still (modifyFile_beneath s o.file _ rfl rfl) rfl
    refine (Relation.ReflTransGen.single unlocked).trans ?_
    dsimp only
    generalize (s.modifyFile o.file fun f =>
      { f with locked := false, nlink := f.nlink - 1 }) = u at opened
    have last : Turns env u (u.closeLast env o.file) := by
      unfold closeLast
      split
      · next idle =>
        split
        · next temp => exact .single (.discarded opened idle (.inl temp))
        · split
          · next marked => exact .single (.discarded opened idle (.inr marked))
          · exact .refl
      · exact .refl
    refine last.tail (.surface ((putFd_beneath _ _).trans rfl) fun x g found => ?_)
    have erased : ({ u.closeLast env o.file with
        openFiles := (u.closeLast env o.file).openFiles.erase fd } : FileSystem).openedFile x = some g := by
      unfold putFd at found
      split at found <;> exact found
    obtain ⟨p, listed, rfl⟩ := Option.map_eq_some_iff.mp erased
    exact .inl ⟨x, by rw [openedFile, (lookup_of_erase listed).1]; rfl⟩

theorem pwrite_turns {fd size offset : Nat} {o : OpenFile} {buffer : Nat → UInt8}
    (opened : s.openedFile fd = some o.file)
    (result : s.pwrite env fd o buffer size offset = .ok (s', r)) : Turns env s s' := by
  cases pwrite_written result with
  | kept => exact .refl
  | failed grown => exact .single (.truncated (.inl ⟨fd, opened⟩) grown)
  | @written u grown data ret =>
    have before : Turns env s u ∧ u.openFiles = s.openFiles := by
      rcases grown with rfl | ⟨n, r, grown⟩
      · exact ⟨.refl, rfl⟩
      · exact ⟨.single (.truncated (.inl ⟨fd, opened⟩) grown),
          congrArg Outer.openFiles (ftruncate_outer grown)⟩
    have opened' : u.openedFile fd = some o.file := by rw [openedFile, before.2]; exact opened
    have stamped : Turns env u (u.stamped env o.file) ∧
        (u.stamped env o.file).openFiles = u.openFiles := by
      unfold stamped
      split
      · exact ⟨.single (.stamped (.inl ⟨fd, opened'⟩)), rfl⟩
      · exact ⟨.refl, rfl⟩
    have opened'' : ((u.stamped env o.file).stored data).openedFile fd = some o.file := by
      rw [openedFile, show ((u.stamped env o.file).stored data).openFiles = u.openFiles from stamped.2]
      exact opened'
    have stored : Turn env (u.stamped env o.file) ((u.stamped env o.file).stored data) := .still rfl rfl
    exact ((before.1.trans stamped.1).tail stored).tail (reopen_turn opened'' rfl)

theorem pread_turns {fd size offset : Nat} {o : OpenFile} {buffer back : Nat → UInt8}
    (opened : s.openedFile fd = some o.file)
    (result : s.pread fd o buffer size offset = .ok (s', back, r)) : Turns env s s' := by
  rcases pread_cases result with rfl | ⟨ret, rfl⟩
  · exact .refl
  · exact .single (reopen_turn opened rfl)

theorem renamePath_turns (s : FileSystem) (env : Env) (oldpath newpath : Name) : Turns env s (s.renamePath env oldpath newpath).1 := by
  unfold renamePath
  split
  · exact .single (.errno EINVAL)
  · split
    · exact .refl
    · next e _ =>
      refine (Relation.ReflTransGen.single (show Turn env s (s.storeErrno e) from .still rfl rfl)).trans ?_
      dsimp only
      generalize s.storeErrno e = u
      split
      · next f found => exact .single (.renamed found newpath)
      · next e' _ =>
        refine (Relation.ReflTransGen.single (show Turn env u (u.storeErrno e') from .still rfl rfl)).trans ?_
        split
        · exact .single (.errno ENOENT)
        · exact .single (.movedDirectory _ oldpath newpath)

theorem seekFile_turns (s : FileSystem) (env : Env) (fd : Nat) (offset : Int) (whence : Whence) :
    Turns env s (s.seekFile fd offset whence).1 := by
  unfold seekFile
  split
  · exact .single (.still rfl rfl)
  · next o found =>
    have opened := getOpenFile_ok found
    cases whence with
    | set => exact .single (reopen_turn opened rfl)
    | cur => exact .single (reopen_turn opened rfl)
    | endOfFile => exact .single (reopen_turn opened rfl)
    | other => exact .single (.errno EINVAL)

theorem fcntlFile_turns (s : FileSystem) (env : Env) (fd : Int) (lockType : LockType) : Turns env s (s.fcntlFile fd lockType).1 := by
  have locked (f : FilePtr) (b : Bool) : Turns env s (s.modifyFile f fun o => { o with locked := b }) :=
    .single (.still (modifyFile_beneath s f _ rfl rfl) rfl)
  unfold fcntlFile
  split
  · exact .single (.still rfl rfl)
  · next o _ =>
    have lock : Turns env s (if (s.files o.file).locked then ({ s with errno := EACCES }, (-1 : Int))
        else (s.modifyFile o.file fun f => { f with locked := true }, 0)).1 := by
      split
      · exact .single (.errno EACCES)
      · exact locked _ true
    cases lockType with
    | unlck =>
      dsimp only
      split
      · exact .single (.errno ENOLCK)
      · exact locked _ false
    | rdlck => exact lock
    | wrlck => exact lock
    | other => exact .refl

theorem openDirectory_turns (s : FileSystem) (env : Env) (path : Name) : Turns env s (s.openDirectory path).1 := by
  have drawn := getFd_beneath s
  have opens : s.getFd.1.openFiles = s.openFiles := by
    unfold getFd
    split <;> rfl
  unfold openDirectory
  split
  · exact .single (.errno _)
  · exact .single (.errno _)
  · next dir _ =>
    dsimp only
    split
    · exact .single (.still drawn opens)
    · exact .single (.still ((links_beneath s.getFd.1 dir _).trans drawn) opens)

theorem closeDirectory_turns (s : FileSystem) (env : Env) (stream : Nat) : Turns env s (s.closeDirectory stream).1 := by
  unfold closeDirectory
  split
  · exact .refl
  · next d _ =>
    have opens : (s.putFd d.fd).openFiles = s.openFiles := by
      unfold putFd
      split <;> rfl
    exact .single (.still ((links_beneath (s.putFd d.fd) d.dir _).trans (putFd_beneath s d.fd)) opens)

/-- Every call is a path of turns, so what the turns keep the calls keep. -/
theorem call_turns {op : Op} (result : s.call env op = .ok (s', r)) : Turns env s s' := by
  have named {path : Name} {f : FilePtr} (found : s.getCreatedFile path = .ok f) : s.Accessible f := by
    obtain ⟨dir, name, _, entry⟩ := getCreatedFile_ok found
    exact .inr ⟨_, entry⟩
  cases op with
  | createFile path =>
    have state : (s.createFilePath env path).1 = s' := congrArg Prod.fst (Except.ok.inj result)
    have made : (s.createFilePath env path).1 = (s.createFile env path false).1 := by
      unfold createFilePath
      split <;> next same => rw [same]
    rw [← state, made]
    exact .single (.created s path false)
  | openFile path flags =>
    obtain ⟨⟨u, target⟩, first, rest⟩ := Except.bind_eq_ok.mp result
    obtain ⟨turns, known⟩ := openTarget_turns first
    cases target with
    | none =>
      obtain ⟨rfl, _⟩ := Prod.mk.inj (Except.ok.inj rest)
      exact turns
    | some f =>
      have opened := @openFd_turn u f _ env (known f rfl) flags
      rw [congrArg Prod.fst (Except.ok.inj rest)] at opened
      exact turns.tail opened
  | close fd =>
    have closed := close_turns s env fd
    rwa [congrArg Prod.fst (Except.ok.inj result)] at closed
  | dup oldfd =>
    have state : (s.dup oldfd).1 = s' := congrArg Prod.fst (Except.ok.inj result)
    rw [← state]
    unfold dup
    split
    · exact .single (.still rfl rfl)
    · next o found => exact .single (openFd_turn (.inl ⟨_, getOpenFile_ok found⟩) 0)
  | unlink path =>
    have gone := @Turn.unlinked _ env s path
    rw [congrArg Prod.fst (Except.ok.inj result)] at gone
    exact .single gone
  | rename oldpath newpath =>
    have moved := renamePath_turns s env oldpath newpath
    rwa [congrArg Prod.fst (Except.ok.inj result)] at moved
  | truncatePath path size =>
    have cut : s.truncatePath env path size = .ok (s', r) := result
    unfold truncatePath at cut
    split at cut
    · obtain ⟨rfl, _⟩ := Prod.mk.inj (Except.ok.inj cut)
      exact .single (.errno ENOENT)
    · next f found => exact .single (.truncated (named found) cut)
  | truncateFd fd size =>
    have cut : s.truncateFd env fd size = .ok (s', r) := result
    unfold truncateFd at cut
    split at cut
    · obtain ⟨rfl, _⟩ := Prod.mk.inj (Except.ok.inj cut)
      exact .single (.errno ENOENT)
    · next o found => exact .single (.truncated (.inl ⟨_, getOpenFile_ok found⟩) cut)
  | pwrite fd buffer len offset =>
    have wrote : s.pwriteFile env fd buffer len offset = .ok (s', r) := result
    unfold pwriteFile at wrote
    split at wrote
    · obtain ⟨rfl, _⟩ := Prod.mk.inj (Except.ok.inj wrote)
      exact .single (.errno ENOENT)
    · next o found => exact pwrite_turns (getOpenFile_ok found) wrote
  | pread fd len offset =>
    obtain ⟨⟨u, back, n⟩, first, rest⟩ := Except.bind_eq_ok.mp result
    obtain ⟨rfl, _⟩ := Prod.mk.inj (Except.ok.inj rest)
    unfold preadFile at first
    split at first
    · obtain ⟨rfl, _⟩ := Prod.mk.inj (Except.ok.inj first)
      exact .single (.errno ENOENT)
    · next o found => exact pread_turns (getOpenFile_ok found) first
  | read fd len =>
    obtain ⟨⟨u, back, n⟩, first, rest⟩ := Except.bind_eq_ok.mp result
    obtain ⟨rfl, _⟩ := Prod.mk.inj (Except.ok.inj rest)
    unfold readFile at first
    split at first
    · obtain ⟨rfl, _⟩ := Prod.mk.inj (Except.ok.inj first)
      exact .single (.still rfl rfl)
    · next o found => exact pread_turns (getOpenFile_ok found) first
  | seek fd offset whence =>
    have moved := seekFile_turns s env fd offset whence
    rwa [congrArg Prod.fst (Except.ok.inj result)] at moved
  | fcntl fd lockType =>
    have locked := fcntlFile_turns s env fd lockType
    rwa [congrArg Prod.fst (Except.ok.inj result)] at locked
  | mkdir path => exact .single (.madeDirectory result)
  | rmdir path =>
    have gone := @Turn.droppedDirectory _ env s path
    rw [congrArg Prod.fst (Except.ok.inj result)] at gone
    exact .single gone
  | opendir path =>
    have opened := openDirectory_turns s env path
    unfold call at result
    dsimp only at result
    split at result
    · next u none =>
      obtain ⟨rfl, _⟩ := Prod.mk.inj (Except.ok.inj result)
      rwa [none] at opened
    · next u stream some_ =>
      obtain ⟨rfl, _⟩ := Prod.mk.inj (Except.ok.inj result)
      rwa [some_] at opened
  | readdir stream =>
    obtain ⟨⟨u, item⟩, first, rest⟩ := Except.bind_eq_ok.mp result
    obtain ⟨rfl, _⟩ := Prod.mk.inj (Except.ok.inj rest)
    exact .single (.readDirectory first)
  | closedir stream =>
    have closed := closeDirectory_turns s env stream
    rwa [congrArg Prod.fst (Except.ok.inj result)] at closed

end Calls

end BlockFs.FileSystem
