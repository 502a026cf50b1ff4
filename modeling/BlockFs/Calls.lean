import BlockFs.Coherent

namespace BlockFs.FileSystem

section Quiet
variable {s : FileSystem}

/-- A change of one file object that is not its slot, its item map or its link count. -/
theorem modifyFile_quiet (f : FilePtr) (g : File → File)
    (metaSlot : (g (s.files f)).metaSlot = (s.files f).metaSlot)
    (itemMaps : (g (s.files f)).itemMaps = (s.files f).itemMaps)
    (nlink : (g (s.files f)).nlink = (s.files f).nlink) : Quiet s (s.modifyFile f g) :=
  Relinked.quiet
    ⟨rfl, rfl, fun i => view_update s.files f i (·.metaSlot) metaSlot,
      fun i => view_update s.files f i (·.itemMaps) itemMaps⟩
    (fun _ => rfl) fun i => view_update s.files f i (·.nlink) nlink

/-- An open file takes another position. -/
theorem reposition_quiet {fd : Nat} {o : OpenFile} (opened : s.openedFile fd = some o.file)
    (pos : Nat) :
    Quiet s { s with openFiles := s.openFiles.insert fd { o with appendPos := pos } } := by
  refine Relinked.quiet ⟨rfl, rfl, fun _ => rfl, fun _ => rfl⟩ (fun x => ?_) fun _ => rfl
  rw [openedFile, openedFile, openedFile_insert]
  split
  · next here => rw [here]; exact opened.symm
  · rfl

theorem updateTimeStamp_quiet [Crc32] (f : FilePtr) (now : Int) :
    Quiet s (s.updateTimeStamp f now) := by
  have blind {α : Type} (view : FileMeta → α)
      (same : view ({ s.fileMeta f with mtime := now, ctime := now } : FileMeta).sealed =
        view (s.fileMeta f)) (i : Nat) :
      view ((s.updateTimeStamp f now).fileMetas i) = view (s.fileMetas i) :=
    view_update s.fileMetas (s.files f).metaSlot i view same
  exact
    { resources :=
        { layout := ⟨rfl, rfl, rfl, rfl⟩
          nextFile := rfl
          freeFhs := rfl
          freeFbhs := rfl
          blockIdPool := rfl
          fileBlockMetas := rfl
          metaSlot := fun _ => rfl
          itemMaps := fun _ => rfl
          fh := blind (·.fh) rfl
          size := blind (·.size) rfl
          used := blind (·.used) rfl
          isTemp := blind (·.isTemp) rfl }
      data := rfl
      createdFhs := rfl
      createdFiles := rfl
      opened := fun _ => rfl
      nlink := fun _ => rfl
      dh := blind (·.dh) rfl
      fileName := blind (·.fileName) rfl }

theorem getOpenFile_ok {fd : Nat} {o : OpenFile} (found : s.getOpenFile fd = .ok o) :
    s.openedFile fd = some o.file := by
  rw [getOpenFile] at found
  split at found
  · simp at found
  · next there => rw [openedFile, there, ← Except.ok.inj found]; rfl

theorem getOpenFile_error {fd : Nat} {e : Option Errno} (missing : s.getOpenFile fd = .error e) :
    s.openedFile fd = none := by
  rw [getOpenFile] at missing
  split at missing
  · next absent => rw [openedFile, absent]; rfl
  · simp at missing

end Quiet

/-- The truncation a call asks for: the file and the length. -/
def ftruncateCall (s : FileSystem) : Op → Option (FilePtr × Nat)
  | .openFile path flags =>
    match isNeedCreateTempFile flags, s.getCreatedDirectory path, s.getCreatedFile path with
    | (_, false), .error _, .ok f =>
      if (verifyOpenExistFileFlag flags).isNone && truncatesOnOpen flags then some (f, 0) else none
    | _, _, _ => none
  | .truncatePath path size =>
    match s.getCreatedFile path with
    | .ok f => some (f, toU64 size)
    | .error _ => none
  | .truncateFd fd size => (s.openedFile (toU64 fd)).map fun f => (f, toU64 size)
  | .pwrite fd _ len offset =>
    match s.openedFile fd with
    | none => none
    | some f =>
      if len ≠ 0 ∧ (s.fileMeta f).size < (toU64 offset + len) % 2 ^ 64 then
        some (f, (toU64 offset + len) % 2 ^ 64)
      else none
  | _ => none

/-- The call enters a file under a name that another file has: the name generated for a temporary
file is taken, or the target of a rename is a path no file can be looked up by, whose stored form is
taken. -/
def Collides (s : FileSystem) : Op → Prop
  | .openFile path flags => (isNeedCreateTempFile flags).2 = true ∧
      ∃ K g, s.newKey path [] true = some K ∧ s.createdFiles.lookup K = some g
  | .rename oldpath newpath => ∃ f dir g, (∀ h, s.getCreatedFile newpath ≠ .ok h) ∧
      s.getCreatedFile oldpath = .ok f ∧ s.getCreatedDirectory (getDirName newpath) = .ok dir ∧
      s.createdFiles.lookup ((s.dirMeta dir).dh,
        (getFileName newpath).take kBlockFsMaxFileNameLen) = some g ∧ g ≠ f
  | _ => False

/-- A state whose device holds other data. -/
def stored (s : FileSystem) (data : Nat → UInt8) : FileSystem :=
  { s with disk := { s.disk with data := data } }

/-- How a call on a coherent file system ends that does not stop the process: with changes that do
not concern contents, with such changes behind a truncation, or with a write. -/
inductive Outcome [Crc32] (s : FileSystem) (env : Env) (op : Op) : FileSystem → Int → Prop
  | plain {s' r} (calm : s.ftruncateCall op = none)
    (path : Relation.ReflTransGen (Change (s.Collides op)) s s') : Outcome s env op s' r
  | truncated {f n t u s' r' r} (call : s.ftruncateCall op = some (f, n)) (same : SameSides s t)
    (known : t.Accessible f) (truncation : Truncation t env f n u r')
    (path : Relation.ReflTransGen (Change (s.Collides op)) u s') (failed : r' < 0 → s' = u ∧ r = -1) :
    Outcome s env op s' r
  | wrote {fd buffer len offset f b blocks t u data r} (pwrite : op = .pwrite fd buffer len offset)
    (opened : s.openedFile fd = some f) (positive : 0 < len)
    (grown : (s.ftruncateCall op = none ∧ t = s) ∨
      ∃ n, s.ftruncateCall op = some (f, n) ∧ Truncation s env f n t 0)
    (item : (t.files f).itemMaps.lookup 0 = some b)
    (planned : planTransfer t.superMeta (t.fileBlockMetas b) len (toU64 offset) = .ok blocks)
    (moved : writeBlocks buffer blocks t.disk = .ok ({ t.disk with data := data }, r))
    (quiet : Quiet t u) (homes : u.dirSide = t.dirSide) : Outcome s env op (u.stored data) r

/-- How a write ends that does not stop the process: refused, given up when the file could not grow,
or with the bytes on the device. -/
inductive PwriteOutcome [Crc32] (s : FileSystem) (env : Env) (fd : Nat)
    (buffer : Nat → UInt8) (len : Nat) (offset : Int) : FileSystem → Int → Prop
  | refused {s' r} (calm : s.ftruncateCall (.pwrite fd buffer len offset) = none)
    (same : SameSides s s') (nothing : r = -1 ∨ len = 0) : PwriteOutcome s env fd buffer len offset s' r
  | stuck {f n s'} (call : s.ftruncateCall (.pwrite fd buffer len offset) = some (f, n))
    (known : s.Accessible f) (truncation : Truncation s env f n s' (-1)) :
    PwriteOutcome s env fd buffer len offset s' (-1)
  | wrote {f b blocks t u data r} (opened : s.openedFile fd = some f) (positive : 0 < len)
    (grown : (s.ftruncateCall (.pwrite fd buffer len offset) = none ∧ t = s) ∨
      ∃ n, s.ftruncateCall (.pwrite fd buffer len offset) = some (f, n) ∧ Truncation s env f n t 0)
    (item : (t.files f).itemMaps.lookup 0 = some b)
    (planned : planTransfer t.superMeta (t.fileBlockMetas b) len (toU64 offset) = .ok blocks)
    (moved : writeBlocks buffer blocks t.disk = .ok ({ t.disk with data := data }, r))
    (quiet : Quiet t u) (homes : u.dirSide = t.dirSide) :
    PwriteOutcome s env fd buffer len offset (u.stored data) r

section Plain
variable [Crc32] {s s' : FileSystem} {env : Env} {lost : Lost} {collides : Prop}

/-- A step on which neither the files nor the directories depend. -/
theorem SameSides.change (same : SameSides s s') (housed : Housed s) : Change collides s s' :=
  .quiet (.of_fileSide same.fileSide) (housed.of_dirSide same.dirSide)

theorem SameSides.coherent (same : SameSides s s') (coherent : Coherent s lost) :
    Coherent s' lost :=
  (Quiet.of_fileSide same.fileSide).coherent coherent (coherent.housed.of_dirSide same.dirSide)

omit [Crc32] in
theorem SameSides.narrow (same : SameSides s s') {f : FilePtr} {n : Nat} :
    s'.Narrow f n ↔ s.Narrow f n := by
  have super : s'.superMeta = s.superMeta := congrArg FileSide.superMeta same.fileSide
  have metas : s'.fileMetas = s.fileMetas := congrArg FileSide.fileMetas same.fileSide
  have files : s'.files = s.files := congrArg FileSide.files same.fileSide
  rw [Narrow, Narrow, fileMeta, fileMeta, super, metas, files]

omit [Crc32] in
theorem SameSides.createdFiles (same : SameSides s s') : s'.createdFiles = s.createdFiles :=
  congrArg FileSide.createdFiles same.fileSide

omit [Crc32] in
theorem SameSides.newKey (same : SameSides s s') (dirname filename : Name) (tmpfile : Bool) :
    s'.newKey dirname filename tmpfile = s.newKey dirname filename tmpfile := by
  have dirs : s'.createdDirs = s.createdDirs := congrArg DirSide.createdDirs same.dirSide
  have objects : s'.directories = s.directories := congrArg DirSide.directories same.dirSide
  have metas : s'.dirMetas = s.dirMetas := congrArg DirSide.dirMetas same.dirSide
  have free : s'.freeFhs = s.freeFhs := congrArg FileSide.freeFhs same.fileSide
  rw [FileSystem.newKey, FileSystem.newKey, free, getCreatedDirectory, getCreatedDirectory, dirs]
  simp only [dirMeta, objects, metas]

omit [Crc32] in
theorem SameSides.accessible (same : SameSides s s') {f : FilePtr} :
    s'.Accessible f ↔ s.Accessible f :=
  (Quiet.of_fileSide same.fileSide).sameIndex.accessible

omit [Crc32] in
theorem transformPath_short {filename dirname name : Name}
    (parts : FileHandle.transformPath filename = .ok (dirname, name)) :
    name.length ≤ kBlockFsMaxFileNameLen := by
  rw [FileHandle.transformPath] at parts
  split at parts
  · simp at parts
  · split at parts
    · simp at parts
    · next short =>
      obtain ⟨_, rfl⟩ := Prod.mk.inj (Except.ok.inj parts)
      omega

omit [Crc32] in
theorem newKey_name {dirname filename : Name} {K : Nat × Name}
    (key : s.newKey dirname filename false = some K) :
    K.2 = filename.take kBlockFsMaxFileNameLen := by
  unfold newKey at key
  split at key
  · rw [← Option.some.inj key]
    rfl
  · simp at key

theorem createFile_cases (clean : CleanFhs s) (ok : env.IoOk) (filename : Name)
    (tmpfile : Bool) :
    (∃ t, s.createFile env filename tmpfile = (t, none) ∧ SameSides s t) ∨
    ∃ t x rest m, s.createFile env filename tmpfile = (t, some s.nextFile) ∧
      Created s t x rest m ∧ (tmpfile = true → s.newKey filename [] true = some (m.dh, m.fileName)) ∧
      (tmpfile = false → s.createdFiles.lookup (m.dh, m.fileName) = none) := by
  unfold createFile
  cases tmpfile with
  | true =>
    rw [if_pos rfl]
    rcases createFileIn_cases clean ok filename [] true with
      ⟨e, refused⟩ | ⟨t, x, rest, m, done, created, key, _⟩
    · exact .inl ⟨_, refused, rfl, rfl⟩
    · exact .inr ⟨t, x, rest, m, done, created, fun _ => key, nofun⟩
  | false =>
    rw [if_neg Bool.false_ne_true]
    cases parts : FileHandle.transformPath filename with
    | error e => exact .inl ⟨_, rfl, rfl, rfl⟩
    | ok result =>
      obtain ⟨dirname, name⟩ := result
      dsimp only
      rcases createFileIn_cases clean ok dirname name false with
        ⟨e, refused⟩ | ⟨t, x, rest, m, done, created, key, vacant⟩
      · exact .inl ⟨_, refused, rfl, rfl⟩
      · refine .inr ⟨t, x, rest, m, done, created, nofun, fun _ => ?_⟩
        -- A name that passes the length check is stored in full.
        have stored : m.fileName = name :=
          (newKey_name key).trans (List.take_of_length_le (transformPath_short parts))
        rw [stored]
        exact vacant rfl

theorem createFile_changes (coherent : Coherent s lost) (ok : env.IoOk) (filename : Name)
    (tmpfile : Bool) (fair : ¬collides → tmpfile = true → ∀ K, s.newKey filename [] true = some K →
      s.createdFiles.lookup K = none) : Change collides s (s.createFile env filename tmpfile).1 := by
  rcases createFile_cases coherent.consistent.clean ok filename tmpfile with
    ⟨t, refused, same⟩ | ⟨t, x, rest, m, done, created, key, vacant⟩
  · rw [refused]
    exact same.change coherent.housed
  · rw [done]
    refine .created created fun apart => ?_
    cases tmpfile with
    | true => exact fair apart rfl _ (key rfl)
    | false => exact vacant rfl

theorem createFilePath_change (coherent : Coherent s lost) (ok : env.IoOk) (path : Name) :
    Change collides s (s.createFilePath env path).1 := by
  have change : Change collides s (s.createFile env path false).1 :=
    createFile_changes coherent ok path false nofun
  unfold createFilePath
  cases made : s.createFile env path false with
  | mk t target =>
    rw [made] at change
    cases target <;> exact change

omit [Crc32] in
theorem Coherent.home [Crc32] (coherent : Coherent s lost) {dir : DirectoryPtr} {name : Name}
    {f : FilePtr} (leads : s.Leads dir)
    (entry : s.createdFiles.lookup ((s.dirMeta dir).dh, name) = some f) : s.IsHome dir f := by
  obtain ⟨path, found⟩ := leads
  have same := (coherent.registered.names _ f entry).1
  refine ⟨coherent.housed.paths path dir found, ?_⟩
  rw [← coherent.housed.dirMeta_dh]
  exact congrArg Prod.fst same

theorem unlink_change (coherent : Coherent s lost) (ok : env.IoOk) (filename : Name) :
    Change collides s (s.unlink env filename).1 := by
  rcases unlink_cases coherent.consistent ok (fun _ _ => coherent.registered.entered) filename with
    same | ⟨K, f, _, _, same⟩ | ⟨dir, name, f, leads, entry, idle, removed⟩
  · exact same.change coherent.housed
  · have marked : Quiet s (s.modifyFile f fun o => { o with deleted := true }) :=
      modifyFile_quiet f _ rfl rfl rfl
    exact .quiet (marked.trans (.of_fileSide same.fileSide))
      (coherent.housed.of_dirSide same.dirSide)
  · exact .removed (coherent.registered.names _ f entry).2 idle (coherent.home leads entry) removed

theorem close_changes (coherent : Coherent s lost) (ok : env.IoOk) (fd : Nat) :
    Relation.ReflTransGen (Change collides) s (s.close env fd).1 := by
  rcases close_cases coherent.consistent coherent.registered ok fd with
    ⟨_, same⟩ | ⟨f, t, found, closed, ⟨quiet, dirSide⟩ | ⟨dir, home, idle, removed⟩⟩
  · exact .single (same.change coherent.housed)
  · have change : Change collides s t := .closed found closed
    exact (Relation.ReflTransGen.single change).tail
      (.quiet quiet ((change.coherent coherent).housed.of_dirSide dirSide))
  · have change : Change collides s t := .closed found closed
    have after := change.coherent coherent
    have here : t.IsRegistered f :=
      (closed.toRelinked.isRegistered f).mpr (coherent.registered.opens fd f found)
    have dh : (t.fileMeta f).dh = (s.fileMeta f).dh := key_dh (closed.toRelinked.key_eq f)
    have handles : t.createdDhs = s.createdDhs :=
      congrArg DirSide.createdDhs closed.toRelinked.dirSide
    obtain ⟨known, slot⟩ := after.housed.handles (t.fileMeta f).dh dir (by rw [dh, handles, home])
    exact (Relation.ReflTransGen.single change).tail (.removed here idle ⟨known, slot⟩ removed)

theorem dup_change (coherent : Coherent s lost) (oldfd : Int) : Change collides s (s.dup oldfd).1 := by
  unfold dup
  cases found : s.getOpenFile (toU64 oldfd) with
  | error e => exact SameSides.change ⟨rfl, rfl⟩ coherent.housed
  | ok o =>
    obtain ⟨fd, opened, _⟩ := openFd_opened s o.file 0
    exact .opened (.inl ⟨_, getOpenFile_ok found⟩) opened

theorem renamePath_changes (coherent : Coherent s lost) (ok : env.IoOk) (oldpath newpath : Name) :
    Relation.ReflTransGen (Change (s.Collides (.rename oldpath newpath))) s
      (s.renamePath env oldpath newpath).1 := by
  have noted (u : FileSystem) (housed : Housed u) (e : Option Errno) :
      Change (s.Collides (.rename oldpath newpath)) u (u.storeErrno e) :=
    SameSides.change ⟨rfl, rfl⟩ housed
  unfold renamePath
  split
  · exact .single (noted s coherent.housed (some EINVAL))
  · cases absent : s.getCreatedFile newpath with
    | ok g => exact .refl
    | error e =>
      have fair (f : FilePtr) (dir : DirectoryPtr) (found : s.getCreatedFile oldpath = .ok f)
          (target : s.getCreatedDirectory (getDirName newpath) = .ok dir)
          (apart : ¬s.Collides (.rename oldpath newpath)) (g : FilePtr)
          (taken : s.createdFiles.lookup ((s.dirMeta dir).dh,
            (getFileName newpath).take kBlockFsMaxFileNameLen) = some g) : g = f := by
        by_contra other
        exact apart ⟨f, dir, g, fun h => by rw [absent]; exact nofun, found, target, taken, other⟩
      have first := noted s coherent.housed e
      have coherent' := first.coherent coherent
      refine (Relation.ReflTransGen.single first).trans ?_
      dsimp only
      cases found : (s.storeErrno e).getCreatedFile oldpath with
      | ok f =>
        obtain ⟨dir, name, leads, entry⟩ := getCreatedFile_ok found
        have named := (coherent'.registered.names _ f entry).1
        dsimp only
        rcases fileRename_cases coherent'.consistent.slots
            (coherent'.registered.names _ f entry).2 ok (named ▸ entry)
          newpath with ⟨e', refused, _⟩ | ⟨newDir, m, target, key, renamed⟩
        · rw [refused]
          exact .single (noted _ coherent'.housed e')
        · refine .single (.renamed (.inr ⟨_, entry⟩) renamed fun apart g taken => ?_)
          rw [key] at taken
          exact fair f newDir found target apart g taken
      | error e' =>
        have second := noted (s.storeErrno e) coherent'.housed e'
        refine (Relation.ReflTransGen.single second).trans ?_
        have housed := (second.coherent coherent').housed
        dsimp only
        generalize (s.storeErrno e).storeErrno e' = u at housed ⊢
        cases u.getCreatedDirectory oldpath with
        | error _ => exact .single (noted u housed (some ENOENT))
        | ok dir =>
          exact .single (.quiet (.of_fileSide (renameDirectory_fileSide u env oldpath newpath))
            (housed.renameDirectory env oldpath newpath))

end Plain

section Truncating
variable [Crc32] {s t s' : FileSystem} {env : Env} {lost : Lost} {f : FilePtr} {n : Nat} {r : Int}

theorem Truncation.result (truncation : Truncation s env f n s' r) : r = 0 ∨ r = -1 := by
  cases truncation with
  | grow _ extension => cases extension <;> simp
  | shrink _ _ shrinkage => cases shrinkage <;> simp
  | keep => exact .inl rfl

theorem Truncation.openedFile (coherent : Coherent s lost) (bound : f < s.nextFile)
    (truncation : Truncation s env f n s' r) (fd : Nat) : s'.openedFile fd = s.openedFile fd := by
  cases truncation with
  | grow _ extension => exact extension.sameIndex.opened fd
  | shrink shrinks entries shrinkage =>
    rcases shrinkage.outcome coherent.consistent bound entries shrinks with
      ⟨_, same⟩ | ⟨_, shifted⟩
    · exact same.sameIndex.opened fd
    · exact shifted.reentered.opened fd
  | keep => rfl

/-- A truncated file stays within reach. -/
theorem Truncation.accessible (coherent : Coherent s lost) (known : s.Accessible f)
    (truncation : Truncation s env f n s' r) : s'.Accessible f := by
  have bound := coherent.registered.bound (known.registered coherent.registered)
  cases truncation with
  | grow _ extension => exact extension.sameIndex.accessible.mpr known
  | shrink shrinks entries shrinkage =>
    rcases shrinkage.outcome coherent.consistent bound entries shrinks with ⟨_, same⟩ | ⟨_, shifted⟩
    · exact same.sameIndex.accessible.mpr known
    · obtain ⟨names, _, into⟩ := shifted.reentered.createdFiles
      exact .inr ⟨s'.key f, by rw [into]; exact AList.lookup_insert _⟩
  | keep => exact known

/-- A truncation of a registered file, entered from a state that differs from `s` in nothing a file
depends on. -/
theorem ftruncate_of_same (coherent : Coherent s lost) (ok : env.IoOk) (same : SameSides s t)
    (known : s.Accessible f) (narrow : s.Narrow f n) :
    ∃ u r, t.ftruncate env f n = .ok (u, r) ∧ t.Accessible f ∧ Truncation t env f n u r := by
  have coherent' := same.coherent coherent
  have known' := same.accessible.mpr known
  have here := known'.registered coherent'.registered
  obtain ⟨u, r, result, truncation⟩ := ftruncate_cases coherent'.consistent ok
    (coherent'.registered.bound here) (same.narrow.mpr narrow)
  exact ⟨u, r, result, known', truncation⟩

omit [Crc32] in
theorem getCreatedFile_accessible {filename : Name} (found : s.getCreatedFile filename = .ok f) :
    s.Accessible f := by
  obtain ⟨dir, name, _, entry⟩ := getCreatedFile_ok found
  exact .inr ⟨_, entry⟩

omit [Crc32] in
theorem openTarget_directory [Crc32] (env : Env) {path : Name} {flags : Nat} {e : Option Errno}
    {dir : DirectoryPtr} (needed : isNeedCreateTempFile flags = (e, false))
    (directory : s.getCreatedDirectory path = .ok dir) :
    s.openTarget env path flags = .ok ({ s.storeErrno e with errno := EISDIR }, none) := by
  have directory' : (s.storeErrno e).getCreatedDirectory path = .ok dir := directory
  rw [openTarget, needed]
  simp only [Bool.false_eq_true, if_false, directory']

omit [Crc32] in
/-- Behind the checks an open looks for the file. -/
theorem openTarget_search [Crc32] (env : Env) {path : Name} {flags : Nat} {e e' : Option Errno}
    (needed : isNeedCreateTempFile flags = (e, false))
    (directory : s.getCreatedDirectory path = .error e') :
    s.openTarget env path flags =
      match s.getCreatedFile path with
      | .error e'' =>
        if hasFlag flags O_CREAT then
          .ok ((((s.storeErrno e).storeErrno e').storeErrno e'').createFile env path false)
        else .ok ({ ((s.storeErrno e).storeErrno e').storeErrno e'' with errno := ENOENT }, none)
      | .ok f =>
        match verifyOpenExistFileFlag flags with
        | some e'' => .ok ({ (s.storeErrno e).storeErrno e' with errno := e'' }, none)
        | none =>
          if truncatesOnOpen flags then do
            let (v, ret) ← ((s.storeErrno e).storeErrno e').ftruncate env f 0
            if ret < 0 then .ok (v, none) else .ok (v, some f)
          else .ok ((s.storeErrno e).storeErrno e', some f) := by
  have directory' : (s.storeErrno e).getCreatedDirectory path = .error e' := directory
  rw [openTarget, needed]
  simp only [Bool.false_eq_true, if_false, directory']
  rfl

/-- What the first half of an open leaves behind: nothing to open, a file that was there, a new
file, or a file cut to length 0. -/
theorem openTarget_cases (coherent : Coherent s lost) (ok : env.IoOk) (path : Name) (flags : Nat)
    (narrow : ∀ f n, s.ftruncateCall (.openFile path flags) = some (f, n) → s.Narrow f n) :
    (s.ftruncateCall (.openFile path flags) = none ∧ ∃ u target,
      s.openTarget env path flags = .ok (u, target) ∧
        Relation.ReflTransGen (Change (s.Collides (.openFile path flags))) s u ∧
        ∀ f, target = some f → u.Accessible f) ∨
    ∃ f t u r, s.ftruncateCall (.openFile path flags) = some (f, 0) ∧ SameSides s t ∧
      t.Accessible f ∧ Truncation t env f 0 u r ∧
      s.openTarget env path flags = .ok (u, if r < 0 then none else some f) := by
  have created (u : FileSystem) (same : SameSides s u) (tmpfile : Bool)
      (temp : tmpfile = true → (isNeedCreateTempFile flags).2 = true) :
      Relation.ReflTransGen (Change (s.Collides (.openFile path flags))) s
          (u.createFile env path tmpfile).1 ∧
        ∀ f, (u.createFile env path tmpfile).2 = some f →
          (u.createFile env path tmpfile).1.Accessible f := by
    have coherent' := same.coherent coherent
    refine ⟨(Relation.ReflTransGen.single (same.change coherent.housed)).tail
      (createFile_changes coherent' ok path tmpfile fun apart isTemp K key => ?_), fun f made => ?_⟩
    · rw [same.createdFiles]
      rw [same.newKey] at key
      cases taken : s.createdFiles.lookup K with
      | none => rfl
      | some g => exact absurd ⟨temp isTemp, K, g, key, taken⟩ apart
    rcases createFile_cases coherent'.consistent.clean ok path tmpfile with
      ⟨v, refused, _⟩ | ⟨v, x, rest, m, done, created, _⟩
    · simp [refused] at made
    · rw [done] at made ⊢
      obtain rfl : u.nextFile = f := Option.some.inj made
      refine .inr ⟨(m.dh, m.fileName), ?_⟩
      rw [created.createdFiles]
      exact AList.lookup_insert _
  have stay (u : FileSystem) (same : SameSides s u) :
      Relation.ReflTransGen (Change (s.Collides (.openFile path flags))) s u :=
    .single (same.change coherent.housed)
  cases needed : isNeedCreateTempFile flags with
  | mk e tmpfile =>
    cases tmpfile with
    | true =>
      obtain ⟨path', registered⟩ := created (s.storeErrno e) ⟨rfl, rfl⟩ true fun _ => by rw [needed]
      exact .inl ⟨by simp only [ftruncateCall, needed], _, _, by rw [openTarget, needed]; rfl, path',
        registered⟩
    | false =>
      cases directory : s.getCreatedDirectory path with
      | ok dir =>
        have result := openTarget_directory (s := s) env needed directory
        exact .inl ⟨by simp only [ftruncateCall, needed, directory], _, none, result,
          stay _ ⟨rfl, rfl⟩, nofun⟩
      | error e' =>
        have result := openTarget_search (s := s) env needed directory
        have same : SameSides s ((s.storeErrno e).storeErrno e') := ⟨rfl, rfl⟩
        generalize (s.storeErrno e).storeErrno e' = u at result same
        have noted (e'' : Option Errno) : SameSides s (u.storeErrno e'') :=
          same.trans ⟨rfl, rfl⟩
        rw [result]
        cases found : s.getCreatedFile path with
        | error e'' =>
          have calm : s.ftruncateCall (.openFile path flags) = none := by
            simp only [ftruncateCall, needed, directory, found]
          dsimp only
          split
          · obtain ⟨path', registered⟩ := created (u.storeErrno e'') (noted e'') false nofun
            exact .inl ⟨calm, _, _, rfl, path', registered⟩
          · exact .inl ⟨calm, _, none, rfl, stay _ ((noted e'').trans ⟨rfl, rfl⟩), nofun⟩
        | ok f =>
          have here := getCreatedFile_accessible found
          have call : s.ftruncateCall (.openFile path flags) =
              if (verifyOpenExistFileFlag flags).isNone && truncatesOnOpen flags then some (f, 0)
              else none := by
            simp only [ftruncateCall, needed, directory, found]
          dsimp only
          cases verified : verifyOpenExistFileFlag flags with
          | some e'' =>
            exact .inl ⟨by rw [call, verified]; rfl, _, none, rfl, stay _ (same.trans ⟨rfl, rfl⟩),
              nofun⟩
          | none =>
            rw [verified] at call
            dsimp only
            cases cuts : truncatesOnOpen flags with
            | false =>
              rw [cuts] at call
              refine .inl ⟨call, u, some f, rfl, stay u same, fun g picked => ?_⟩
              exact same.accessible.mpr (Option.some.inj picked ▸ here)
            | true =>
              rw [cuts] at call
              obtain ⟨v, r, run, here', truncation⟩ :=
                ftruncate_of_same coherent ok same here (narrow f 0 call)
              refine .inr ⟨f, u, v, r, call, same, here', truncation, ?_⟩
              rw [if_pos rfl, run]
              simp only [Except.ok_bind]
              split <;> rfl

end Truncating

section Outcomes
variable [Crc32] {s s' : FileSystem} {env : Env} {lost : Lost} {op : Op} {r : Int} {collides : Prop}

/-- The truncation a call makes needs no more blocks than 32 bits can count. -/
def NarrowCall (s : FileSystem) (op : Op) : Prop :=
  ∀ f n, s.ftruncateCall op = some (f, n) → s.Narrow f n

theorem openFile_outcome (coherent : Coherent s lost) (ok : env.IoOk) {path : Name} {flags : Nat}
    (narrow : s.NarrowCall (.openFile path flags))
    (result : s.openFile env path flags = .ok (s', r)) :
    Outcome s env (.openFile path flags) s' r := by
  have opened (u : FileSystem) (f : FilePtr) (here : u.Accessible f) :
      Change (s.Collides (.openFile path flags)) u (u.openFd f flags).1 := by
    obtain ⟨fd, opened, _⟩ := openFd_opened u f flags
    exact .opened here opened
  rcases openTarget_cases coherent ok path flags narrow with
    ⟨calm, u, target, run, path', registered⟩ | ⟨f, t, u, r', call, same, here, truncation, run⟩
  · refine .plain calm ?_
    rw [openFile, run] at result
    cases target with
    | none =>
      obtain ⟨rfl, _⟩ := Prod.mk.inj (Except.ok.inj result)
      exact path'
    | some f =>
      obtain ⟨rfl, _⟩ := Prod.mk.inj (Except.ok.inj result)
      exact path'.tail (opened u f (registered f rfl))
  · rw [openFile, run] at result
    by_cases failed : r' < 0
    · rw [if_pos failed] at result
      obtain ⟨rfl, rfl⟩ := Prod.mk.inj (Except.ok.inj result)
      exact .truncated call same here truncation .refl fun _ => ⟨rfl, rfl⟩
    · rw [if_neg failed] at result
      obtain ⟨rfl, _⟩ := Prod.mk.inj (Except.ok.inj result)
      refine .truncated call same here truncation (.single (opened u f ?_)) fun less =>
        absurd less failed
      exact truncation.accessible (same.coherent coherent) here

omit [Crc32] in
theorem pwriteCache_data (d : Disk) (buffer : Nat → UInt8) (start len offset : Nat) :
    ∃ data n, d.pwriteCache buffer start len offset = ({ d with data := data }, n) := by
  unfold Disk.pwriteCache
  split
  · exact ⟨d.data, _, rfl⟩
  · exact ⟨_, _, rfl⟩

omit [Crc32] in
theorem writeBlocks_data {buffer : Nat → UInt8} {blocks : List BlockData} {d d' : Disk} {n : Int}
    (moved : writeBlocks buffer blocks d = .ok (d', n)) : ∃ data, d' = { d with data := data } := by
  induction blocks generalizing d d' n with
  | nil => exact ⟨d.data, (Prod.mk.inj (Except.ok.inj moved)).1.symm⟩
  | cons block blocks ih =>
    obtain ⟨data, k, cached⟩ :=
      pwriteCache_data d buffer block.bufferOffset block.size block.devOffset
    rw [writeBlocks, cached] at moved
    dsimp only at moved
    split at moved
    · simp at moved
    · split at moved
      · exact ⟨data, (Prod.mk.inj (Except.ok.inj moved)).1.symm⟩
      · obtain ⟨⟨e, m⟩, rest, done⟩ := Except.bind_eq_ok.mp moved
        obtain ⟨data', rfl⟩ := ih rest
        exact ⟨data', (Prod.mk.inj (Except.ok.inj done)).1.symm⟩

/-- A truncating call that ends with its truncation. -/
theorem Outcome.of_truncation {f : FilePtr} {n : Nat} (call : s.ftruncateCall op = some (f, n))
    (here : s.Accessible f) (truncation : Truncation s env f n s' r) : Outcome s env op s' r := by
  refine .truncated call ⟨rfl, rfl⟩ here truncation .refl fun failed => ⟨rfl, ?_⟩
  rcases truncation.result with rfl | rfl
  · exact absurd failed (by decide)
  · rfl

theorem truncatePath_outcome (coherent : Coherent s lost) (ok : env.IoOk) {path : Name} {size : Int}
    (narrow : s.NarrowCall (.truncatePath path size))
    (result : s.truncatePath env path size = .ok (s', r)) :
    Outcome s env (.truncatePath path size) s' r := by
  unfold truncatePath at result
  cases found : s.getCreatedFile path with
  | error e =>
    rw [found] at result
    obtain ⟨rfl, _⟩ := Prod.mk.inj (Except.ok.inj result)
    exact .plain (by simp only [ftruncateCall, found]) (.single
      (SameSides.change ⟨rfl, rfl⟩ coherent.housed))
  | ok f =>
    rw [found] at result
    have here := getCreatedFile_accessible found
    have call : s.ftruncateCall (.truncatePath path size) = some (f, toU64 size) := by
      simp only [ftruncateCall, found]
    obtain ⟨u, r', run, _, truncation⟩ :=
      ftruncate_of_same coherent ok ⟨rfl, rfl⟩ here (narrow f _ call)
    dsimp only at result
    rw [run] at result
    obtain ⟨rfl, rfl⟩ := Prod.mk.inj (Except.ok.inj result)
    exact .of_truncation call here truncation

theorem truncateFd_outcome (coherent : Coherent s lost) (ok : env.IoOk) {fd size : Int}
    (narrow : s.NarrowCall (.truncateFd fd size))
    (result : s.truncateFd env fd size = .ok (s', r)) :
    Outcome s env (.truncateFd fd size) s' r := by
  unfold truncateFd at result
  cases found : s.getOpenFile (toU64 fd) with
  | error e =>
    rw [found] at result
    obtain ⟨rfl, _⟩ := Prod.mk.inj (Except.ok.inj result)
    refine .plain ?_ (.single (SameSides.change ⟨rfl, rfl⟩ coherent.housed))
    rw [ftruncateCall, getOpenFile_error found]
    rfl
  | ok o =>
    rw [found] at result
    have opened := getOpenFile_ok found
    have here : s.Accessible o.file := .inl ⟨_, opened⟩
    have call : s.ftruncateCall (.truncateFd fd size) = some (o.file, toU64 size) := by
      rw [ftruncateCall, opened]
      rfl
    obtain ⟨u, r', run, _, truncation⟩ :=
      ftruncate_of_same coherent ok ⟨rfl, rfl⟩ here (narrow _ _ call)
    dsimp only at result
    rw [run] at result
    obtain ⟨rfl, rfl⟩ := Prod.mk.inj (Except.ok.inj result)
    exact .of_truncation call here truncation

/-- The time stamps of a write, which it sets in even seconds only. -/
def stamped (s : FileSystem) (env : Env) (f : FilePtr) : FileSystem :=
  if env.now % 2 = 0 then s.updateTimeStamp f env.now else s

theorem stamped_quiet (f : FilePtr) : Quiet s (s.stamped env f) := by
  unfold stamped
  split
  · exact updateTimeStamp_quiet f env.now
  · exact .refl s

/-- Everything a transfer reads is left alone by the time stamps. -/
theorem stamped_frame (s : FileSystem) (env : Env) (f : FilePtr) :
    (s.stamped env f).files = s.files ∧ (s.stamped env f).superMeta = s.superMeta ∧
      (s.stamped env f).fileBlockMetas = s.fileBlockMetas ∧ (s.stamped env f).disk = s.disk ∧
      (s.stamped env f).openFiles = s.openFiles ∧ (s.stamped env f).dirSide = s.dirSide := by
  unfold stamped
  split <;> exact ⟨rfl, rfl, rfl, rfl, rfl, rfl⟩

/-- The part of a write behind the growth of the file. -/
theorem writeData_wrote {fd len offset : Nat} {o : OpenFile} {buffer : Nat → UInt8}
    (opened : s.openedFile fd = some o.file)
    (result : (s.stamped env o.file).writeData fd o buffer len offset = .ok (s', r)) :
    ∃ b blocks u data, (s.files o.file).itemMaps.lookup 0 = some b ∧
      planTransfer s.superMeta (s.fileBlockMetas b) len offset = .ok blocks ∧
      writeBlocks buffer blocks s.disk = .ok ({ s.disk with data := data }, r) ∧ Quiet s u ∧
      u.dirSide = s.dirSide ∧ s' = u.stored data := by
  obtain ⟨files, super, blocks_, disk, openFiles, dirSide⟩ := stamped_frame s env o.file
  have quiet : Quiet s (s.stamped env o.file) := stamped_quiet o.file
  generalize s.stamped env o.file = t at *
  unfold writeData getFileBlock at result
  cases item : (t.files o.file).itemMaps.lookup 0 with
  | none => simp [item] at result
  | some b =>
    rw [item] at result
    obtain ⟨blocks, planned, result⟩ := Except.bind_eq_ok.mp result
    obtain ⟨⟨d, n⟩, moved, done⟩ := Except.bind_eq_ok.mp result
    rw [super, blocks_] at planned
    rw [disk] at moved
    obtain ⟨data, rfl⟩ := writeBlocks_data moved
    obtain ⟨rfl, rfl⟩ := Prod.mk.inj (Except.ok.inj done)
    have there : t.openedFile fd = some o.file := (quiet.opened fd).trans opened
    refine ⟨b, blocks, t.advance fd o n, data, files ▸ item, planned, moved,
      quiet.trans (reposition_quiet there _), dirSide, ?_⟩
    simp only [advance, stored, disk]

theorem pwriteFile_cases (coherent : Coherent s lost) (ok : env.IoOk) {fd len : Nat}
    {buffer : Nat → UInt8} {offset : Int} (narrow : s.NarrowCall (.pwrite fd buffer len offset))
    (result : s.pwriteFile env fd buffer len offset = .ok (s', r)) :
    PwriteOutcome s env fd buffer len offset s' r := by
  unfold pwriteFile at result
  cases found : s.getOpenFile fd with
  | error e =>
    rw [found] at result
    obtain ⟨rfl, rfl⟩ := Prod.mk.inj (Except.ok.inj result)
    refine .refused ?_ ⟨rfl, rfl⟩ (.inl rfl)
    rw [ftruncateCall, getOpenFile_error found]
  | ok o =>
    rw [found] at result
    have opened := getOpenFile_ok found
    have here : s.Accessible o.file := .inl ⟨_, opened⟩
    have call : s.ftruncateCall (.pwrite fd buffer len offset) =
        if len ≠ 0 ∧ (s.fileMeta o.file).size < (toU64 offset + len) % 2 ^ 64 then
          some (o.file, (toU64 offset + len) % 2 ^ 64)
        else none := by rw [ftruncateCall, opened]
    dsimp only [pwrite] at result
    split at result
    · next zero =>
      obtain ⟨rfl, _⟩ := Prod.mk.inj (Except.ok.inj result)
      exact .refused (by rw [call, if_neg fun both => both.1 zero]) ⟨rfl, rfl⟩ (.inr zero)
    · next positive =>
      by_cases grows : (s.fileMeta o.file).size < (toU64 offset + len) % 2 ^ 64
      · rw [if_pos ⟨positive, grows⟩] at call
        obtain ⟨t, r', run, _, truncation⟩ :=
          ftruncate_of_same coherent ok ⟨rfl, rfl⟩ here (narrow _ _ call)
        rw [if_pos grows, run, Except.ok_bind] at result
        dsimp only at result
        by_cases failed : r' < 0
        · rw [if_pos failed] at result
          obtain ⟨rfl, rfl⟩ := Prod.mk.inj (Except.ok.inj result)
          obtain rfl : r' = -1 := truncation.result.resolve_left fun same => absurd failed (by omega)
          exact .stuck call here truncation
        · rw [if_neg failed] at result
          have bound := coherent.registered.bound (here.registered coherent.registered)
          obtain rfl : r' = 0 := truncation.result.resolve_right fun same => failed (by omega)
          obtain ⟨b, blocks, u, data, item, planned, moved, quiet, homes, rfl⟩ :=
            writeData_wrote ((truncation.openedFile coherent bound fd).trans opened) result
          exact .wrote opened (Nat.pos_of_ne_zero positive) (.inr ⟨_, call, truncation⟩) item
            planned moved quiet homes
      · rw [if_neg fun both => grows both.2] at call
        rw [if_neg grows, Except.ok_bind] at result
        dsimp only at result
        rw [if_neg (by decide)] at result
        obtain ⟨b, blocks, u, data, item, planned, moved, quiet, homes, rfl⟩ :=
          writeData_wrote opened result
        exact .wrote opened (Nat.pos_of_ne_zero positive) (.inl ⟨call, rfl⟩) item planned moved
          quiet homes

theorem pwriteFile_outcome (coherent : Coherent s lost) (ok : env.IoOk) {fd len : Nat}
    {buffer : Nat → UInt8} {offset : Int} (narrow : s.NarrowCall (.pwrite fd buffer len offset))
    (result : s.pwriteFile env fd buffer len offset = .ok (s', r)) :
    Outcome s env (.pwrite fd buffer len offset) s' r := by
  cases pwriteFile_cases coherent ok narrow result with
  | refused calm same _ => exact .plain calm (.single (same.change coherent.housed))
  | stuck call known truncation =>
    exact .truncated call ⟨rfl, rfl⟩ known truncation .refl fun _ => ⟨rfl, rfl⟩
  | wrote opened positive grown item planned moved quiet homes =>
    exact .wrote rfl opened positive grown item planned moved quiet homes

/-- A read moves the position of its open file at most. -/
theorem pread_change (housed : Housed s) {fd len offset : Nat} {o : OpenFile}
    {buffer : Nat → UInt8} (opened : s.openedFile fd = some o.file) {back : Nat → UInt8}
    (result : s.pread fd o buffer len offset = .ok (s', back, r)) : Change collides s s' := by
  dsimp only [pread] at result
  split at result
  · obtain ⟨rfl, _⟩ := Prod.mk.inj (Except.ok.inj result)
    exact SameSides.change ⟨rfl, rfl⟩ housed
  · unfold readData at result
    cases item : s.getFileBlock o.file 0 with
    | none =>
      rw [item] at result
      obtain ⟨rfl, _⟩ := Prod.mk.inj (Except.ok.inj result)
      exact SameSides.change ⟨rfl, rfl⟩ housed
    | some b =>
      rw [item] at result
      obtain ⟨blocks, _, result⟩ := Except.bind_eq_ok.mp result
      obtain ⟨⟨buffer', n⟩, _, done⟩ := Except.bind_eq_ok.mp result
      obtain ⟨rfl, _⟩ := Prod.mk.inj (Except.ok.inj done)
      exact .quiet (reposition_quiet opened _) (housed.of_dirSide rfl)

omit [Crc32] in
theorem Coherent.unfound [Crc32] (coherent : Coherent s lost) (e : Option Errno) :
    Change collides s (s.storeErrno e) := SameSides.change ⟨rfl, rfl⟩ coherent.housed

theorem preadFile_change (coherent : Coherent s lost) {fd len : Nat} {offset : Int}
    {buffer back : Nat → UInt8} (result : s.preadFile fd buffer len offset = .ok (s', back, r)) :
    Change collides s s' := by
  unfold preadFile at result
  cases found : s.getOpenFile fd with
  | error e =>
    rw [found] at result
    obtain ⟨rfl, _⟩ := Prod.mk.inj (Except.ok.inj result)
    exact coherent.unfound (some ENOENT)
  | ok o =>
    rw [found] at result
    exact pread_change coherent.housed (getOpenFile_ok found) result

theorem readFile_change (coherent : Coherent s lost) {fd : Int} {len : Nat}
    {buffer back : Nat → UInt8} (result : s.readFile fd buffer len = .ok (s', back, r)) :
    Change collides s s' := by
  unfold readFile at result
  cases found : s.getOpenFile (toU64 fd) with
  | error e =>
    rw [found] at result
    obtain ⟨rfl, _⟩ := Prod.mk.inj (Except.ok.inj result)
    exact coherent.unfound e
  | ok o =>
    rw [found] at result
    exact pread_change coherent.housed (getOpenFile_ok found) result

theorem seekFile_change (coherent : Coherent s lost) (fd : Nat) (offset : Int) (whence : Whence) :
    Change collides s (s.seekFile fd offset whence).1 := by
  unfold seekFile
  cases found : s.getOpenFile fd with
  | error e => exact coherent.unfound e
  | ok o =>
    have moves (pos : Nat) : Change collides s
        { s with openFiles := s.openFiles.insert fd { o with appendPos := pos } } :=
      .quiet (reposition_quiet (getOpenFile_ok found) pos) (coherent.housed.of_dirSide rfl)
    cases whence with
    | set => exact moves _
    | cur => exact moves _
    | endOfFile => exact moves _
    | other => exact coherent.unfound (some EINVAL)

theorem fcntlFile_change (coherent : Coherent s lost) (fd : Int) (lockType : LockType) :
    Change collides s (s.fcntlFile fd lockType).1 := by
  unfold fcntlFile
  cases found : s.getOpenFile (toU64 fd) with
  | error e => exact coherent.unfound e
  | ok o =>
    have held (locked : Bool) : Change collides s (s.modifyFile o.file fun f => { f with locked := locked }) :=
      .quiet (modifyFile_quiet o.file _ rfl rfl rfl) (coherent.housed.of_dirSide rfl)
    have locks : Change collides s
        (if (s.files o.file).locked then ({ s with errno := EACCES }, (-1 : Int))
          else (s.modifyFile o.file fun f => { f with locked := true }, 0)).1 := by
      split
      · exact coherent.unfound (some EACCES)
      · exact held true
    cases lockType with
    | unlck =>
      dsimp only
      split
      · exact coherent.unfound (some ENOLCK)
      · exact held false
    | rdlck => exact locks
    | wrlck => exact locks
    | other => exact coherent.unfound none

/-- What every call does to a coherent file system. -/
theorem call_outcome (coherent : Coherent s lost) (ok : env.IoOk) (narrow : s.NarrowCall op)
    (result : s.call env op = .ok (s', r)) : Outcome s env op s' r := by
  have plain {t : FileSystem} {n : Int} (calm : s.ftruncateCall op = none)
      (path : Relation.ReflTransGen (Change (s.Collides op)) s t) (same : .ok (t, n) = Except.ok (ε := Fault) (s', r)) :
      Outcome s env op s' r := by
    obtain ⟨rfl, _⟩ := Prod.mk.inj (Except.ok.inj same)
    exact .plain calm path
  cases op with
  | createFile path => exact plain rfl (.single (createFilePath_change coherent ok path)) result
  | openFile path flags => exact openFile_outcome coherent ok narrow result
  | close fd => exact plain rfl (close_changes coherent ok fd) result
  | dup oldfd => exact plain rfl (.single (dup_change coherent oldfd)) result
  | unlink path => exact plain rfl (.single (unlink_change coherent ok path)) result
  | rename oldpath newpath =>
    exact plain rfl (renamePath_changes coherent ok oldpath newpath) result
  | truncatePath path size => exact truncatePath_outcome coherent ok narrow result
  | truncateFd fd size => exact truncateFd_outcome coherent ok narrow result
  | pwrite fd buffer len offset => exact pwriteFile_outcome coherent ok narrow result
  | pread fd len offset =>
    obtain ⟨⟨t, back, n⟩, run, done⟩ := Except.bind_eq_ok.mp result
    exact plain rfl (.single (preadFile_change coherent run)) done
  | read fd len =>
    obtain ⟨⟨t, back, n⟩, run, done⟩ := Except.bind_eq_ok.mp result
    exact plain rfl (.single (readFile_change coherent run)) done
  | seek fd offset whence =>
    exact plain rfl (.single (seekFile_change coherent fd offset whence)) result
  | fcntl fd lockType => exact plain rfl (.single (fcntlFile_change coherent fd lockType)) result
  | mkdir path =>
    exact .plain rfl (.single (.quiet (.of_fileSide (createDirectory_fileSide s env result))
      (coherent.housed.createDirectory env result)))
  | rmdir path =>
    exact plain rfl (.single (.quiet (.of_fileSide (deleteDirectory_fileSide s env path))
      (coherent.housed.deleteDirectory env path))) result
  | opendir path =>
    have change : Change (s.Collides (.opendir path)) s (s.openDirectory path).1 :=
      .quiet (.of_fileSide (openDirectory_fileSide s path)) (coherent.housed.openDirectory path)
    simp only [call] at result
    cases opened : s.openDirectory path with
    | mk t stream =>
      rw [opened] at change result
      cases stream <;> exact plain rfl (.single change) result
  | readdir stream =>
    obtain ⟨⟨t, item⟩, run, done⟩ := Except.bind_eq_ok.mp result
    exact plain rfl (.single (.quiet (.of_fileSide (readDirectory_fileSide s env run))
      (coherent.housed.readDirectory env run))) done
  | closedir stream =>
    exact plain rfl (.single (.quiet (.of_fileSide (closeDirectory_fileSide s stream))
      (coherent.housed.closeDirectory stream))) result

end Outcomes

end BlockFs.FileSystem
