import BlockFs.Directories
import BlockFs.Lib.Interleaving

namespace BlockFs

/-- A call that creates or removes a name; `tmpfile` is the flag of `CreateFile`. -/
inductive NameCall
  | createFile (path : Name) (tmpfile : Bool)
  | createDirectory (path : Name)
  | deleteDirectory (path : Name)
  deriving DecidableEq

/-- How far a call has come, from one section under a mutex to the next: `CreateFile` behind the
lookup of the directory, then with a slot, written, and in the item map of the directory; the files
that `CheckFileExist` still looks for, each with the errno that stands for finding it, and the
directory one of them is looked for in; `CreateDirectory` with a slot, written, and in the child map
of the parent; `DeleteDirectory` behind its lookup, its two checks, the clearing of the slot, and the
removal from the child map. -/
inductive NameStage
  | begun
  | located (dir : DirectoryPtr) (filename : Name)
  | fileTaken (dir : DirectoryPtr) (file : FilePtr)
  | fileWritten (dir : DirectoryPtr) (file : FilePtr)
  | fileListed (file : FilePtr)
  | looking (paths : List (Name × Errno))
  | within (dir : DirectoryPtr) (filename : Name) (found : Errno) (paths : List (Name × Errno))
  | taken (parent : Option DirectoryPtr) (dir : DirectoryPtr)
  | written (parent : Option DirectoryPtr) (dir : DirectoryPtr)
  | listed (parent : Option DirectoryPtr) (dir : DirectoryPtr)
  | found (parent dir : DirectoryPtr)
  | childless (parent dir : DirectoryPtr)
  | unopened (parent dir : DirectoryPtr)
  | cleared (parent dir : DirectoryPtr)
  | delisted (dir : DirectoryPtr)
  | returned (ret : Int)
  deriving DecidableEq

/-- A call in progress. -/
structure NameCaller where
  call : NameCall
  stage : NameStage

namespace NameStage

/-- The file that has its slot and is not in `created_files_` yet. -/
def pendingFile : NameStage → Option FilePtr
  | .fileTaken _ file | .fileWritten _ file | .fileListed file => some file
  | _ => none

/-- The directory that has its slot and is not in `created_dirs_` yet. -/
def pendingDir : NameStage → Option DirectoryPtr
  | .taken _ dir | .written _ dir | .listed _ dir => some dir
  | _ => none

/-- The directory a deletion has found. -/
def target : NameStage → Option DirectoryPtr
  | .found _ dir | .childless _ dir | .unopened _ dir | .cleared _ dir | .delisted dir => some dir
  | _ => none

/-- The call is not in progress. -/
def Idle : NameStage → Prop
  | .begun | .returned _ => True
  | _ => False

end NameStage

namespace FileSystem

/-- `NewFile` behind the lookup of the directory. -/
def newFileIn (s : FileSystem) (env : Env) (dir : DirectoryPtr) (filename : Name) (tmpfile : Bool) :
    FileSystem × Option FilePtr :=
  let dh := (s.dirMeta dir).dh
  if !tmpfile && (s.createdFiles.lookup (dh, filename)).isSome then ({ s with errno := EEXIST }, none)
  else
    match if tmpfile then s.newFreeTmpFileNolock dh else s.newFreeFileNolock dh filename with
    | (s, none) => (s, none)
    | (s, some f) =>
      (s.modifyFileMeta (s.files f).metaSlot fun m =>
        { m with atime := env.now, mtime := env.now, ctime := env.now }, some f)

theorem newFile_eq (s : FileSystem) (env : Env) (dirname filename : Name) (tmpfile : Bool) :
    s.newFile env dirname filename tmpfile =
      match s.getCreatedDirectory dirname with
      | .error _ => ({ s with errno := ENOENT }, none)
      | .ok dir => ((s.newFileIn env dir filename tmpfile).1,
          (s.newFileIn env dir filename tmpfile).2.map (dir, ·)) := by
  rw [newFile]
  cases s.getCreatedDirectory dirname with
  | error e => rfl
  | ok dir =>
    dsimp only
    unfold newFileIn
    dsimp only
    split
    · rfl
    · rcases (if tmpfile then s.newFreeTmpFileNolock (s.dirMeta dir).dh
        else s.newFreeFileNolock (s.dirMeta dir).dh filename) with ⟨t, _ | f⟩ <;> rfl

/-- The files `CheckFileExist` looks for. -/
def lookedFor (dirname : Name) (checkParent : Bool) : List (Name × Errno) :=
  if isMountPoint dirname then []
  else
    let path := if dirname.getLast? = some '/' then dirname.dropLast else dirname
    let parentPath := getDirName dirname
    if !isMountPoint parentPath && checkParent then
      let parentPath := if parentPath.getLast? = some '/' then parentPath.dropLast else parentPath
      [(path, EEXIST), (parentPath, ENOTDIR)]
    else [(path, if checkParent then EEXIST else ENOTDIR)]

end FileSystem

namespace NameCaller
open FileSystem
variable [Crc32]

/-- The next section of `CheckFileExist`. -/
def nextLook (s : FileSystem) : NameStage → Option (FileSystem × NameStage)
  | .looking ((path, found) :: paths) =>
    match FileHandle.transformPath path with
    | .error e => some (s.storeErrno e, .looking paths)
    | .ok (dirname, filename) =>
      match s.getCreatedDirectory dirname with
      | .error e => some (s.storeErrno e, .looking paths)
      | .ok dir => some (s, .within dir filename found paths)
  | .within dir filename found paths =>
    match s.createdFiles.lookup ((s.dirMeta dir).dh, filename) with
    | some _ => some ({ s with errno := found }, .returned (-1))
    | none => some ({ s with errno := ENOENT }, .looking paths)
  | _ => none

/-- The next section of `CreateFile`. -/
def nextCreateFile (s : FileSystem) (env : Env) (path : Name) (tmpfile : Bool) :
    NameStage → Option (FileSystem × NameStage)
  | .begun =>
    match if tmpfile then .ok (path, []) else FileHandle.transformPath path with
    | .error e => some (s.storeErrno e, .returned (-1))
    | .ok (dirname, filename) =>
      match s.getCreatedDirectory dirname with
      | .error _ => some ({ s with errno := ENOENT }, .returned (-1))
      | .ok dir => some (s, .located dir filename)
  | .located dir filename =>
    match s.newFileIn env dir filename tmpfile with
    | (s, none) => some (s, .returned (-1))
    | (s, some f) => some (s, .fileTaken dir f)
  | .fileTaken dir f =>
    match s.writeMeta env f with
    | (s, false) => some (s, .returned (-1))
    | (s, true) => some (s, .fileWritten dir f)
  | .fileWritten dir f => some ((s.addChildFile dir f).1, .fileListed f)
  | .fileListed f => some ({ s.addFileNoLock f with errno := 0 }, .returned 0)
  | _ => none

/-- The next section of `CreateDirectory`; none where the process stops. -/
def nextCreateDirectory (s : FileSystem) (env : Env) (path : Name) :
    NameStage → Option (FileSystem × NameStage)
  | .begun => some (s, .looking (lookedFor path true))
  | .looking [] =>
    match DirHandle.transformPath path with
    | .error e => some (s.storeErrno e, .returned (-1))
    | .ok dirName =>
      match s.newDirectory env dirName with
      | (s, none) => some (s, .returned (-1))
      | (s, some (parent, dir)) => some (s, .taken parent dir)
  | .taken parent dir =>
    match writeDirMetaRetry env (s.dirMeta dir).dh 3 s with
    | (s, false) => some (s, .returned (-1))
    | (s, true) => some (s, .written parent dir)
  | .written parent dir =>
    if isMountPoint (s.dirMeta dir).dirName then some (s, .listed parent dir)
    else
      match parent with
      | none => none
      | some p =>
        match s.addChildDirectory p dir with
        | (s, false) => some (s, .returned (-1))
        | (s, true) => some (s, .listed parent dir)
  | .listed parent dir =>
    match s.addDirectory2CreateNolock dir with
    | (s, true) => some ({ s with errno := 0 }, .returned 0)
    | (s, false) =>
      match parent with
      | none => none
      | some p =>
        match s.removChildDirectory p dir with
        | (_, true) => none
        | (s, false) => some (s, .returned (-1))
  | stage => nextLook s stage

/-- The next section of `DeleteDirectory`. -/
def nextDeleteDirectory (s : FileSystem) (env : Env) (path : Name) :
    NameStage → Option (FileSystem × NameStage)
  | .begun => some (s, .looking (lookedFor path false))
  | .looking [] =>
    match DirHandle.transformPath path with
    | .error e => some (s.storeErrno e, .returned (-1))
    | .ok dirName =>
      if isMountPoint path then some ({ s with errno := EPERM ||| EBUSY }, .returned (-1))
      else
        match s.findDirectory dirName with
        | .error e => some (s.storeErrno e, .returned (-1))
        | .ok (parent, dir) => some (s, .found parent dir)
  | .found parent dir =>
    if 0 < s.childCount dir then some ({ s with errno := ENOTEMPTY ||| EEXIST }, .returned (-1))
    else some (s, .childless parent dir)
  | .childless parent dir =>
    if (s.directories dir).nlink ≠ 0 then some ({ s with errno := EBUSY }, .returned (-1))
    else some (s, .unopened parent dir)
  | .unopened parent dir =>
    let s := s.modifyDirMeta (s.directories dir).metaSlot fun m => m.clear.sealed
    match s.writeDirMeta env (s.dirMeta dir).dh with
    | (s, false) => some (s, .returned (-1))
    | (s, true) => some (s, .cleared parent dir)
  | .cleared parent dir =>
    match s.removChildDirectory parent dir with
    | (s, false) => some (s, .returned (-1))
    | (s, true) => some (s, .delisted dir)
  | .delisted dir =>
    match s.removeDirectoryFromCreateNolock dir with
    | (s, false) => some (s, .returned (-1))
    | (s, true) => some ({ s with errno := 0 }, .returned 0)
  | stage => nextLook s stage

/-- The next section of a call at a stage. -/
def advance (s : FileSystem) (env : Env) : NameCall → NameStage → Option (FileSystem × NameStage)
  | .createFile path tmpfile => nextCreateFile s env path tmpfile
  | .createDirectory path => nextCreateDirectory s env path
  | .deleteDirectory path => nextDeleteDirectory s env path

def next (s : FileSystem) (l : NameCaller) (env : Env) : Option (FileSystem × NameCaller) :=
  (advance s env l.call l.stage).map fun r => (r.1, { l with stage := r.2 })

section Alone
variable {s s' : FileSystem} {env : Env} {path : Name} {call : NameCall}

/-- The sections of a call that nobody disturbs. -/
def Alone (env : Env) (call : NameCall) : FileSystem × NameStage → FileSystem × NameStage → Prop :=
  Relation.ReflTransGen fun x y => advance x.1 env call x.2 = some y

theorem Alone.step {y z : FileSystem × NameStage} {stage : NameStage}
    (taken : advance s env call stage = some y) (rest : Alone env call y z) :
    Alone env call (s, stage) z :=
  .head taken rest

theorem Alone.trans {x y z : FileSystem × NameStage} (first : Alone env call x y)
    (rest : Alone env call y z) : Alone env call x z :=
  Relation.ReflTransGen.trans first rest

/-- The sections in which one file is looked for. -/
theorem alone_look (s : FileSystem) (path : Name) (found : Errno) (paths : List (Name × Errno))
    (looks : ∀ s stage, (stage = .looking ((path, found) :: paths) ∨
      ∃ dir filename, stage = .within dir filename found paths) → advance s env call stage = nextLook s stage) :
    Alone env call (s, .looking ((path, found) :: paths))
      (match s.getCreatedFile path with
      | .ok _ => ({ s with errno := found }, .returned (-1))
      | .error e => (s.storeErrno e, .looking paths)) := by
  have first := looks s _ (.inl rfl)
  rw [nextLook] at first
  rw [getCreatedFile]
  cases parts : FileHandle.transformPath path with
  | error e =>
    rw [parts] at first
    exact .single first
  | ok split =>
    obtain ⟨dirname, filename⟩ := split
    rw [parts] at first
    simp only [Except.ok_bind]
    dsimp only at first
    cases home : s.getCreatedDirectory dirname with
    | error e =>
      rw [home] at first
      exact .single first
    | ok dir =>
      rw [home] at first
      have second := looks s (.within dir filename found paths) (.inr ⟨dir, filename, rfl⟩)
      rw [nextLook] at second
      simp only [Except.ok_bind]
      cases entry : s.createdFiles.lookup ((s.dirMeta dir).dh, filename) <;>
        rw [entry] at second <;> exact .step first (.single second)

/-- `CheckFileExist` as a call runs it on its own. -/
theorem alone_checkFileExist (s : FileSystem) (path : Name) (checkParent : Bool)
    (looks : ∀ s stage, (∃ path found paths, stage = .looking ((path, found) :: paths)) ∨
      (∃ dir filename found paths, stage = .within dir filename found paths) →
        advance s env call stage = nextLook s stage) :
    Alone env call (s, .looking (lookedFor path checkParent))
      (s.storeErrno (s.checkFileExist path checkParent).1,
        if (s.checkFileExist path checkParent).2 then .looking [] else .returned (-1)) := by
  have look (s : FileSystem) (path : Name) (found : Errno) (paths : List (Name × Errno)) :=
    alone_look s path found paths
      fun s stage either => looks s stage <| either.imp (fun same => ⟨_, _, _, same⟩)
        fun inside => by
          obtain ⟨dir, filename, same⟩ := inside
          exact ⟨dir, filename, _, _, same⟩
  by_cases mount : isMountPoint path = true
  · have verdict : s.checkFileExist path checkParent = (none, true) := by rw [checkFileExist, if_pos mount]
    rw [lookedFor, if_pos mount, verdict]
    exact .refl
  let own := if path.getLast? = some '/' then path.dropLast else path
  let parent := getDirName path
  let above := if parent.getLast? = some '/' then parent.dropLast else parent
  have unfolded : s.checkFileExist path checkParent =
      match s.getCreatedFile own with
      | .ok _ => (some (if checkParent then EEXIST else ENOTDIR), false)
      | .error e =>
        if !isMountPoint parent && checkParent then
          match s.getCreatedFile above with
          | .ok _ => (some ENOTDIR, false)
          | .error e' => (e' <|> e, true)
        else (e, true) := by
    unfold checkFileExist
    exact if_neg mount
  have asked : lookedFor path checkParent =
      if !isMountPoint parent && checkParent then [(own, EEXIST), (above, ENOTDIR)]
      else [(own, if checkParent then EEXIST else ENOTDIR)] := by
    rw [lookedFor, if_neg mount]
  rw [asked]
  by_cases both : (!isMountPoint parent && checkParent) = true
  · rw [if_pos both]
    obtain ⟨-, flag⟩ := Bool.and_eq_true_iff.mp both
    have first := look s own EEXIST [(above, ENOTDIR)]
    cases here : s.getCreatedFile own with
    | ok f =>
      rw [here, flag] at unfolded
      rw [here] at first
      rw [flag, unfolded]
      exact first
    | error e =>
      rw [here] at unfolded first
      dsimp only at unfolded
      rw [if_pos both] at unfolded
      have second := look (s.storeErrno e) above ENOTDIR []
      have same : (s.storeErrno e).getCreatedFile above = s.getCreatedFile above := rfl
      rw [same] at second
      cases there : s.getCreatedFile above with
      | ok g =>
        rw [there] at unfolded second
        rw [unfolded]
        exact first.trans second
      | error e' =>
        rw [there] at unfolded second
        rw [unfolded]
        cases e' <;> exact first.trans second
  · rw [if_neg both]
    have first := look s own (if checkParent then EEXIST else ENOTDIR) []
    cases here : s.getCreatedFile own with
    | ok f =>
      rw [here] at unfolded first
      rw [unfolded]
      exact first
    | error e =>
      rw [here] at unfolded first
      dsimp only at unfolded
      rw [if_neg both] at unfolded
      rw [unfolded]
      exact first

/-- The sections of `CreateFile` on their own are the whole call. -/
theorem alone_createFile {tmpfile : Bool} {made : Option FilePtr}
    (result : s.createFile env path tmpfile = (s', made)) :
    Alone env (.createFile path tmpfile) (s, .begun) (s', .returned (if made.isSome then 0 else -1)) := by
  have inside {dirname filename : Name} {back : FileSystem} {f : Option FilePtr}
      (parts : (if tmpfile then .ok (path, []) else FileHandle.transformPath path) = .ok (dirname, filename))
      (run : s.createFileIn env dirname filename tmpfile = (back, f)) :
      Alone env (.createFile path tmpfile) (s, .begun) (back, .returned (if f.isSome then 0 else -1)) := by
    have first : advance s env (.createFile path tmpfile) .begun =
        match s.getCreatedDirectory dirname with
        | .error _ => some ({ s with errno := ENOENT }, .returned (-1))
        | .ok dir => some (s, .located dir filename) := by
      rw [advance, nextCreateFile, parts]
    rw [createFileIn, newFile_eq] at run
    cases home : s.getCreatedDirectory dirname with
    | error e =>
      rw [home] at first run
      obtain ⟨rfl, rfl⟩ := Prod.mk.inj run
      exact .step first .refl
    | ok dir =>
      rw [home] at first run
      refine .step first ?_
      have second : advance s env (.createFile path tmpfile) (.located dir filename) =
          match s.newFileIn env dir filename tmpfile with
          | (s, none) => some (s, .returned (-1))
          | (s, some f) => some (s, .fileTaken dir f) := rfl
      dsimp only at run
      rcases taken : s.newFileIn env dir filename tmpfile with ⟨t, _ | g⟩
      · rw [taken] at second run
        obtain ⟨rfl, rfl⟩ := Prod.mk.inj run
        exact .step second .refl
      · rw [taken] at second run
        refine .step second ?_
        have third : advance t env (.createFile path tmpfile) (.fileTaken dir g) =
            match t.writeMeta env g with
            | (s, false) => some (s, .returned (-1))
            | (s, true) => some (s, .fileWritten dir g) := rfl
        dsimp only [Option.map] at run
        rcases wrote : t.writeMeta env g with ⟨u, _ | _⟩
        · rw [wrote] at third run
          obtain ⟨rfl, rfl⟩ := Prod.mk.inj run
          exact .step third .refl
        · rw [wrote] at third run
          obtain ⟨rfl, rfl⟩ := Prod.mk.inj run
          exact .step third (.step rfl (.step rfl .refl))
  rw [createFile] at result
  cases tmpfile with
  | true => exact inside rfl result
  | false =>
    rw [if_neg Bool.false_ne_true] at result
    cases parts : FileHandle.transformPath path with
    | ok split => exact inside parts (by simpa [parts] using result)
    | error e =>
      rw [parts] at result
      obtain ⟨rfl, rfl⟩ := Prod.mk.inj result
      refine .step ?_ .refl
      rw [advance, nextCreateFile, if_neg Bool.false_ne_true, parts]
      rfl

/-- The last two sections of `CreateDirectory`. -/
theorem alone_addDirectory {parent : Option DirectoryPtr} {dir : DirectoryPtr} {t : FileSystem}
    {added : Bool} {r : Int} (entered : s.addDirectory parent dir = .ok (t, added))
    (done : (if added then .ok ({ t with errno := 0 }, 0) else .ok (t, -1)) =
      (Except.ok (s', r) : Except Fault (FileSystem × Int))) :
    Alone env (.createDirectory path) (s, .written parent dir) (s', .returned r) := by
  have first : advance s env (.createDirectory path) (.written parent dir) =
      if isMountPoint (s.dirMeta dir).dirName then some (s, .listed parent dir)
      else
        match parent with
        | none => none
        | some p =>
          match s.addChildDirectory p dir with
          | (s, false) => some (s, .returned (-1))
          | (s, true) => some (s, .listed parent dir) := rfl
  have second (u : FileSystem) : advance u env (.createDirectory path) (.listed parent dir) =
      match u.addDirectory2CreateNolock dir with
      | (s, true) => some ({ s with errno := 0 }, .returned 0)
      | (s, false) =>
        match parent with
        | none => none
        | some p =>
          match s.removChildDirectory p dir with
          | (_, true) => none
          | (s, false) => some (s, .returned (-1)) := rfl
  unfold addDirectory at entered
  by_cases mount : isMountPoint (s.dirMeta dir).dirName = true
  · rw [if_pos mount] at first entered
    refine .step first ?_
    have last := second s
    rcases filed : s.addDirectory2CreateNolock dir with ⟨v, _ | _⟩
    · rw [filed] at entered
      simp at entered
    · rw [filed] at entered last
      obtain ⟨rfl, rfl⟩ := Prod.mk.inj (Except.ok.inj entered)
      obtain ⟨rfl, rfl⟩ := Prod.mk.inj (Except.ok.inj done)
      exact .step last .refl
  rw [if_neg mount] at first entered
  cases parent with
  | none => simp at entered
  | some p =>
    dsimp only at first entered
    rcases child : s.addChildDirectory p dir with ⟨u, _ | _⟩
    · rw [child] at first entered
      obtain ⟨rfl, rfl⟩ := Prod.mk.inj (Except.ok.inj entered)
      obtain ⟨rfl, rfl⟩ := Prod.mk.inj (Except.ok.inj done)
      exact .step first .refl
    · rw [child] at first entered
      refine .step first ?_
      have last := second u
      dsimp only at entered
      rcases filed : u.addDirectory2CreateNolock dir with ⟨v, _ | _⟩
      · rw [filed] at entered last
        dsimp only at entered last
        rcases undone : v.removChildDirectory p dir with ⟨w, _ | _⟩
        · rw [undone] at entered last
          obtain ⟨rfl, rfl⟩ := Prod.mk.inj (Except.ok.inj entered)
          obtain ⟨rfl, rfl⟩ := Prod.mk.inj (Except.ok.inj done)
          exact .step last .refl
        · rw [undone] at entered
          simp at entered
      · rw [filed] at entered last
        obtain ⟨rfl, rfl⟩ := Prod.mk.inj (Except.ok.inj entered)
        obtain ⟨rfl, rfl⟩ := Prod.mk.inj (Except.ok.inj done)
        exact .step last .refl

/-- The sections of `CreateDirectory` on their own are the whole call. -/
theorem alone_createDirectory {r : Int} (result : s.createDirectory env path = .ok (s', r)) :
    Alone env (.createDirectory path) (s, .begun) (s', .returned r) := by
  have checks := @alone_checkFileExist _ env (.createDirectory path) s path true fun s stage either => by
      rcases either with ⟨_, _, _, rfl⟩ | ⟨_, _, _, _, rfl⟩ <;> rfl
  rw [createDirectory] at result
  rcases verdict : s.checkFileExist path true with ⟨e, absent⟩
  rw [verdict] at checks result
  refine .step rfl (checks.trans ?_)
  cases absent with
  | false =>
    obtain ⟨rfl, rfl⟩ := Prod.mk.inj (Except.ok.inj result)
    exact .refl
  | true =>
    rw [if_pos rfl]
    dsimp only at result ⊢
    rw [Bool.not_true, if_neg Bool.false_ne_true] at result
    generalize s.storeErrno e = s at result ⊢
    have first : advance s env (.createDirectory path) (.looking []) =
        match DirHandle.transformPath path with
        | .error e => some (s.storeErrno e, .returned (-1))
        | .ok dirName =>
          match s.newDirectory env dirName with
          | (s, none) => some (s, .returned (-1))
          | (s, some (parent, dir)) => some (s, .taken parent dir) := rfl
    cases parts : DirHandle.transformPath path with
    | error e' =>
      rw [parts] at first result
      obtain ⟨rfl, rfl⟩ := Prod.mk.inj (Except.ok.inj result)
      exact .step first .refl
    | ok dirName =>
      rw [parts] at first result
      dsimp only at first result
      rcases made : s.newDirectory env dirName with ⟨t, _ | ⟨parent, dir⟩⟩
      · rw [made] at first result
        obtain ⟨rfl, rfl⟩ := Prod.mk.inj (Except.ok.inj result)
        exact .step first .refl
      · rw [made] at first result
        refine .step first ?_
        have second : advance t env (.createDirectory path) (.taken parent dir) =
            match writeDirMetaRetry env (t.dirMeta dir).dh 3 t with
            | (s, false) => some (s, .returned (-1))
            | (s, true) => some (s, .written parent dir) := rfl
        dsimp only at result
        rcases wrote : writeDirMetaRetry env (t.dirMeta dir).dh 3 t with ⟨u, _ | _⟩
        · rw [wrote] at second result
          obtain ⟨rfl, rfl⟩ := Prod.mk.inj (Except.ok.inj result)
          exact .step second .refl
        · rw [wrote] at second result
          refine .step second ?_
          obtain ⟨⟨v, added⟩, entered, done⟩ := Except.bind_eq_ok.mp result
          exact alone_addDirectory entered done

/-- The sections of `DeleteDirectory` behind the lookup. -/
theorem alone_dropped {parent dir : DirectoryPtr} {r : Int}
    (run : (if 0 < s.childCount dir then ({ s with errno := ENOTEMPTY ||| EEXIST }, -1)
      else if (s.directories dir).nlink ≠ 0 then ({ s with errno := EBUSY }, -1)
      else
        let s := s.modifyDirMeta (s.directories dir).metaSlot fun m => m.clear.sealed
        match s.writeDirMeta env (s.dirMeta dir).dh with
        | (s, false) => (s, -1)
        | (s, true) =>
          match s.removChildDirectory parent dir with
          | (s, false) => (s, -1)
          | (s, true) =>
            match s.removeDirectoryFromCreateNolock dir with
            | (s, false) => (s, -1)
            | (s, true) => ({ s with errno := 0 }, 0)) = (s', r)) :
    Alone env (.deleteDirectory path) (s, .found parent dir) (s', .returned r) := by
  have first : advance s env (.deleteDirectory path) (.found parent dir) =
      if 0 < s.childCount dir then some ({ s with errno := ENOTEMPTY ||| EEXIST }, .returned (-1))
      else some (s, .childless parent dir) := rfl
  by_cases busy : 0 < s.childCount dir
  · rw [if_pos busy] at first run
    obtain ⟨rfl, rfl⟩ := Prod.mk.inj run
    exact .step first .refl
  rw [if_neg busy] at first run
  refine .step first ?_
  have second : advance s env (.deleteDirectory path) (.childless parent dir) =
      if (s.directories dir).nlink ≠ 0 then some ({ s with errno := EBUSY }, .returned (-1))
      else some (s, .unopened parent dir) := rfl
  by_cases held : (s.directories dir).nlink ≠ 0
  · rw [if_pos held] at second run
    obtain ⟨rfl, rfl⟩ := Prod.mk.inj run
    exact .step second .refl
  rw [if_neg held] at second run
  refine .step second ?_
  dsimp only at run
  have third : advance s env (.deleteDirectory path) (.unopened parent dir) =
      let s := s.modifyDirMeta (s.directories dir).metaSlot fun m => m.clear.sealed
      match s.writeDirMeta env (s.dirMeta dir).dh with
      | (s, false) => some (s, .returned (-1))
      | (s, true) => some (s, .cleared parent dir) := rfl
  dsimp only at third
  rcases wrote : (s.modifyDirMeta (s.directories dir).metaSlot fun m => m.clear.sealed).writeDirMeta env
    ((s.modifyDirMeta (s.directories dir).metaSlot fun m => m.clear.sealed).dirMeta dir).dh with ⟨t, _ | _⟩
  · rw [wrote] at third run
    obtain ⟨rfl, rfl⟩ := Prod.mk.inj run
    exact .step third .refl
  rw [wrote] at third run
  refine .step third ?_
  dsimp only at run
  have fourth : advance t env (.deleteDirectory path) (.cleared parent dir) =
      match t.removChildDirectory parent dir with
      | (s, false) => some (s, .returned (-1))
      | (s, true) => some (s, .delisted dir) := rfl
  rcases removed : t.removChildDirectory parent dir with ⟨u, _ | _⟩
  · rw [removed] at fourth run
    obtain ⟨rfl, rfl⟩ := Prod.mk.inj run
    exact .step fourth .refl
  rw [removed] at fourth run
  refine .step fourth ?_
  dsimp only at run
  have fifth : advance u env (.deleteDirectory path) (.delisted dir) =
      match u.removeDirectoryFromCreateNolock dir with
      | (s, false) => some (s, .returned (-1))
      | (s, true) => some ({ s with errno := 0 }, .returned 0) := rfl
  rcases gone : u.removeDirectoryFromCreateNolock dir with ⟨v, _ | _⟩ <;>
    rw [gone] at fifth run <;> obtain ⟨rfl, rfl⟩ := Prod.mk.inj run <;> exact .step fifth .refl

/-- The sections of `DeleteDirectory` on their own are the whole call. -/
theorem alone_deleteDirectory {r : Int} (result : s.deleteDirectory env path = (s', r)) :
    Alone env (.deleteDirectory path) (s, .begun) (s', .returned r) := by
  have checks := @alone_checkFileExist _ env (.deleteDirectory path) s path false fun s stage either => by
      rcases either with ⟨_, _, _, rfl⟩ | ⟨_, _, _, _, rfl⟩ <;> rfl
  rw [deleteDirectory] at result
  rcases verdict : s.checkFileExist path false with ⟨e, absent⟩
  rw [verdict] at checks result
  refine .step rfl (checks.trans ?_)
  cases absent with
  | false =>
    obtain ⟨rfl, rfl⟩ := Prod.mk.inj result
    exact .refl
  | true =>
    rw [if_pos rfl]
    dsimp only at result ⊢
    rw [Bool.not_true, if_neg Bool.false_ne_true] at result
    generalize s.storeErrno e = s at result ⊢
    have first : advance s env (.deleteDirectory path) (.looking []) =
        match DirHandle.transformPath path with
        | .error e => some (s.storeErrno e, .returned (-1))
        | .ok dirName =>
          if isMountPoint path then some ({ s with errno := EPERM ||| EBUSY }, .returned (-1))
          else
            match s.findDirectory dirName with
            | .error e => some (s.storeErrno e, .returned (-1))
            | .ok (parent, dir) => some (s, .found parent dir) := rfl
    cases parts : DirHandle.transformPath path with
    | error e' =>
      rw [parts] at first result
      obtain ⟨rfl, rfl⟩ := Prod.mk.inj result
      exact .step first .refl
    | ok dirName =>
      rw [parts] at first result
      dsimp only at first result
      by_cases mount : isMountPoint path = true
      · rw [if_pos mount] at first result
        obtain ⟨rfl, rfl⟩ := Prod.mk.inj result
        exact .step first .refl
      rw [if_neg mount] at first result
      cases search : s.findDirectory dirName with
      | error e' =>
        rw [search] at first result
        obtain ⟨rfl, rfl⟩ := Prod.mk.inj result
        exact .step first .refl
      | ok both =>
        obtain ⟨parent, dir⟩ := both
        rw [search] at first result
        exact .step first (alone_dropped result)

end Alone

end NameCaller

end BlockFs
