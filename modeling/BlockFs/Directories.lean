import BlockFs.Indexes
import BlockFs.Paths

namespace BlockFs.FileSystem

/-- Two states with the same directories, up to their times and what the device holds of them. -/
structure SameTree (s s' : FileSystem) : Prop where
  fileSide : s'.fileSide = s.fileSide
  directories : s'.directories = s.directories
  nextDirectory : s'.nextDirectory = s.nextDirectory
  createdDirs : s'.createdDirs = s.createdDirs
  createdDhs : s'.createdDhs = s.createdDhs
  freeDhs : s'.freeDhs = s.freeDhs
  dirName : ∀ i, (s'.dirMetas i).dirName = (s.dirMetas i).dirName
  dh : ∀ i, (s'.dirMetas i).dh = (s.dirMetas i).dh

/-- A directory has been made at `path` in the free slot `x`. -/
structure MadeDirectory (s s' : FileSystem) (path : Name) (parent : DirectoryPtr) (x : Nat) : Prop where
  fileSide : s'.fileSide = s.fileSide
  vacant : s.createdDirs.lookup path = none
  leads : s.createdDirs.lookup (getDirName path) = some parent
  free : x ∈ s.freeDhs
  nextDirectory : s'.nextDirectory = s.nextDirectory + 1
  createdDirs : s'.createdDirs = s.createdDirs.insert path s.nextDirectory
  createdDhs : s'.createdDhs = s.createdDhs.insert x s.nextDirectory
  old : ∀ d < s.nextDirectory, d ≠ parent → s'.directories d = s.directories d
  parent : s'.directories parent = { s.directories parent with
    childDirMaps := (s.directories parent).childDirMaps.insert x s.nextDirectory }
  new : s'.directories s.nextDirectory = { metaSlot := x, nlink := 0, itemMaps := ∅, childDirMaps := ∅ }
  dirName : ∀ i, (s'.dirMetas i).dirName = if i = x then path else (s.dirMetas i).dirName

/-- An empty directory has left its parent and both indices. -/
structure DroppedDirectory (s s' : FileSystem) (path : Name) (parent dir : DirectoryPtr) : Prop where
  fileSide : s'.fileSide = s.fileSide
  leads : s.createdDirs.lookup (getDirName path) = some parent
  found : s.createdDirs.lookup path = some dir
  empty : (s.directories dir).itemMaps = ∅ ∧ (s.directories dir).childDirMaps = ∅
  nextDirectory : s'.nextDirectory = s.nextDirectory
  createdDirs : s'.createdDirs = s.createdDirs.erase path
  createdDhs : s'.createdDhs = s.createdDhs.erase (s.directories dir).metaSlot
  directories : s'.directories = Function.update s.directories parent { s.directories parent with
    childDirMaps := (s.directories parent).childDirMaps.erase (s.directories dir).metaSlot }
  dirName : ∀ i, (s'.dirMetas i).dirName = (s.dirMetas i).dirName

/-- The directories after `child`, in the slot `x`, has been taken out of one child map. -/
def orphanedFrom (dirs : Nat → Directory) (parent : DirectoryPtr) (x : Nat) : Nat → Directory :=
  Function.update dirs parent
    { dirs parent with childDirMaps := (dirs parent).childDirMaps.erase x }

/-- The directories after `child`, in the slot `x`, has been entered in a child map, unless the map
has an entry there. -/
def adoptedBy (dirs : Nat → Directory) (parent : DirectoryPtr) (x : Nat) (child : DirectoryPtr) :
    Nat → Directory :=
  if ((dirs parent).childDirMaps.lookup x).isSome then dirs
  else Function.update dirs parent
    { dirs parent with childDirMaps := (dirs parent).childDirMaps.insert x child }

/-- A directory has taken the path `target`. A directory that was there before stays in the indices,
and the renamed one is in neither. -/
structure MovedDirectory (s s' : FileSystem) (path target : Name) (dir oldParent newParent : DirectoryPtr) :
    Prop where
  fileSide : s'.fileSide = s.fileSide
  oldLeads : s.createdDirs.lookup (getDirName path) = some oldParent
  newLeads : s.createdDirs.lookup (getDirName target) = some newParent
  found : s.createdDirs.lookup path = some dir
  nextDirectory : s'.nextDirectory = s.nextDirectory
  index : if ((s.createdDirs.erase path).lookup target).isSome then
      s'.createdDirs = s.createdDirs.erase path ∧
        s'.createdDhs = s.createdDhs.erase (s.directories dir).metaSlot
    else s'.createdDirs = (s.createdDirs.erase path).insert target dir ∧
      s'.createdDhs = (s.createdDhs.erase (s.directories dir).metaSlot).insert
        (s.directories dir).metaSlot dir
  directories : s'.directories =
    adoptedBy (orphanedFrom s.directories oldParent (s.directories dir).metaSlot) newParent
      (s.directories dir).metaSlot dir
  dirName : ∀ i, (s'.dirMetas i).dirName =
    if i = (s.directories dir).metaSlot then target else (s.dirMetas i).dirName

/-- The slot of `dir` has the new name and a fresh checksum, in memory and, with the rest of its
page, on the device. -/
structure Retitled [Crc32] (s s' : FileSystem) (dir : DirectoryPtr) (target : Name) : Prop where
  dirMetas : s'.dirMetas = Function.update s.dirMetas (s.directories dir).metaSlot
    ((s.dirMeta dir).setDirName target).sealed
  disk : s'.disk = s.disk.apply (.dirPage
    (pageAlignIndex (kBlockFsPageSize / s.superMeta.dirMetaSize) (s.directories dir).metaSlot)
    s'.dirMetas)

section Trees
variable {s s' s'' : FileSystem}

theorem SameTree.refl (s : FileSystem) : SameTree s s :=
  ⟨rfl, rfl, rfl, rfl, rfl, rfl, fun _ => rfl, fun _ => rfl⟩

theorem SameTree.trans (first : SameTree s s') (second : SameTree s' s'') : SameTree s s'' where
  fileSide := second.fileSide.trans first.fileSide
  directories := second.directories.trans first.directories
  nextDirectory := second.nextDirectory.trans first.nextDirectory
  createdDirs := second.createdDirs.trans first.createdDirs
  createdDhs := second.createdDhs.trans first.createdDhs
  freeDhs := second.freeDhs.trans first.freeDhs
  dirName i := (second.dirName i).trans (first.dirName i)
  dh i := (second.dh i).trans (first.dh i)

theorem SameTree.dirMeta_dirName (same : SameTree s s') (d : DirectoryPtr) :
    (s'.dirMeta d).dirName = (s.dirMeta d).dirName := by
  rw [dirMeta, dirMeta, same.directories, same.dirName]

theorem SameTree.dirMeta_dh (same : SameTree s s') (d : DirectoryPtr) :
    (s'.dirMeta d).dh = (s.dirMeta d).dh := by
  rw [dirMeta, dirMeta, same.directories, same.dh]

theorem SameTree.modifyDirMeta (i : Nat) (g : DirMeta → DirMeta)
    (name : (g (s.dirMetas i)).dirName = (s.dirMetas i).dirName)
    (dh : (g (s.dirMetas i)).dh = (s.dirMetas i).dh) : SameTree s (s.modifyDirMeta i g) :=
  ⟨rfl, rfl, rfl, rfl, rfl, rfl, fun j => view_update s.dirMetas i j (·.dirName) name,
    fun j => view_update s.dirMetas i j (·.dh) dh⟩

variable [Crc32] {env : Env}

theorem writeDirMeta_tree (ok : env.IoOk) (s : FileSystem) (dh : Nat) :
    ∃ s', s.writeDirMeta env dh = (s', true) ∧ SameTree s s' ∧ s'.errno = s.errno := by
  have same := SameTree.modifyDirMeta (s := s) dh DirMeta.sealed rfl rfl
  rw [writeDirMeta, pwriteDirect, if_pos (ok.1 _)]
  exact ⟨_, rfl, ⟨rfl, rfl, rfl, rfl, rfl, rfl, same.dirName, same.dh⟩, rfl⟩

theorem writeDirMetaRetry_tree (ok : env.IoOk) (s : FileSystem) (dh tries : Nat) :
    ∃ s', writeDirMetaRetry env dh (tries + 1) s = (s', true) ∧ SameTree s s' ∧ s'.errno = s.errno := by
  obtain ⟨s', written, same⟩ := writeDirMeta_tree ok s dh
  exact ⟨s', by rw [writeDirMetaRetry, written], same⟩

end Trees

section Checks
variable {s : FileSystem}

/-- Every refusal of the check names its errno. -/
theorem checkFileExist_refused {dirname : Name} {checkParent : Bool} {e : Option Errno}
    (refused : s.checkFileExist dirname checkParent = (e, false)) : ∃ n, e = some n ∧ n ≠ 0 := by
  unfold checkFileExist at refused
  dsimp only at refused
  split at refused
  · simp at refused
  · split at refused
    · obtain ⟨rfl, _⟩ := Prod.mk.inj refused
      exact ⟨_, rfl, by cases checkParent <;> decide⟩
    · split at refused
      · split at refused
        · obtain ⟨rfl, _⟩ := Prod.mk.inj refused
          exact ⟨_, rfl, by decide⟩
        · simp at refused
      · simp at refused

theorem dirTransformPath_error {path : Name} {e : Option Errno}
    (refused : DirHandle.transformPath path = .error e) : e = some ENAMETOOLONG := by
  unfold DirHandle.transformPath at refused
  generalize (if path.getLast? = some '/' then path else path ++ ['/']) = name at refused
  dsimp only at refused
  split at refused
  · exact (Except.error.inj refused).symm
  · simp at refused

theorem dirTransformPath_ok {path dirName : Name} (result : DirHandle.transformPath path = .ok dirName) :
    dirName = (if path.getLast? = some '/' then path else path ++ ['/']) ∧
      dirName.length < kBlockFsMaxDirNameLen := by
  unfold DirHandle.transformPath at result
  generalize (if path.getLast? = some '/' then path else path ++ ['/']) = name at result ⊢
  dsimp only at result
  split at result
  · simp at result
  · next short =>
    obtain rfl := Except.ok.inj result
    exact ⟨rfl, not_le.mp short⟩

theorem isMountPoint_eq {path : Name} : isMountPoint path = true ↔ path = ['/'] := beq_iff_eq

theorem findDirectory_error {dirname : Name} {e : Option Errno}
    (missing : s.findDirectory dirname = .error e) : e = some ENOENT := by
  unfold findDirectory at missing
  grind only

theorem findDirectory_ok {dirname : Name} {parent dir : DirectoryPtr}
    (found : s.findDirectory dirname = .ok (parent, dir)) :
    s.createdDirs.lookup (getDirName dirname) = some parent ∧
      s.createdDirs.lookup dirname = some dir := by
  unfold findDirectory at found
  grind only

end Checks

section Making
variable {s : FileSystem} {env : Env} {path dirName : Name}

theorem setDirName_short (m : DirMeta) (short : dirName.length < kBlockFsMaxDirNameLen) :
    (m.setDirName dirName).dirName = dirName := List.take_of_length_le short.le

/-- The state in which a new directory object has got the free slot `x`. -/
def lodged (s : FileSystem) (env : Env) (dirName : Name) (x : Nat) (rest : List Nat) : FileSystem :=
  { s.modifyDirMeta x fun m =>
      { (m.setDirName dirName) with
        used := true, dh := x, atime := env.now, mtime := env.now, ctime := env.now } with
    directories := Function.update s.directories s.nextDirectory
      { metaSlot := x, nlink := 0, itemMaps := ∅, childDirMaps := ∅ }
    nextDirectory := s.nextDirectory + 1
    freeDhs := rest }

theorem newFreeDirectoryNolock_cases (s : FileSystem) (env : Env) (dirName : Name) :
    (∃ e, e ≠ 0 ∧ s.newFreeDirectoryNolock env dirName = ({ s with errno := e }, none)) ∨
      ∃ x rest, s.freeDhs = x :: rest ∧
        s.newFreeDirectoryNolock env dirName = (s.lodged env dirName x rest, some s.nextDirectory) := by
  unfold newFreeDirectoryNolock
  cases free : s.freeDhs with
  | nil => exact .inl ⟨ENFILE, by decide, rfl⟩
  | cons x rest =>
    dsimp only
    split
    · exact .inl ⟨EINVAL, by decide, rfl⟩
    · exact .inr ⟨x, rest, rfl, rfl⟩

/-- A new directory below the mount point is refused with an errno, or gets a free slot. -/
theorem newDirectory_cases (s : FileSystem) (env : Env) (below : isMountPoint dirName = false) :
    (∃ e, e ≠ 0 ∧ s.newDirectory env dirName = ({ s with errno := e }, none)) ∨
      ∃ parent x rest, s.createdDirs.lookup dirName = none ∧
        s.createdDirs.lookup (getDirName dirName) = some parent ∧ s.freeDhs = x :: rest ∧
        s.newDirectory env dirName =
          (s.lodged env dirName x rest, some (some parent, s.nextDirectory)) := by
  unfold newDirectory
  rw [below]
  cases vacant : s.createdDirs.lookup dirName with
  | some d => exact .inl ⟨EEXIST, by decide, rfl⟩
  | none =>
    cases leads : s.createdDirs.lookup (getDirName dirName) with
    | none => exact .inl ⟨ENOENT, by decide, rfl⟩
    | some parent =>
      rcases newFreeDirectoryNolock_cases s env dirName with ⟨e, nonzero, refused⟩ | ⟨x, rest, free, made⟩
      · exact .inl ⟨e, nonzero, by simp [refused]⟩
      · exact .inr ⟨parent, x, rest, rfl, rfl, free, by simp [made]⟩

theorem Housed.unhandled_of_free (housed : Housed s) {x : Nat} (free : x ∈ s.freeDhs) :
    s.createdDhs.lookup x = none := by
  cases found : s.createdDhs.lookup x with
  | none => rfl
  | some d =>
    obtain ⟨bound, slot⟩ := housed.handles x d found
    exact absurd (slot ▸ free) (housed.fresh d bound)

theorem Housed.childless_of_free (housed : Housed s) {x : Nat} (free : x ∈ s.freeDhs)
    {d : DirectoryPtr} (bound : d < s.nextDirectory) :
    (s.directories d).childDirMaps.lookup x = none := by
  cases found : (s.directories d).childDirMaps.lookup x with
  | none => rfl
  | some c =>
    obtain ⟨known, slot⟩ := housed.children d bound x c found
    exact absurd (slot ▸ free) (housed.fresh c known)

/-- The last step of a creation enters the new directory in its parent and in both indices. -/
theorem addDirectory_lodged (housed : Housed s) {t : FileSystem} {parent : DirectoryPtr} {x : Nat}
    {rest : List Nat} (below : isMountPoint dirName = false)
    (short : dirName.length < kBlockFsMaxDirNameLen) (vacant : s.createdDirs.lookup dirName = none)
    (leads : s.createdDirs.lookup (getDirName dirName) = some parent) (free : s.freeDhs = x :: rest)
    (same : SameTree (s.lodged env dirName x rest) t) :
    ∃ u, t.addDirectory (some parent) s.nextDirectory = .ok (u, true) ∧
      MadeDirectory s u dirName parent x := by
  have head : x ∈ s.freeDhs := by simp [free]
  have bound := housed.paths _ _ leads
  have slot : (s.lodged env dirName x rest).directories s.nextDirectory =
      { metaSlot := x, nlink := 0, itemMaps := ∅, childDirMaps := ∅ } := Function.update_self ..
  have old (d : DirectoryPtr) (known : d < s.nextDirectory) :
      (s.lodged env dirName x rest).directories d = s.directories d :=
    Function.update_of_ne known.ne _ _
  have named : (t.dirMeta s.nextDirectory).dirName = dirName := by
    rw [same.dirMeta_dirName, dirMeta, slot]
    change (Function.update s.dirMetas x _ x).dirName = dirName
    rw [Function.update_self]
    exact setDirName_short (s.dirMetas x) short
  have handle : (t.dirMeta s.nextDirectory).dh = x := by
    rw [same.dirMeta_dh, dirMeta, slot]
    change (Function.update s.dirMetas x _ x).dh = x
    rw [Function.update_self]
  have unlisted : (t.directories parent).childDirMaps.lookup x = none := by
    rw [same.directories, old parent bound]
    exact housed.childless_of_free head bound
  have unnamed : t.createdDirs.lookup dirName = none := by rw [same.createdDirs]; exact vacant
  have unhandled : t.createdDhs.lookup x = none := by
    rw [same.createdDhs]
    exact housed.unhandled_of_free head
  let u := t.modifyDirectory parent fun d =>
    { d with childDirMaps := d.childDirMaps.insert x s.nextDirectory }
  have kept : u.dirMeta s.nextDirectory = t.dirMeta s.nextDirectory :=
    congrArg t.dirMetas (view_update t.directories parent s.nextDirectory (·.metaSlot) rfl)
  have child : t.addChildDirectory parent s.nextDirectory = (u, true) := by
    rw [addChildDirectory, handle, unlisted]
    rfl
  have entered : u.addDirectory2CreateNolock s.nextDirectory =
      ({ u with
          createdDirs := u.createdDirs.insert dirName s.nextDirectory
          createdDhs := u.createdDhs.insert x s.nextDirectory }, true) := by
    rw [addDirectory2CreateNolock, kept, named, handle]
    change (if (t.createdDirs.lookup dirName).isSome then _ else
      if (t.createdDhs.lookup x).isSome then _ else _) = _
    rw [unnamed, unhandled]
    rfl
  refine ⟨_, by rw [addDirectory, named, below, child]; dsimp only; rw [entered]; rfl, ?_⟩
  exact
    { fileSide := same.fileSide
      vacant := vacant
      leads := leads
      free := head
      nextDirectory := same.nextDirectory
      createdDirs := congrArg (·.insert dirName s.nextDirectory) same.createdDirs
      createdDhs := congrArg (·.insert x s.nextDirectory) same.createdDhs
      old := fun d known apart => by
        change Function.update t.directories parent _ d = _
        rw [Function.update_of_ne apart, same.directories, old d known]
      parent := by
        change Function.update t.directories parent _ parent = _
        rw [Function.update_self, same.directories, old parent bound]
      new := by
        change Function.update t.directories parent _ s.nextDirectory = _
        rw [Function.update_of_ne bound.ne', same.directories, slot]
      dirName := fun i => by
        refine (same.dirName i).trans ?_
        change (Function.update s.dirMetas x _ i).dirName = _
        rw [Function.update_apply]
        split
        · exact setDirName_short (s.dirMetas x) short
        · rfl }

end Making

section Calls
variable [Crc32] {s : FileSystem} {env : Env}

/-- A creation below an existing mount point is refused with an errno, or makes a directory. -/
theorem createDirectory_cases (housed : Housed s) (ok : env.IoOk) {root : DirectoryPtr}
    (rooted : s.createdDirs.lookup ['/'] = some root) (path : Name) :
    (∃ e, e ≠ 0 ∧ s.createDirectory env path = .ok ({ s with errno := e }, -1)) ∨
      ∃ u dirName parent x, (s.checkFileExist path true).2 = true ∧
        DirHandle.transformPath path = .ok dirName ∧
        s.createDirectory env path = .ok (u, 0) ∧ MadeDirectory s u dirName parent x := by
  unfold createDirectory
  cases checked : s.checkFileExist path true with
  | mk e absent =>
    dsimp only
    cases absent with
    | false =>
      obtain ⟨n, rfl, nonzero⟩ := checkFileExist_refused checked
      exact .inl ⟨n, nonzero, rfl⟩
    | true =>
      rw [Bool.not_true, if_neg Bool.false_ne_true]
      cases parts : DirHandle.transformPath path with
      | error e' =>
        rw [dirTransformPath_error parts]
        exact .inl ⟨ENAMETOOLONG, by decide, rfl⟩
      | ok dirName =>
        dsimp only
        have short := (dirTransformPath_ok parts).2
        cases mount : isMountPoint dirName with
        | true =>
          obtain rfl := isMountPoint_eq.mp mount
          have taken : (s.storeErrno e).newDirectory env ['/'] =
              ({ s.storeErrno e with errno := EEXIST }, none) := by
            rw [newDirectory, if_pos]
            exact Option.isSome_iff_exists.mpr ⟨root, rooted⟩
          rw [taken]
          exact .inl ⟨EEXIST, by decide, rfl⟩
        | false =>
          rcases newDirectory_cases (s.storeErrno e) env mount with
            ⟨n, nonzero, refused⟩ | ⟨parent, x, rest, vacant, leads, free, made⟩
          · rw [refused]
            exact .inl ⟨n, nonzero, rfl⟩
          · rw [made]
            dsimp only
            obtain ⟨t, written, same, _⟩ := writeDirMetaRetry_tree ok
              ((s.storeErrno e).lodged env dirName x rest)
              (((s.storeErrno e).lodged env dirName x rest).dirMeta (s.storeErrno e).nextDirectory).dh 2
            rw [written]
            obtain ⟨u, added, created⟩ := addDirectory_lodged (housed.storeErrno e).housed mount short
              vacant leads free same
            dsimp only
            rw [added]
            refine .inr ⟨{ u with errno := 0 }, dirName, parent, x, rfl, rfl, rfl, ?_⟩
            exact
              { fileSide := created.fileSide
                vacant := vacant
                leads := leads
                free := created.free
                nextDirectory := created.nextDirectory
                createdDirs := created.createdDirs
                createdDhs := created.createdDhs
                old := created.old
                parent := created.parent
                new := created.new
                dirName := created.dirName }

omit [Crc32] in
theorem orphanedFrom_metaSlot (dirs : Nat → Directory) (parent : DirectoryPtr) (x : Nat)
    (d : DirectoryPtr) : (orphanedFrom dirs parent x d).metaSlot = (dirs d).metaSlot :=
  view_update dirs parent d (·.metaSlot) rfl

omit [Crc32] in
theorem removChildDirectory_eq (s : FileSystem) (parent child : DirectoryPtr) :
    s.removChildDirectory parent child =
      ({ s with directories := orphanedFrom s.directories parent (s.dirMeta child).dh },
        ((s.directories parent).childDirMaps.lookup (s.dirMeta child).dh).isSome) := by
  rw [removChildDirectory]
  cases listed : (s.directories parent).childDirMaps.lookup (s.dirMeta child).dh with
  | none =>
    rw [orphanedFrom, erase_of_lookup_none listed, Function.update_eq_self]
    rfl
  | some c => rfl

omit [Crc32] in
theorem removeDirectoryFromCreateNolock_eq {child d e : DirectoryPtr}
    (named : s.createdDirs.lookup (s.dirMeta child).dirName = some d)
    (entry : s.createdDhs.lookup (s.dirMeta child).dh = some e) :
    s.removeDirectoryFromCreateNolock child =
      ({ s with
          createdDirs := s.createdDirs.erase (s.dirMeta child).dirName
          createdDhs := s.createdDhs.erase (s.dirMeta child).dh }, true) := by
  rw [removeDirectoryFromCreateNolock, named, if_neg (by simp)]
  change (if (s.createdDhs.lookup (s.dirMeta child).dh).isNone then _ else
    ({ s with
        createdDirs := s.createdDirs.erase (s.dirMeta child).dirName
        createdDhs := s.createdDhs.erase (s.dirMeta child).dh }, true)) = _
  rw [entry, if_neg (by simp)]

omit [Crc32] in
theorem childCount_eq_zero {dir : DirectoryPtr} (empty : s.childCount dir = 0) :
    (s.directories dir).itemMaps = ∅ ∧ (s.directories dir).childDirMaps = ∅ := by
  rw [childCount] at empty
  obtain ⟨files, dirs⟩ := Nat.add_eq_zero_iff.mp empty
  exact ⟨AList.ext (List.eq_nil_of_length_eq_zero files),
    AList.ext (List.eq_nil_of_length_eq_zero dirs)⟩

/-- A deletion is refused with an errno, stops at a parent that does not hold the directory, or
drops it. -/
theorem deleteDirectory_cases (housed : Housed s) (ok : env.IoOk) (path : Name) :
    (∃ e, e ≠ 0 ∧ s.deleteDirectory env path = ({ s with errno := e }, -1)) ∨
    (∃ u dirName parent dir, path ≠ ['/'] ∧ (s.checkFileExist path false).2 = true ∧
      DirHandle.transformPath path = .ok dirName ∧
      s.createdDirs.lookup (getDirName dirName) = some parent ∧
      s.createdDirs.lookup dirName = some dir ∧
      (s.directories parent).childDirMaps.lookup (s.directories dir).metaSlot = none ∧
      s.deleteDirectory env path = (u, -1) ∧ SameTree s u ∧
      u.errno = (s.checkFileExist path false).1.getD s.errno) ∨
    ∃ u dirName parent dir, DirHandle.transformPath path = .ok dirName ∧ path ≠ ['/'] ∧
      s.deleteDirectory env path = (u, 0) ∧ DroppedDirectory s u dirName parent dir := by
  unfold deleteDirectory
  cases checked : s.checkFileExist path false with
  | mk e absent =>
    dsimp only
    cases absent with
    | false =>
      obtain ⟨n, rfl, nonzero⟩ := checkFileExist_refused checked
      exact .inl ⟨n, nonzero, rfl⟩
    | true =>
      rw [Bool.not_true, if_neg Bool.false_ne_true]
      cases parts : DirHandle.transformPath path with
      | error e' =>
        rw [dirTransformPath_error parts]
        exact .inl ⟨ENAMETOOLONG, by decide, rfl⟩
      | ok dirName =>
        dsimp only
        cases mount : isMountPoint path with
        | true => exact .inl ⟨EPERM ||| EBUSY, by decide, rfl⟩
        | false =>
          have below : path ≠ ['/'] := by
            intro root
            rw [isMountPoint_eq.mpr root] at mount
            simp at mount
          rw [if_neg Bool.false_ne_true]
          cases search : (s.storeErrno e).findDirectory dirName with
          | error e' =>
            rw [findDirectory_error search]
            exact .inl ⟨ENOENT, by decide, rfl⟩
          | ok result =>
            obtain ⟨parent, dir⟩ := result
            obtain ⟨leads, found⟩ := findDirectory_ok search
            dsimp only
            by_cases busy : 0 < (s.storeErrno e).childCount dir
            · rw [if_pos busy]
              exact .inl ⟨ENOTEMPTY ||| EEXIST, by decide, rfl⟩
            rw [if_neg busy]
            by_cases held : ((s.storeErrno e).directories dir).nlink ≠ 0
            · rw [if_pos held]
              exact .inl ⟨EBUSY, by decide, rfl⟩
            rw [if_neg held]
            have cleared := SameTree.modifyDirMeta (s := s.storeErrno e) ((s.storeErrno e).directories dir).metaSlot
              (fun m => m.clear.sealed) rfl rfl
            obtain ⟨t, written, wrote, errno⟩ := writeDirMeta_tree ok
              ((s.storeErrno e).modifyDirMeta ((s.storeErrno e).directories dir).metaSlot fun m => m.clear.sealed)
              (((s.storeErrno e).modifyDirMeta ((s.storeErrno e).directories dir).metaSlot
                fun m => m.clear.sealed).dirMeta dir).dh
            have same : SameTree s t := (SameTree.mk rfl rfl rfl rfl rfl rfl (fun _ => rfl)
              (fun _ => rfl) : SameTree s (s.storeErrno e)).trans (cleared.trans wrote)
            have handle : (t.dirMeta dir).dh = (s.directories dir).metaSlot :=
              (same.dirMeta_dh dir).trans (housed.dirMeta_dh dir)
            have named : (t.dirMeta dir).dirName = dirName :=
              (same.dirMeta_dirName dir).trans (housed.named dirName dir found).1
            rw [written]
            refine .inr ?_
            dsimp only
            rw [removChildDirectory_eq, handle]
            cases child : (t.directories parent).childDirMaps.lookup (s.directories dir).metaSlot with
            | none =>
              have absent := child
              rw [same.directories] at absent
              refine .inl ⟨_, dirName, parent, dir, below, rfl, rfl, leads, found, absent, rfl, ?_, errno⟩
              rw [orphanedFrom, erase_of_lookup_none child, Function.update_eq_self]
              exact same
            | some c =>
              have there : t.createdDirs.lookup dirName = some dir := by rw [same.createdDirs]; exact found
              have entry : t.createdDhs.lookup (s.directories dir).metaSlot = some dir := by
                rw [same.createdDhs]
                exact (housed.named dirName dir found).2
              generalize moved : ({ t with
                  directories := orphanedFrom t.directories parent (s.directories dir).metaSlot } :
                FileSystem) = u
              have kept : u.dirMeta dir = t.dirMeta dir := by
                rw [← moved]
                exact congrArg t.dirMetas (orphanedFrom_metaSlot ..)
              have gone : u.removeDirectoryFromCreateNolock dir =
                  ({ u with
                      createdDirs := u.createdDirs.erase dirName
                      createdDhs := u.createdDhs.erase (s.directories dir).metaSlot }, true) := by
                rw [removeDirectoryFromCreateNolock_eq (d := dir) (e := dir), kept, named, handle]
                · rw [kept, named, ← moved]
                  exact there
                · rw [kept, handle, ← moved]
                  exact entry
              dsimp only [Option.isSome]
              rw [gone]
              refine .inr ⟨_, dirName, parent, dir, rfl, below, rfl, ?_⟩
              subst moved
              exact
                { fileSide := same.fileSide
                  leads := leads
                  found := found
                  empty := childCount_eq_zero (Nat.le_zero.mp (not_lt.mp busy))
                  nextDirectory := same.nextDirectory
                  createdDirs := congrArg (·.erase dirName) same.createdDirs
                  createdDhs := congrArg (·.erase (s.directories dir).metaSlot) same.createdDhs
                  directories := congrArg (orphanedFrom · parent (s.directories dir).metaSlot)
                    same.directories
                  dirName := same.dirName }

omit [Crc32] in
theorem addChildDirectory_eq (s : FileSystem) (parent child : DirectoryPtr) :
    (s.addChildDirectory parent child).1 =
      { s with directories := adoptedBy s.directories parent (s.dirMeta child).dh child } := by
  rw [addChildDirectory, adoptedBy]
  split <;> rfl

omit [Crc32] in
theorem adoptedBy_metaSlot (dirs : Nat → Directory) (parent : DirectoryPtr) (x : Nat)
    (child d : DirectoryPtr) : (adoptedBy dirs parent x child d).metaSlot = (dirs d).metaSlot := by
  rw [adoptedBy]
  split
  · rfl
  · exact view_update dirs parent d (·.metaSlot) rfl

omit [Crc32] in
theorem getCreatedDirectory_slash {dirname : Name} (slash : dirname.getLast? = some '/')
    (short : dirname.length < kBlockFsMaxDirNameLen) :
    s.getCreatedDirectory dirname =
      match s.createdDirs.lookup dirname with
      | some d => .ok d
      | none => .error none := by
  have whole : DirHandle.transformPath dirname = .ok dirname := by
    rw [DirHandle.transformPath]
    simp only [slash, if_true]
    rw [if_neg (not_le.mpr short)]
  rw [getCreatedDirectory, whole]
  rfl

omit [Crc32] in
/-- The directory part of a short path is looked up as it stands. -/
theorem getCreatedDirectory_parent {path : Name} (short : path.length < kBlockFsMaxDirNameLen) :
    s.getCreatedDirectory (getDirName path) =
      match s.createdDirs.lookup (getDirName path) with
      | some d => .ok d
      | none => .error none := by
  have length := getDirName_length path
  have room : 1 < kBlockFsMaxDirNameLen := by decide
  exact getCreatedDirectory_slash (getDirName_slash path) (by omega)

omit [Crc32] in
theorem addDirectory2CreateNolock_eq {child : DirectoryPtr}
    (unhandled : s.createdDhs.lookup (s.dirMeta child).dh = none) :
    (s.addDirectory2CreateNolock child).1 =
      if (s.createdDirs.lookup (s.dirMeta child).dirName).isSome then s
      else { s with
        createdDirs := s.createdDirs.insert (s.dirMeta child).dirName child
        createdDhs := s.createdDhs.insert (s.dirMeta child).dh child } := by
  rw [addDirectory2CreateNolock, unhandled]
  split <;> rfl

/-- The rename of a directory fails when the target has no parent, and moves it otherwise. -/
theorem directoryRename_cases (housed : Housed s) (ok : env.IoOk) {path target : Name}
    {dir oldParent : DirectoryPtr} (found : s.createdDirs.lookup path = some dir)
    (leads : s.createdDirs.lookup (getDirName path) = some oldParent)
    (short : path.length < kBlockFsMaxDirNameLen) (room : target.length < kBlockFsMaxDirNameLen) :
    (s.createdDirs.lookup (getDirName target) = none ∧ s.directoryRename env dir target = (s, -1)) ∨
      ∃ u newParent, s.directoryRename env dir target = (u, 0) ∧
        MovedDirectory s u path target dir oldParent newParent ∧ Retitled s u dir target := by
  obtain ⟨named, entry⟩ := housed.named path dir found
  have handle := housed.dirMeta_dh dir
  unfold directoryRename
  rw [getCreatedDirectory_parent room]
  cases newLeads : s.createdDirs.lookup (getDirName target) with
  | none => exact .inl ⟨rfl, rfl⟩
  | some newParent =>
    right
    dsimp only
    rw [named, getCreatedDirectory_parent short, leads]
    dsimp only
    rw [removChildDirectory_eq, handle]
    generalize orphaned : ({ s with
        directories := orphanedFrom s.directories oldParent (s.directories dir).metaSlot } :
      FileSystem) = s₁
    have slot : (s₁.directories dir).metaSlot = (s.directories dir).metaSlot := by
      rw [← orphaned]
      exact orphanedFrom_metaSlot ..
    have kept : s₁.dirMeta dir = s.dirMeta dir := by
      rw [dirMeta, slot, ← orphaned]
      rfl
    have removed : s₁.removeDirectoryFromCreateNolock dir =
        ({ s₁ with
            createdDirs := s₁.createdDirs.erase path
            createdDhs := s₁.createdDhs.erase (s.directories dir).metaSlot }, true) := by
      rw [removeDirectoryFromCreateNolock_eq (d := dir) (e := dir), kept, named, handle]
      · rw [kept, named, ← orphaned]
        exact found
      · rw [kept, handle, ← orphaned]
        exact entry
    dsimp only
    rw [removed]
    dsimp only
    rw [slot]
    generalize erased : ({ s₁ with
        createdDirs := s₁.createdDirs.erase path
        createdDhs := s₁.createdDhs.erase (s.directories dir).metaSlot } : FileSystem) = s₂
    generalize renamed : s₂.modifyDirMeta (s.directories dir).metaSlot
      (fun m => m.setDirName target) = s₃
    have metas : s₃.dirMetas = Function.update s.dirMetas (s.directories dir).metaSlot
        ((s.dirMeta dir).setDirName target) := by
      subst renamed erased orphaned
      rfl
    have tables : s₃.directories =
        orphanedFrom s.directories oldParent (s.directories dir).metaSlot := by
      subst renamed erased orphaned
      rfl
    have dirs : s₃.createdDirs = s.createdDirs.erase path := by
      subst renamed erased orphaned
      rfl
    have dhs : s₃.createdDhs = s.createdDhs.erase (s.directories dir).metaSlot := by
      subst renamed erased orphaned
      rfl
    have own : s₃.dirMeta dir = (s.dirMeta dir).setDirName target := by
      rw [dirMeta, tables, orphanedFrom_metaSlot, metas, Function.update_self]
    have newName : (s₃.dirMeta dir).dirName = target := by
      rw [own]
      exact setDirName_short (s.dirMeta dir) room
    have newHandle : (s₃.dirMeta dir).dh = (s.directories dir).metaSlot := by
      rw [own]
      exact handle
    have others : s₃.fileSide = s.fileSide ∧ s₃.nextDirectory = s.nextDirectory ∧
        s₃.superMeta = s.superMeta ∧ s₃.disk = s.disk := by
      subst renamed erased orphaned
      exact ⟨rfl, rfl, rfl, rfl⟩
    have entered := @addDirectory2CreateNolock_eq s₃ dir (by
      rw [newHandle, dhs, AList.lookup_erase])
    rw [newName, newHandle, dirs, dhs] at entered
    have rest : (s₃.addDirectory2CreateNolock dir).1.fileSide = s₃.fileSide ∧
        (s₃.addDirectory2CreateNolock dir).1.directories = s₃.directories ∧
        (s₃.addDirectory2CreateNolock dir).1.dirMetas = s₃.dirMetas ∧
        (s₃.addDirectory2CreateNolock dir).1.nextDirectory = s₃.nextDirectory ∧
        (s₃.addDirectory2CreateNolock dir).1.superMeta = s₃.superMeta ∧
        (s₃.addDirectory2CreateNolock dir).1.disk = s₃.disk := by
      rw [entered]
      split <;> exact ⟨rfl, rfl, rfl, rfl, rfl, rfl⟩
    generalize (s₃.addDirectory2CreateNolock dir).1 = s₄ at entered rest ⊢
    obtain ⟨files, objects, slots, next, layout, image⟩ := rest
    have handle' : (s₄.dirMeta dir).dh = (s.directories dir).metaSlot := by
      rw [dirMeta, objects, slots]
      exact newHandle
    rw [addChildDirectory_eq, handle', objects, tables]
    generalize adopted : ({ s₄ with
        directories := adoptedBy
          (orphanedFrom s.directories oldParent (s.directories dir).metaSlot) newParent
          (s.directories dir).metaSlot dir } : FileSystem) = s₅
    obtain ⟨u, written, same, _⟩ := writeDirMeta_tree ok s₅ (s₅.dirMeta dir).dh
    have adoptedSlot : (s₅.dirMeta dir).dh = (s.directories dir).metaSlot := by
      rw [dirMeta, ← adopted]
      dsimp only
      rw [adoptedBy_metaSlot, orphanedFrom_metaSlot, slots, metas, Function.update_self]
      exact handle
    have page := written.symm.trans (writeDirMeta_ok ok s₅ _)
    rw [written]
    refine ⟨u, newParent, rfl, ?_, ?_⟩
    rotate_left
    · have metas' : s₅.dirMetas = Function.update s.dirMetas (s.directories dir).metaSlot
          ((s.dirMeta dir).setDirName target) := by rw [← adopted]; exact slots.trans metas
      have layout' : s₅.superMeta = s.superMeta := by
        rw [← others.2.2.1, ← layout, ← adopted]
      have image' : s₅.disk = s.disk := by rw [← others.2.2.2, ← image, ← adopted]
      rw [adoptedSlot, metas', layout', Function.update_self, Function.update_idem] at page
      obtain rfl := congrArg Prod.fst page
      exact ⟨rfl, by rw [← image']; rfl⟩
    exact
      { fileSide := by
          rw [same.fileSide, ← others.1, ← files, ← adopted]
          rfl
        oldLeads := leads
        newLeads := newLeads
        found := found
        nextDirectory := by rw [same.nextDirectory, ← others.2.1, ← next, ← adopted]
        index := by
          rw [same.createdDirs, same.createdDhs, ← adopted]
          dsimp only
          split at entered
          · next taken =>
            rw [if_pos taken, entered]
            exact ⟨dirs, dhs⟩
          · next vacant =>
            rw [if_neg vacant, entered]
            exact ⟨rfl, rfl⟩
        directories := by rw [same.directories, ← adopted]
        dirName := fun i => by
          rw [same.dirName, ← adopted]
          change (s₄.dirMetas i).dirName = _
          rw [slots, metas, Function.update_apply]
          split
          · exact setDirName_short (s.dirMeta dir) room
          · rfl }

/-- A rename of a directory is refused with an errno, reports success after a failure to find the
target's parent, or moves the directory and reports a failure. -/
theorem renameDirectory_cases (housed : Housed s) (ok : env.IoOk) (source target : Name) :
    (∃ e, e ≠ 0 ∧ s.renameDirectory env source target = ({ s with errno := e }, -1)) ∨
    (∃ toDirName, DirHandle.transformPath target = .ok toDirName ∧
      s.createdDirs.lookup (getDirName toDirName) = none ∧
      s.renameDirectory env source target = ({ s with errno := 0 }, 0)) ∨
    ∃ u fromDirName toDirName dir oldParent newParent,
      (s.checkFileExist target true).2 = true ∧ source ≠ ['/'] ∧ target ≠ ['/'] ∧
      DirHandle.transformPath source = .ok fromDirName ∧
      DirHandle.transformPath target = .ok toDirName ∧
      s.renameDirectory env source target = (u, -1) ∧
      MovedDirectory s u fromDirName toDirName dir oldParent newParent := by
  unfold renameDirectory
  cases checked : s.checkFileExist target true with
  | mk e absent =>
    dsimp only
    cases absent with
    | false =>
      obtain ⟨n, rfl, nonzero⟩ := checkFileExist_refused checked
      exact .inl ⟨n, nonzero, rfl⟩
    | true =>
      rw [Bool.not_true, if_neg Bool.false_ne_true]
      by_cases mount : (isMountPoint source || isMountPoint target) = true
      · rw [if_pos mount]
        exact .inl ⟨EPERM ||| EBUSY, by decide, rfl⟩
      rw [if_neg mount]
      have below : source ≠ ['/'] ∧ target ≠ ['/'] := by
        constructor <;> intro root <;> refine mount ?_ <;> simp [isMountPoint_eq.mpr root]
      cases fromParts : DirHandle.transformPath source with
      | error e' =>
        rw [dirTransformPath_error fromParts]
        exact .inl ⟨ENAMETOOLONG, by decide, rfl⟩
      | ok fromDirName =>
        dsimp only
        cases toParts : DirHandle.transformPath target with
        | error e' =>
          rw [dirTransformPath_error toParts]
          exact .inl ⟨ENAMETOOLONG, by decide, rfl⟩
        | ok toDirName =>
          dsimp only
          cases search : (s.storeErrno e).findDirectory fromDirName with
          | error e' =>
            rw [findDirectory_error search]
            exact .inl ⟨ENOENT, by decide, rfl⟩
          | ok result =>
            obtain ⟨oldParent, dir⟩ := result
            obtain ⟨leads, found⟩ := findDirectory_ok search
            dsimp only
            rcases directoryRename_cases (housed.storeErrno e).housed ok found leads
                (dirTransformPath_ok fromParts).2 (dirTransformPath_ok toParts).2 with
              ⟨missing, failed⟩ | ⟨u, newParent, done, moved, _⟩
            · rw [failed]
              exact .inr (.inl ⟨toDirName, rfl, missing, rfl⟩)
            · rw [done]
              refine .inr (.inr ⟨u, fromDirName, toDirName, dir, oldParent, newParent, rfl, below.1,
                below.2, rfl, rfl, rfl, ?_⟩)
              exact ⟨moved.fileSide, leads, moved.newLeads, found, moved.nextDirectory, moved.index,
                moved.directories, moved.dirName⟩

end Calls

end BlockFs.FileSystem
