import BlockFs.Directories
import BlockFs.FreeLists

namespace BlockFs.FileSystem

/-- Nothing a lookup or the device shows of the directories differs. -/
structure SameDirectories (s s' : FileSystem) : Prop where
  createdDirs : ∀ path, s'.createdDirs.lookup path = s.createdDirs.lookup path
  createdDhs : ∀ dh, s'.createdDhs.lookup dh = s.createdDhs.lookup dh
  childDirMaps : ∀ d dh, (s'.directories d).childDirMaps.lookup dh =
    (s.directories d).childDirMaps.lookup dh
  dirName : ∀ d, (s'.dirMeta d).dirName = (s.dirMeta d).dirName
  disk : s'.disk = s.disk

/-- The request succeeds exactly when `target` has become the directory `source` was, and it changes
nothing when it fails. -/
def RenamesOrKeeps [Crc32] (s : FileSystem) (env : Env) (source target : Name) : Prop :=
  let (s', r) := s.renameDirectory env source target
  (r = 0 ↔ ∃ dir, s.getCreatedDirectory source = .ok dir ∧ s'.getCreatedDirectory target = .ok dir ∧
    ∀ d, s'.getCreatedDirectory source ≠ .ok d) ∧
  (r = -1 → SameDirectories s s')

/-- A check in front of `Directory::rename` fails: a file is in the way, one of the paths is the
mount point or too long, or the source or its parent does not exist. -/
def TurnedBack (s : FileSystem) (source target : Name) : Prop :=
  (s.checkFileExist target true).2 = false ∨
  (isMountPoint source || isMountPoint target) = true ∨
  (∃ e, DirHandle.transformPath source = .error e) ∨
  (∃ e, DirHandle.transformPath target = .error e) ∨
  ∃ path e, DirHandle.transformPath source = .ok path ∧ s.findDirectory path = .error e

/-- Both paths name one directory, its parent lists it, and the device has its page of slots as
memory has it, up to the checksum of its own slot. -/
def RenamesInPlace [Crc32] (s : FileSystem) (source target : Name) : Prop :=
  ∃ path parent dir, DirHandle.transformPath source = .ok path ∧
    DirHandle.transformPath target = .ok path ∧ s.findDirectory path = .ok (parent, dir) ∧
    ((s.directories parent).childDirMaps.lookup (s.directories dir).metaSlot).isSome ∧
    ∀ i, pageAlignIndex (kBlockFsPageSize / s.superMeta.dirMetaSize) (s.directories dir).metaSlot ≤ i →
      i < pageAlignIndex (kBlockFsPageSize / s.superMeta.dirMetaSize) (s.directories dir).metaSlot +
        dirsPerPage →
      s.disk.dirMetas i =
        Function.update s.dirMetas (s.directories dir).metaSlot (s.dirMeta dir).sealed i

theorem Disk.apply_dirPage_eq_self {d : Disk} {a : Nat} {slots : Nat → DirMeta} :
    d.apply (.dirPage a slots) = d ↔ ∀ i, a ≤ i → i < a + dirsPerPage → d.dirMetas i = slots i := by
  constructor
  · intro same i lower upper
    have at_ := congrFun (congrArg Disk.dirMetas same) i
    simp only [Disk.apply, lower, upper, and_self, if_true] at at_
    exact at_.symm
  · intro same
    have slots_ : (fun i => if a ≤ i ∧ i < a + dirsPerPage then slots i else d.dirMetas i) =
        d.dirMetas := by
      funext i
      split
      · next inside => exact (same i inside.1 inside.2).symm
      · rfl
    rw [Disk.apply, slots_]

theorem getCreatedDirectory_eq {s : FileSystem} {path dirName : Name} {d : DirectoryPtr}
    (parts : DirHandle.transformPath path = .ok dirName) :
    s.getCreatedDirectory path = .ok d ↔ s.createdDirs.lookup dirName = some d := by
  rw [getCreatedDirectory, parts, Except.ok_bind]
  cases s.createdDirs.lookup dirName <;> simp

theorem findDirectory_eq {s : FileSystem} {path : Name} {parent dir : DirectoryPtr} :
    s.findDirectory path = .ok (parent, dir) ↔
      s.createdDirs.lookup (getDirName path) = some parent ∧ s.createdDirs.lookup path = some dir := by
  rw [findDirectory]
  cases s.createdDirs.lookup (getDirName path) with
  | none => simp
  | some parent' =>
    cases s.createdDirs.lookup path <;> simp

section Renaming
variable [Crc32] {s u : FileSystem} {env : Env} {source target path newPath : Name}
  {dir oldParent newParent : DirectoryPtr}

theorem renameDirectory_turnedBack (back : s.TurnedBack source target) :
    ∃ e, s.renameDirectory env source target = (s.storeErrno e, -1) := by
  unfold renameDirectory
  cases checked : s.checkFileExist target true with
  | mk e absent =>
    dsimp only
    cases absent with
    | false => exact ⟨e, rfl⟩
    | true =>
      rw [Bool.not_true, if_neg Bool.false_ne_true]
      by_cases mount : (isMountPoint source || isMountPoint target) = true
      · rw [if_pos mount]
        exact ⟨some (EPERM ||| EBUSY), rfl⟩
      rw [if_neg mount]
      rcases back with stopped | stopped | back
      · simp [checked] at stopped
      · exact absurd stopped mount
      cases fromParts : DirHandle.transformPath source with
      | error e' => exact ⟨e' <|> e, by cases e' <;> rfl⟩
      | ok path =>
        cases toParts : DirHandle.transformPath target with
        | error e' => exact ⟨e' <|> e, by cases e' <;> rfl⟩
        | ok newPath =>
          rcases back with ⟨e', failed⟩ | ⟨e', failed⟩ | ⟨path', e', parts, failed⟩
          · simp [fromParts] at failed
          · simp [toParts] at failed
          · obtain rfl := Except.ok.inj (fromParts.symm.trans parts)
            have search : (s.storeErrno e).findDirectory path = .error e' := failed
            dsimp only
            rw [search]
            exact ⟨e' <|> e, by cases e' <;> rfl⟩

/-- A request that passes the checks gets the negated answer of `Directory::rename`. -/
theorem renameDirectory_passed (passed : ¬s.TurnedBack source target) :
    ∃ e path newPath parent dir, DirHandle.transformPath source = .ok path ∧
      DirHandle.transformPath target = .ok newPath ∧ s.findDirectory path = .ok (parent, dir) ∧
      s.renameDirectory env source target =
        if ((s.storeErrno e).directoryRename env dir newPath).2 = 0 then
          (((s.storeErrno e).directoryRename env dir newPath).1, -1)
        else ({ ((s.storeErrno e).directoryRename env dir newPath).1 with errno := 0 }, 0) := by
  rw [TurnedBack, not_or, not_or, not_or, not_or] at passed
  obtain ⟨clear, below, fromValid, toValid, found⟩ := passed
  cases checked : s.checkFileExist target true with
  | mk e absent =>
    have absent_ : absent = true := by simpa [checked] using clear
    cases fromParts : DirHandle.transformPath source with
    | error e' => exact absurd ⟨e', fromParts⟩ fromValid
    | ok path =>
      cases toParts : DirHandle.transformPath target with
      | error e' => exact absurd ⟨e', toParts⟩ toValid
      | ok newPath =>
        cases search : s.findDirectory path with
        | error e' => exact absurd ⟨path, e', fromParts, search⟩ found
        | ok result =>
          have search' : (s.storeErrno e).findDirectory path = .ok result := search
          refine ⟨e, path, newPath, result.1, result.2, rfl, rfl, search, ?_⟩
          unfold renameDirectory
          rw [checked]
          dsimp only
          rw [absent_, Bool.not_true, if_neg Bool.false_ne_true, if_neg below, fromParts, toParts]
          dsimp only
          rw [search']

omit [Crc32] in
theorem MovedDirectory.metaSlot (moved : MovedDirectory s u path newPath dir oldParent newParent)
    (d : DirectoryPtr) : (u.directories d).metaSlot = (s.directories d).metaSlot := by
  rw [moved.directories, adoptedBy_metaSlot, orphanedFrom_metaSlot]

omit [Crc32] in
/-- A directory that has got another name shows it. -/
theorem MovedDirectory.renamed (moved : MovedDirectory s u path newPath dir oldParent newParent)
    (housed : Housed s) (differ : path ≠ newPath) : ¬SameDirectories s u := by
  intro same
  have shown := same.dirName dir
  rw [dirMeta, moved.metaSlot, moved.dirName, if_pos rfl, (housed.named path dir moved.found).1] at shown
  exact differ shown.symm

omit [Crc32] in
/-- A directory renamed to its own name is again where it was, and listed by its parent. -/
theorem MovedDirectory.again (moved : MovedDirectory s u path path dir oldParent newParent)
    (housed : Housed s) :
    (∀ p, u.createdDirs.lookup p = s.createdDirs.lookup p) ∧
    (∀ x, u.createdDhs.lookup x = s.createdDhs.lookup x) ∧
    (∀ d, (u.dirMeta d).dirName = (s.dirMeta d).dirName) ∧
    u.directories = Function.update s.directories oldParent
      { s.directories oldParent with
        childDirMaps := ((s.directories oldParent).childDirMaps.erase (s.directories dir).metaSlot).insert
          (s.directories dir).metaSlot dir } := by
  obtain ⟨name, entry⟩ := housed.named path dir moved.found
  obtain rfl := Option.some.inj (moved.oldLeads.symm.trans moved.newLeads)
  have index := moved.index
  rw [AList.lookup_erase, Option.isSome_none, if_neg Bool.false_ne_true] at index
  refine ⟨fun p => ?_, fun x => ?_, fun d => ?_, ?_⟩
  · rw [index.1]
    by_cases at_ : p = path
    · rw [at_, AList.lookup_insert, moved.found]
    · rw [AList.lookup_insert_ne at_, AList.lookup_erase_ne at_]
  · rw [index.2]
    by_cases at_ : x = (s.directories dir).metaSlot
    · rw [at_, AList.lookup_insert, entry]
    · rw [AList.lookup_insert_ne at_, AList.lookup_erase_ne at_]
  · rw [dirMeta, moved.metaSlot, moved.dirName]
    split
    · next at_ => rw [dirMeta, at_, ← name, dirMeta]
    · rfl
  · rw [moved.directories, adoptedBy, orphanedFrom, Function.update_self, AList.lookup_erase,
      Option.isSome_none, if_neg Bool.false_ne_true, Function.update_idem]

omit [Crc32] in
theorem MovedDirectory.sameChildren (moved : MovedDirectory s u path path dir oldParent newParent)
    (housed : Housed s) :
    (∀ d x, (u.directories d).childDirMaps.lookup x = (s.directories d).childDirMaps.lookup x) ↔
      ((s.directories oldParent).childDirMaps.lookup (s.directories dir).metaSlot).isSome := by
  rw [(moved.again housed).2.2.2]
  constructor
  · intro same
    have at_ := same oldParent (s.directories dir).metaSlot
    rw [Function.update_self, AList.lookup_insert] at at_
    rw [← at_]
    rfl
  · intro listed d x
    obtain ⟨c, child⟩ := Option.isSome_iff_exists.mp listed
    obtain ⟨bound, slot⟩ :=
      housed.children oldParent (housed.paths _ _ moved.oldLeads) (s.directories dir).metaSlot c child
    obtain rfl := housed.apart c bound dir (housed.paths path dir moved.found) slot
    by_cases here : d = oldParent
    · subst here
      rw [Function.update_self]
      by_cases at_ : x = (s.directories c).metaSlot
      · rw [at_, AList.lookup_insert, child]
      · rw [AList.lookup_insert_ne at_, AList.lookup_erase_ne at_]
    · rw [Function.update_of_ne here]

theorem Retitled.sameDisk (retitled : Retitled s u dir path) (name : (s.dirMeta dir).dirName = path)
    (short : path.length < kBlockFsMaxDirNameLen) :
    u.disk = s.disk ↔
      ∀ i, pageAlignIndex (kBlockFsPageSize / s.superMeta.dirMetaSize) (s.directories dir).metaSlot ≤ i →
        i < pageAlignIndex (kBlockFsPageSize / s.superMeta.dirMetaSize) (s.directories dir).metaSlot +
          dirsPerPage →
        s.disk.dirMetas i =
          Function.update s.dirMetas (s.directories dir).metaSlot (s.dirMeta dir).sealed i := by
  have kept : (s.dirMeta dir).setDirName path = s.dirMeta dir := by
    rw [DirMeta.setDirName, List.take_of_length_le short.le, ← name]
  rw [retitled.disk, Disk.apply_dirPage_eq_self, retitled.dirMetas, kept]

end Renaming

section Settled
variable [Crc32] {s : FileSystem} {guard : FileSystem → Op → Prop} {env : Env}

end Settled

end BlockFs.FileSystem
