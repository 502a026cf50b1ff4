import BlockFs.Turns

namespace BlockFs.FileSystem

/-- The free list of directory slots lists no slot twice, and only unused ones. -/
structure CleanDhs (s : FileSystem) : Prop where
  nodup : s.freeDhs.Nodup
  unused : ∀ x ∈ s.freeDhs, (s.dirMetas x).used = false

section Directories
variable [Crc32] {s s' : FileSystem} {env : Env}

omit [Crc32] in
theorem CleanDhs.congr (clean : CleanDhs s) (freeDhs : s'.freeDhs = s.freeDhs)
    (used : ∀ x, (s.dirMetas x).used = false → (s'.dirMetas x).used = false) : CleanDhs s' where
  nodup := freeDhs ▸ clean.nodup
  unused x member := used x (clean.unused x (freeDhs ▸ member))

omit [Crc32] in
theorem CleanDhs.storeErrno (clean : CleanDhs s) (e : Option Errno) : CleanDhs (s.storeErrno e) :=
  clean.congr rfl fun _ => id

omit [Crc32] in
theorem CleanDhs.errno (clean : CleanDhs s) (e : Errno) : CleanDhs { s with errno := e } :=
  clean.congr rfl fun _ => id

omit [Crc32] in
/-- A slot that is changed stays unused if it was. -/
theorem CleanDhs.modifyDirMeta (clean : CleanDhs s) (i : Nat) (g : DirMeta → DirMeta)
    (used : ∀ m, m.used = false → (g m).used = false) : CleanDhs (s.modifyDirMeta i g) := by
  refine clean.congr rfl fun x unused => ?_
  dsimp only [FileSystem.modifyDirMeta]
  rw [Function.update_apply]
  split
  · next here => exact used _ (here ▸ unused)
  · exact unused

omit [Crc32] in
theorem CleanDhs.addDirectory2CreateNolock (clean : CleanDhs s) (d : DirectoryPtr) :
    CleanDhs (s.addDirectory2CreateNolock d).1 := by
  unfold FileSystem.addDirectory2CreateNolock
  split
  · exact clean
  · split <;> exact clean.congr rfl fun _ => id

omit [Crc32] in
theorem CleanDhs.removeDirectoryFromCreateNolock (clean : CleanDhs s) (d : DirectoryPtr) :
    CleanDhs (s.removeDirectoryFromCreateNolock d).1 := by
  unfold FileSystem.removeDirectoryFromCreateNolock
  split
  · exact clean
  · dsimp only
    split <;> exact clean.congr rfl fun _ => id

omit [Crc32] in
theorem CleanDhs.addChildDirectory (clean : CleanDhs s) (parent child : DirectoryPtr) :
    CleanDhs (s.addChildDirectory parent child).1 := by
  unfold FileSystem.addChildDirectory
  split <;> exact clean.congr rfl fun _ => id

omit [Crc32] in
theorem CleanDhs.removChildDirectory (clean : CleanDhs s) (parent child : DirectoryPtr) :
    CleanDhs (s.removChildDirectory parent child).1 := by
  unfold FileSystem.removChildDirectory
  split <;> exact clean.congr rfl fun _ => id

theorem CleanDhs.writeDirMeta (clean : CleanDhs s) (dh : Nat) : CleanDhs (s.writeDirMeta env dh).1 := by
  have sealed := clean.modifyDirMeta dh DirMeta.sealed fun _ unused => unused
  unfold FileSystem.writeDirMeta pwriteDirect
  dsimp only
  split <;> exact sealed.congr rfl fun _ => id

theorem CleanDhs.writeDirMetaRetry (clean : CleanDhs s) (dh tries : Nat) :
    CleanDhs (writeDirMetaRetry env dh tries s).1 := by
  induction tries generalizing s with
  | zero => exact clean
  | succ tries ih =>
    have written := @CleanDhs.writeDirMeta _ _ env clean dh
    rw [FileSystem.writeDirMetaRetry]
    split <;> next t same =>
      rw [same] at written
      first
        | exact written
        | exact ih written

omit [Crc32] in
/-- The slot that is taken off the list is not listed any more. -/
theorem CleanDhs.newFreeDirectoryNolock (clean : CleanDhs s) (dirname : Name) :
    CleanDhs (s.newFreeDirectoryNolock env dirname).1 := by
  unfold FileSystem.newFreeDirectoryNolock
  split
  · exact clean.errno _
  · next dh rest free =>
    split
    · exact clean.errno _
    · have nodup := clean.nodup
      rw [free, List.nodup_cons] at nodup
      refine ⟨nodup.2, fun x member => ?_⟩
      have distinct : x ≠ dh := by
        rintro rfl
        exact nodup.1 member
      dsimp only [FileSystem.modifyDirMeta]
      rw [Function.update_of_ne distinct]
      exact clean.unused x (free ▸ List.mem_cons_of_mem dh member)

omit [Crc32] in
theorem CleanDhs.newDirectory (clean : CleanDhs s) (dirname : Name) :
    CleanDhs (s.newDirectory env dirname).1 := by
  have taken := @CleanDhs.newFreeDirectoryNolock _ env clean dirname
  have refused (e : Errno) := clean.errno e
  unfold FileSystem.newDirectory
  grind only

omit [Crc32] in
theorem CleanDhs.addDirectory (clean : CleanDhs s) {parent : Option DirectoryPtr}
    {child : DirectoryPtr} {added : Bool} (result : s.addDirectory parent child = .ok (s', added)) :
    CleanDhs s' := by
  unfold FileSystem.addDirectory at result
  grind only [CleanDhs.addDirectory2CreateNolock, CleanDhs.addChildDirectory,
    CleanDhs.removChildDirectory]

theorem CleanDhs.createDirectory (clean : CleanDhs s) {path : Name} {r : Int}
    (result : s.createDirectory env path = .ok (s', r)) : CleanDhs s' := by
  unfold FileSystem.createDirectory at result
  grind only [Except.bind_eq_ok, CleanDhs.storeErrno, CleanDhs.errno, CleanDhs.newDirectory,
    CleanDhs.writeDirMetaRetry, CleanDhs.addDirectory]

theorem CleanDhs.deleteDirectory (clean : CleanDhs s) (path : Name) :
    CleanDhs (s.deleteDirectory env path).1 := by
  have cleared (t : FileSystem) (clean : CleanDhs t) (i : Nat) :=
    clean.modifyDirMeta i (fun m => m.clear.sealed) fun _ _ => rfl
  unfold FileSystem.deleteDirectory
  grind only [CleanDhs.storeErrno, CleanDhs.errno, CleanDhs.writeDirMeta,
    CleanDhs.removChildDirectory, CleanDhs.removeDirectoryFromCreateNolock]

theorem CleanDhs.directoryRename (clean : CleanDhs s) (dir : DirectoryPtr) (target : Name) :
    CleanDhs (s.directoryRename env dir target).1 := by
  have named (t : FileSystem) (clean : CleanDhs t) (i : Nat) :=
    clean.modifyDirMeta i (fun m => m.setDirName target) fun _ unused => unused
  unfold FileSystem.directoryRename
  grind only [CleanDhs.storeErrno, CleanDhs.writeDirMeta, CleanDhs.removChildDirectory,
    CleanDhs.removeDirectoryFromCreateNolock, CleanDhs.addDirectory2CreateNolock,
    CleanDhs.addChildDirectory]

theorem CleanDhs.renameDirectory (clean : CleanDhs s) (source target : Name) :
    CleanDhs (s.renameDirectory env source target).1 := by
  unfold FileSystem.renameDirectory
  grind only [CleanDhs.storeErrno, CleanDhs.errno, CleanDhs.directoryRename]

theorem CleanDhs.readDirectory (clean : CleanDhs s) {stream : Nat} {item : Option BlockFsDirent}
    (result : s.readDirectory env stream = .ok (s', item)) : CleanDhs s' := by
  have stamped (i : Nat) := clean.modifyDirMeta i (fun m =>
    { m with mtime := env.now, ctime := env.now }.sealed) fun _ unused => unused
  have streams (t : FileSystem) (clean : CleanDhs t) (streams : Map Nat DirStream) :
      CleanDhs { t with dirStreams := streams } := clean.congr rfl fun _ => id
  unfold FileSystem.readDirectory at result
  grind only [Except.bind_eq_ok]

end Directories

/-- The directories up to the files they list. -/
structure Shelves where
  dirMetas : Nat → DirMeta
  freeDhs : List Nat
  dirSlots : Nat → Nat
  childDirMaps : Nat → Map Nat DirectoryPtr
  nextDirectory : Nat
  createdDirs : Map Name DirectoryPtr
  createdDhs : Map Nat DirectoryPtr

def Outer.shelves (o : Outer) : Shelves :=
  { dirMetas := o.dirMetas
    freeDhs := o.freeDhs
    dirSlots := o.dirSlots
    childDirMaps := o.childDirMaps
    nextDirectory := o.nextDirectory
    createdDirs := o.createdDirs
    createdDhs := o.createdDhs }

def shelves (s : FileSystem) : Shelves := s.outer.shelves

/-- The invariants of the directories, in any run. -/
structure Sheltered (s : FileSystem) : Prop where
  housed : Housed s
  clean : CleanDhs s

section Calls
variable [Crc32] {s s' : FileSystem} {env : Env} {op : Op} {r : Int}

omit [Crc32] in
theorem Sheltered.congr (sheltered : Sheltered s) (same : s'.shelves = s.shelves) : Sheltered s' := by
  have dirMetas : s'.dirMetas = s.dirMetas := congrArg Shelves.dirMetas same
  have freeDhs : s'.freeDhs = s.freeDhs := congrArg Shelves.freeDhs same
  have nextDirectory : s'.nextDirectory = s.nextDirectory := congrArg Shelves.nextDirectory same
  have dirs : s'.createdDirs = s.createdDirs := congrArg Shelves.createdDirs same
  have dhs : s'.createdDhs = s.createdDhs := congrArg Shelves.createdDhs same
  have slots : ∀ d, (s'.directories d).metaSlot = (s.directories d).metaSlot :=
    congrFun (congrArg Shelves.dirSlots same)
  have children : ∀ d, (s'.directories d).childDirMaps = (s.directories d).childDirMaps :=
    congrFun (congrArg Shelves.childDirMaps same)
  have slot (d : DirectoryPtr) : s'.dirMeta d = s.dirMeta d := by rw [dirMeta, dirMeta, slots, dirMetas]
  obtain ⟨housed, clean⟩ := sheltered
  refine ⟨⟨fun i => ?_, fun x d => ?_, fun p d => ?_, fun d bound e bound' => ?_, fun d bound => ?_,
    freeDhs ▸ housed.nodup, fun p d => ?_, fun x d => ?_, fun d bound x c => ?_⟩,
    clean.congr freeDhs fun x unused => by rw [dirMetas, unused]⟩
  · rw [dirMetas]
    exact housed.slots i
  · rw [dhs, nextDirectory, slots]
    exact housed.handles x d
  · rw [dirs, nextDirectory]
    exact housed.paths p d
  · rw [nextDirectory] at bound bound'
    rw [slots, slots]
    exact housed.apart d bound e bound'
  · rw [nextDirectory] at bound
    rw [slots, freeDhs]
    exact housed.fresh d bound
  · rw [dirs, slot, dhs, slots]
    exact housed.named p d
  · rw [dhs, slot, dirs]
    exact housed.pathed x d
  · rw [nextDirectory] at bound ⊢
    rw [children, slots]
    exact housed.children d bound x c

omit [Crc32] in
theorem shelves_of_outer (same : s'.outer = s.outer) : s'.shelves = s.shelves :=
  congrArg Outer.shelves same

theorem createFile_shelves (filename : Name) (tmpfile : Bool) :
    (s.createFile env filename tmpfile).1.shelves = s.shelves := by
  have free (s : FileSystem) (dh : Nat) (nameOf : Nat → Name) (isTemp : Bool) :
      (s.newFreeFile dh nameOf isTemp).1.shelves = s.shelves := by
    unfold newFreeFile
    split
    · rfl
    · split <;> rfl
  have made (s : FileSystem) (dirname filename : Name) (tmpfile : Bool) :
      (s.newFile env dirname filename tmpfile).1.shelves = s.shelves := by
    have stamped (t : FileSystem) (i : Nat) (g : FileMeta → FileMeta) :
        (t.modifyFileMeta i g).shelves = t.shelves := rfl
    have refused (e : Errno) : { s with errno := e }.shelves = s.shelves := rfl
    unfold newFile newFreeTmpFileNolock newFreeFileNolock
    grind only
  have entered (s : FileSystem) (dirname filename : Name) (tmpfile : Bool) :
      (s.createFileIn env dirname filename tmpfile).1.shelves = s.shelves := by
    have written (t : FileSystem) (f : FilePtr) : (t.writeMeta env f).1.shelves = t.shelves :=
      shelves_of_outer (writeMeta_outer t env f)
    have added (t : FileSystem) (d : DirectoryPtr) (f : FilePtr) :
        { t.addFileToDirectory d f with errno := 0 }.shelves = t.shelves :=
      shelves_of_outer (addFileToDirectory_outer t f d)
    unfold createFileIn
    grind only
  unfold createFile
  split
  · exact entered _ _ _ _
  · split
    · rfl
    · exact entered _ _ _ _

omit [Crc32] in
theorem shelves_of_beneath (same : s'.beneath = s.beneath) : s'.shelves = s.shelves :=
  congrArg (fun b : Beneath =>
    { dirMetas := b.dirMetas
      freeDhs := b.freeDhs
      dirSlots := b.dirSlots
      childDirMaps := b.childDirMaps
      nextDirectory := b.nextDirectory
      createdDirs := b.createdDirs
      createdDhs := b.createdDhs : Shelves }) same

/-- Every turn keeps the directories in order. -/
theorem Sheltered.turn (sheltered : Sheltered s) (turn : Turn env s s') : Sheltered s' := by
  obtain ⟨housed, clean⟩ := sheltered
  cases turn with
  | surface same => exact Sheltered.congr ⟨housed, clean⟩ (shelves_of_beneath same)
  | created path tmpfile => exact Sheltered.congr ⟨housed, clean⟩ (createFile_shelves path tmpfile)
  | truncated _ result =>
    exact Sheltered.congr ⟨housed, clean⟩ (shelves_of_outer (ftruncate_outer result))
  | stamped => exact Sheltered.congr ⟨housed, clean⟩ rfl
  | discarded => exact Sheltered.congr ⟨housed, clean⟩ (shelves_of_outer (unlinkFileNolock_outer _))
  | unlinked path => exact Sheltered.congr ⟨housed, clean⟩ (shelves_of_outer (unlink_outer path))
  | renamed _ target => exact Sheltered.congr ⟨housed, clean⟩ (shelves_of_outer (fileRename_outer target))
  | madeDirectory result =>
    exact ⟨(housed.createDirectory env result).housed, clean.createDirectory result⟩
  | droppedDirectory path => exact ⟨(housed.deleteDirectory env path).housed, clean.deleteDirectory path⟩
  | movedDirectory source target =>
    exact ⟨(housed.renameDirectory env source target).housed, clean.renameDirectory source target⟩
  | readDirectory result => exact ⟨(housed.readDirectory env result).housed, clean.readDirectory result⟩

/-- Every call keeps the directories in order, whatever its result. -/
theorem Sheltered.call (sheltered : Sheltered s) (result : s.call env op = .ok (s', r)) :
    Sheltered s' := by
  have turns := call_turns result
  clear result
  induction turns with
  | refl => exact sheltered
  | tail _ turn ih => exact ih.turn turn

end Calls

end BlockFs.FileSystem
