import BlockFs.ShrinkAccounts

namespace BlockFs.FileSystem

/-- The file an fd is open on. -/
def openedFile (s : FileSystem) (fd : Nat) : Option FilePtr := (s.openFiles.lookup fd).map (·.file)

/-- A change that no file, no account and no index of files notices. -/
structure Quiet (s s' : FileSystem) : Prop where
  resources : SameResources s s'
  data : s'.disk.data = s.disk.data
  createdFhs : s'.createdFhs = s.createdFhs
  createdFiles : s'.createdFiles = s.createdFiles
  opened : ∀ fd, s'.openedFile fd = s.openedFile fd
  nlink : ∀ f, (s'.files f).nlink = (s.files f).nlink
  dh : ∀ i, (s'.fileMetas i).dh = (s.fileMetas i).dh
  fileName : ∀ i, (s'.fileMetas i).fileName = (s.fileMetas i).fileName

/-- The part of the state that the handling of files reads and writes. -/
structure FileSide where
  superMeta : SuperBlockMeta
  maxBlockNum : Nat
  blockIdPool : List Nat
  fileMetas : Nat → FileMeta
  freeFhs : List Nat
  files : Nat → File
  nextFile : Nat
  createdFiles : Map (Nat × Name) FilePtr
  createdFhs : Map Nat FilePtr
  openFiles : Map Nat OpenFile
  parentFiles : Map Nat ParentFile
  fileBlockMetas : Nat → FileBlockMeta
  freeFbhs : List Nat
  diskSize : Nat
  diskData : Nat → UInt8

def fileSide (s : FileSystem) : FileSide :=
  { superMeta := s.superMeta
    maxBlockNum := s.maxBlockNum
    blockIdPool := s.blockIdPool
    fileMetas := s.fileMetas
    freeFhs := s.freeFhs
    files := s.files
    nextFile := s.nextFile
    createdFiles := s.createdFiles
    createdFhs := s.createdFhs
    openFiles := s.openFiles
    parentFiles := s.parentFiles
    fileBlockMetas := s.fileBlockMetas
    freeFbhs := s.freeFbhs
    diskSize := s.disk.size
    diskData := s.disk.data }

/-- Two states that differ in the fds that are free, in what the device holds for the next mount
and in `errno`. -/
structure SameSides (s s' : FileSystem) : Prop where
  fileSide : s'.fileSide = s.fileSide
  dirSide : s'.dirSide = s.dirSide

theorem SameSides.trans {s₁ s₂ s₃ : FileSystem} (first : SameSides s₁ s₂)
    (second : SameSides s₂ s₃) : SameSides s₁ s₃ :=
  ⟨second.fileSide.trans first.fileSide, second.dirSide.trans first.dirSide⟩

/-- A change outside the handling of files is quiet. -/
theorem Quiet.of_fileSide {s s' : FileSystem} (same : s'.fileSide = s.fileSide) : Quiet s s' := by
  simp only [fileSide, FileSide.mk.injEq] at same
  obtain ⟨super, count, pool, metas, fhs, files, next, names, created, opens, parents, blocks, fbhs,
    size, data⟩ := same
  exact
    { resources :=
        { layout := ⟨super, count, size, parents⟩
          nextFile := next
          freeFhs := fhs
          freeFbhs := fbhs
          blockIdPool := pool
          fileBlockMetas := blocks
          metaSlot := fun _ => by rw [files]
          itemMaps := fun _ => by rw [files]
          fh := fun _ => by rw [metas]
          size := fun _ => by rw [metas]
          used := fun _ => by rw [metas]
          isTemp := fun _ => by rw [metas] }
      data := data
      createdFhs := created
      createdFiles := names
      opened := fun _ => by rw [openedFile, openedFile, opens]
      nlink := fun _ => by rw [files]
      dh := fun _ => by rw [metas]
      fileName := fun _ => by rw [metas] }

theorem Quiet.refl (s : FileSystem) : Quiet s s := .of_fileSide rfl

theorem Quiet.trans {s₁ s₂ s₃ : FileSystem} (first : Quiet s₁ s₂) (second : Quiet s₂ s₃) :
    Quiet s₁ s₃ where
  resources := first.resources.trans second.resources
  data := second.data.trans first.data
  createdFhs := second.createdFhs.trans first.createdFhs
  createdFiles := second.createdFiles.trans first.createdFiles
  opened fd := (second.opened fd).trans (first.opened fd)
  nlink f := (second.nlink f).trans (first.nlink f)
  dh i := (second.dh i).trans (first.dh i)
  fileName i := (second.fileName i).trans (first.fileName i)

/-- A change of link counts, flags and open files only. -/
structure Relinked (s s' : FileSystem) : Prop where
  dirSide : s'.dirSide = s.dirSide
  rest : { s'.fileSide with files := s.files, openFiles := s.openFiles } = s.fileSide
  metaSlot : ∀ f, (s'.files f).metaSlot = (s.files f).metaSlot
  itemMaps : ∀ f, (s'.files f).itemMaps = (s.files f).itemMaps

namespace Relinked
variable {s s' : FileSystem} (relinked : Relinked s s')
include relinked

theorem createdFhs : s'.createdFhs = s.createdFhs := congrArg FileSide.createdFhs relinked.rest
theorem createdFiles : s'.createdFiles = s.createdFiles := congrArg FileSide.createdFiles relinked.rest
theorem fileMetas : s'.fileMetas = s.fileMetas := congrArg FileSide.fileMetas relinked.rest
theorem data : s'.disk.data = s.disk.data := congrArg FileSide.diskData relinked.rest

theorem resources : SameResources s s' where
  layout :=
    { superMeta := congrArg FileSide.superMeta relinked.rest
      maxBlockNum := congrArg FileSide.maxBlockNum relinked.rest
      diskSize := congrArg FileSide.diskSize relinked.rest
      parentFiles := congrArg FileSide.parentFiles relinked.rest }
  nextFile := congrArg FileSide.nextFile relinked.rest
  freeFhs := congrArg FileSide.freeFhs relinked.rest
  freeFbhs := congrArg FileSide.freeFbhs relinked.rest
  blockIdPool := congrArg FileSide.blockIdPool relinked.rest
  fileBlockMetas := congrArg FileSide.fileBlockMetas relinked.rest
  metaSlot := relinked.metaSlot
  itemMaps := relinked.itemMaps
  fh _ := by rw [relinked.fileMetas]
  size _ := by rw [relinked.fileMetas]
  used _ := by rw [relinked.fileMetas]
  isTemp _ := by rw [relinked.fileMetas]

theorem quiet (opened : ∀ fd, s'.openedFile fd = s.openedFile fd)
    (nlink : ∀ f, (s'.files f).nlink = (s.files f).nlink) : Quiet s s' where
  resources := relinked.resources
  data := relinked.data
  createdFhs := relinked.createdFhs
  createdFiles := relinked.createdFiles
  opened := opened
  nlink := nlink
  dh _ := by rw [relinked.fileMetas]
  fileName _ := by rw [relinked.fileMetas]

end Relinked

/-- What every entry of a table shows after a change of one entry that does not show. -/
theorem view_update {α β : Type} (table : Nat → α) (i j : Nat) (view : α → β) {a : α}
    (blind : view a = view (table i)) : view (Function.update table i a j) = view (table j) := by
  rw [Function.update_apply]
  split
  · next here => rw [blind, here]
  · rfl

section Directories
variable [Crc32] (s : FileSystem) (env : Env)

omit [Crc32] in
theorem storeErrno_fileSide (e : Option Errno) : (s.storeErrno e).fileSide = s.fileSide := rfl

omit [Crc32] in
theorem errno_fileSide (e : Errno) : { s with errno := e }.fileSide = s.fileSide := rfl

omit [Crc32] in
theorem dirStreams_fileSide (streams : Map Nat DirStream) :
    { s with dirStreams := streams }.fileSide = s.fileSide := rfl

omit [Crc32] in
theorem modifyDirMeta_fileSide (i : Nat) (g : DirMeta → DirMeta) :
    (s.modifyDirMeta i g).fileSide = s.fileSide := rfl

omit [Crc32] in
theorem modifyDirectory_fileSide (d : DirectoryPtr) (g : Directory → Directory) :
    (s.modifyDirectory d g).fileSide = s.fileSide := rfl

omit [Crc32] in
theorem putFd_fileSide (fd : Int) : (s.putFd fd).fileSide = s.fileSide := by
  unfold putFd
  split <;> rfl

omit [Crc32] in
theorem putFd_sameSides (fd : Int) : SameSides s (s.putFd fd) := by
  unfold putFd
  split <;> exact ⟨rfl, rfl⟩

omit [Crc32] in
theorem getFd_sameSides : SameSides s s.getFd.1 := by
  unfold getFd
  split <;> exact ⟨rfl, rfl⟩

omit [Crc32] in
theorem getFd_fileSide : s.getFd.1.fileSide = s.fileSide := by
  unfold getFd
  split <;> rfl

omit [Crc32] in
theorem addDirectory2CreateNolock_fileSide (d : DirectoryPtr) :
    (s.addDirectory2CreateNolock d).1.fileSide = s.fileSide := by
  unfold addDirectory2CreateNolock
  split
  · rfl
  · split <;> rfl

omit [Crc32] in
theorem removeDirectoryFromCreateNolock_fileSide (d : DirectoryPtr) :
    (s.removeDirectoryFromCreateNolock d).1.fileSide = s.fileSide := by
  unfold removeDirectoryFromCreateNolock
  split
  · rfl
  · dsimp only
    split <;> rfl

omit [Crc32] in
theorem addChildDirectory_fileSide (parent child : DirectoryPtr) :
    (s.addChildDirectory parent child).1.fileSide = s.fileSide := by
  unfold addChildDirectory
  split <;> rfl

omit [Crc32] in
theorem removChildDirectory_fileSide (parent child : DirectoryPtr) :
    (s.removChildDirectory parent child).1.fileSide = s.fileSide := by
  unfold removChildDirectory
  split <;> rfl

theorem writeDirMeta_fileSide (dh : Nat) : (s.writeDirMeta env dh).1.fileSide = s.fileSide := by
  unfold writeDirMeta pwriteDirect
  dsimp only
  split <;> rfl

theorem writeDirMetaRetry_fileSide (dh tries : Nat) (s : FileSystem) :
    (writeDirMetaRetry env dh tries s).1.fileSide = s.fileSide := by
  induction tries generalizing s with
  | zero => rfl
  | succ tries ih =>
    have written := s.writeDirMeta_fileSide env dh
    rw [writeDirMetaRetry]
    split
    · next t same => simpa only [same] using written
    · next t same =>
      rw [same] at written
      exact (ih t).trans written

omit [Crc32] in
theorem newDirectory_fileSide (dirname : Name) :
    (s.newDirectory env dirname).1.fileSide = s.fileSide := by
  have taken : (s.newFreeDirectoryNolock env dirname).1.fileSide = s.fileSide := by
    unfold newFreeDirectoryNolock
    split
    · rfl
    · split <;> rfl
  unfold newDirectory
  split
  · rfl
  · split
    · split <;> next same => simpa only [same] using taken
    · split
      · rfl
      · split <;> next same => simpa only [same] using taken

omit [Crc32] in
theorem addDirectory_fileSide {parent : Option DirectoryPtr} {child : DirectoryPtr}
    {s' : FileSystem} {added : Bool} (result : s.addDirectory parent child = .ok (s', added)) :
    s'.fileSide = s.fileSide := by
  unfold addDirectory at result
  grind only [addChildDirectory_fileSide, addDirectory2CreateNolock_fileSide,
    removChildDirectory_fileSide]

theorem createDirectory_fileSide {path : Name} {s' : FileSystem} {r : Int}
    (result : s.createDirectory env path = .ok (s', r)) : s'.fileSide = s.fileSide := by
  unfold createDirectory at result
  grind only [Except.bind_eq_ok, storeErrno_fileSide, errno_fileSide, newDirectory_fileSide,
    writeDirMetaRetry_fileSide, addDirectory_fileSide]

theorem deleteDirectory_fileSide (path : Name) :
    (s.deleteDirectory env path).1.fileSide = s.fileSide := by
  unfold deleteDirectory
  grind only [storeErrno_fileSide, errno_fileSide, modifyDirMeta_fileSide, writeDirMeta_fileSide,
    removChildDirectory_fileSide, removeDirectoryFromCreateNolock_fileSide]

theorem directoryRename_fileSide (dir : DirectoryPtr) (target : Name) :
    (s.directoryRename env dir target).1.fileSide = s.fileSide := by
  unfold directoryRename
  grind only [storeErrno_fileSide, modifyDirMeta_fileSide, writeDirMeta_fileSide,
    removChildDirectory_fileSide, removeDirectoryFromCreateNolock_fileSide,
    addDirectory2CreateNolock_fileSide, addChildDirectory_fileSide]

theorem renameDirectory_fileSide (source target : Name) :
    (s.renameDirectory env source target).1.fileSide = s.fileSide := by
  unfold renameDirectory
  grind only [storeErrno_fileSide, errno_fileSide, directoryRename_fileSide]

omit [Crc32] in
theorem openDirectory_fileSide (path : Name) : (s.openDirectory path).1.fileSide = s.fileSide := by
  unfold openDirectory
  split
  · rfl
  · rfl
  · have taken := s.getFd_fileSide
    split
    next t fd same =>
      rw [same] at taken
      split <;> exact taken

theorem readDirectory_fileSide {stream : Nat} {s' : FileSystem} {item : Option BlockFsDirent}
    (result : s.readDirectory env stream = .ok (s', item)) : s'.fileSide = s.fileSide := by
  unfold readDirectory at result
  grind only [Except.bind_eq_ok, modifyDirMeta_fileSide, dirStreams_fileSide]

omit [Crc32] in
theorem closeDirectory_fileSide (stream : Nat) :
    (s.closeDirectory stream).1.fileSide = s.fileSide := by
  unfold closeDirectory
  split
  · rfl
  · exact s.putFd_fileSide _

end Directories

end BlockFs.FileSystem
