import BlockFs.Operations
import BlockFs.Lib.Fallible

namespace BlockFs

/-- The number of data blocks a formatted device offers. -/
def blockCount [Crc32] (deviceSize : Nat) : Nat :=
  (SuperBlock.formatAllMeta deviceSize).currBlockNum % 2 ^ 32

section Formatted
variable [Crc32] (i : Nat)

@[simp] theorem formattedDir_crc : (formattedDir i).crc = (formattedDir i).calcCrc := rfl
@[simp] theorem formattedDir_used : (formattedDir i).used = false := rfl
@[simp] theorem formattedFile_crc : (formattedFile i).crc = (formattedFile i).calcCrc := rfl
@[simp] theorem formattedFile_used : (formattedFile i).used = false := rfl
@[simp] theorem formattedFile_fh : (formattedFile i).fh = i := rfl
@[simp] theorem formattedFile_size : (formattedFile i).size = 0 := rfl
@[simp] theorem formattedFileBlock_crc :
    (formattedFileBlock i).crc = (formattedFileBlock i).calcCrc := rfl
@[simp] theorem formattedFileBlock_used : (formattedFileBlock i).used = false := rfl
@[simp] theorem formattedFileBlock_usedBlockNum : (formattedFileBlock i).usedBlockNum = 0 := rfl

end Formatted

namespace Disk
variable [Crc32]

/-- A device that was large enough for its metadata, right after `Format`. -/
def formatted (d : Disk) : Disk :=
  { d with
    superMeta := SuperBlock.formatAllMeta d.size
    dirMetas := formattedDir
    fileMetas := formattedFile
    fileBlockMetas := formattedFileBlock }

theorem format_eq {d : Disk} (success : d.format.2 = true) : d.format.1 = d.formatted := by
  simp only [format] at success
  split at success
  · simp at success
  · split at success
    · simp at success
    · split at success
      · simp at success
      · split at success
        · simp at success
        · simp only [format, formatted, *, if_false]

theorem format_success {d : Disk} (large : 675041280 ≤ d.size) : d.format.2 = true := by
  have super : ¬d.size < kSuperBlockOffset + kSuperBlockSize :=
    not_lt.mpr (le_trans (by decide) large)
  obtain ⟨dirs, dirs'⟩ := SuperBlock.formatAllMeta_dirs d.size
  obtain ⟨files, files'⟩ := SuperBlock.formatAllMeta_files d.size
  obtain ⟨fileBlocks, fileBlocks'⟩ := SuperBlock.formatAllMeta_fileBlocks d.size
  rw [format]
  dsimp only
  rw [if_neg super, if_neg (by omega), if_neg (by omega), if_neg (by omega)]

end Disk

namespace FileSystem
variable [Crc32]

/-- Every slot of a formatted device is loaded as free. -/
def initialized (d : Disk) : FileSystem :=
  let super := SuperBlock.formatAllMeta d.size
  { unmounted d.formatted with
    blockIdPool := List.range' 0 (blockCount d.size)
    maxBlockNum := blockCount d.size
    freeDhs := List.range' 0 super.maxFileNum
    freeFhs := List.range' 0 super.maxFileNum
    freeFbhs := List.range' 0 super.maxFileBlockNum }

theorem loadLoop_initDirSlot (slots : List Nat) (s : FileSystem)
    (free : ∀ i ∈ slots, s.dirMetas i = formattedDir i) :
    loadLoop initDirSlot slots s = ({ s with freeDhs := s.freeDhs ++ slots }, true) := by
  induction slots generalizing s with
  | nil => simp [loadLoop]
  | cons i is ih =>
    have head : initDirSlot s i = ({ s with freeDhs := s.freeDhs ++ [i] }, true) := by
      simp [initDirSlot, free i (by simp)]
    rw [loadLoop, head]
    dsimp only
    rw [ih, List.append_assoc, List.singleton_append]
    intro j member
    exact free j (by simp [member])

theorem loadLoop_initFileSlot (env : Env) (slots : List Nat) (s : FileSystem)
    (free : ∀ i ∈ slots, s.fileMetas i = formattedFile i) :
    loadLoop (initFileSlot env) slots s = ({ s with freeFhs := s.freeFhs ++ slots }, true) := by
  induction slots generalizing s with
  | nil => simp [loadLoop]
  | cons i is ih =>
    have head : initFileSlot env s i = ({ s with freeFhs := s.freeFhs ++ [i] }, true) := by
      simp [initFileSlot, free i (by simp)]
    rw [loadLoop, head]
    dsimp only
    rw [ih, List.append_assoc, List.singleton_append]
    intro j member
    exact free j (by simp [member])

theorem fileBlockLoop_free (env : Env) (slots : List Nat) (s : FileSystem)
    (free : ∀ i ∈ slots, s.fileBlockMetas i = formattedFileBlock i) :
    fileBlockLoop env slots s = .ok ({ s with freeFbhs := s.freeFbhs ++ slots }, true) := by
  induction slots generalizing s with
  | nil => simp [fileBlockLoop]
  | cons i is ih =>
    have head : initFileBlockSlot s env i = .ok ({ s with freeFbhs := s.freeFbhs ++ [i] }, true) := by
      simp [initFileBlockSlot, free i (by simp)]
    rw [fileBlockLoop, head, Except.ok_bind]
    dsimp only
    rw [ih, List.append_assoc, List.singleton_append]
    intro j member
    exact free j (by simp [member])

theorem superInitializeMeta_formatted (d : Disk) :
    (unmounted d.formatted).superInitializeMeta = true := by
  simp [superInitializeMeta, unmounted, Disk.formatted, SuperBlock.formatAllMeta,
    SuperBlockMeta.calcCrc]

theorem blockInitializeMeta_formatted (d : Disk) :
    (unmounted d.formatted).blockInitializeMeta =
      { unmounted d.formatted with
        blockIdPool := List.range' 0 (blockCount d.size), maxBlockNum := blockCount d.size } := by
  have pool : (unmounted d.formatted).blockIdPool = [] := rfl
  have count : (unmounted d.formatted).maxBlockNum = 0 := rfl
  rw [blockInitializeMeta, pool, count, List.nil_append, Nat.sub_zero]
  rfl

/-- Loading the directories of a formatted device frees every slot of their table. -/
theorem dirInitializeMeta_free {s : FileSystem} (table : s.dirMetas = formattedDir)
    (free : s.freeDhs = []) (created : s.createdDirs = ∅) :
    s.dirInitializeMeta =
      ({ s with freeDhs := List.range' 0 s.superMeta.maxFileNum }, true) := by
  have loop := loadLoop_initDirSlot (List.range' 0 s.superMeta.maxFileNum) s fun i _ => by rw [table]
  rw [free, List.nil_append] at loop
  rw [dirInitializeMeta, loop]
  dsimp only
  rw [created]
  rfl

theorem fileInitializeMeta_free {s : FileSystem} (env : Env) (table : s.fileMetas = formattedFile)
    (free : s.freeFhs = []) :
    s.fileInitializeMeta env =
      ({ s with freeFhs := List.range' 0 s.superMeta.maxFileNum }, true) := by
  have loop := loadLoop_initFileSlot env (List.range' 0 s.superMeta.maxFileNum) s
    fun i _ => by rw [table]
  rw [free, List.nil_append] at loop
  rw [fileInitializeMeta, loop]

theorem fileBlockInitializeMeta_free {s : FileSystem} (env : Env)
    (table : s.fileBlockMetas = formattedFileBlock) (free : s.freeFbhs = []) :
    s.fileBlockInitializeMeta env =
      .ok ({ s with freeFbhs := List.range' 0 s.superMeta.maxFileBlockNum }, true) := by
  have loop := fileBlockLoop_free env (List.range' 0 s.superMeta.maxFileBlockNum) s
    fun i _ => by rw [table]
  rw [free, List.nil_append] at loop
  rw [fileBlockInitializeMeta, loop]

theorem initializeMeta_formatted (env : Env) (d : Disk) :
    (unmounted d.formatted).initializeMeta env = .ok (initialized d, true) := by
  rw [initializeMeta, superInitializeMeta_formatted, if_neg (by simp),
    blockInitializeMeta_formatted, dirInitializeMeta_free rfl rfl rfl]
  dsimp only
  rw [fileInitializeMeta_free env rfl rfl]
  dsimp only
  rw [fileBlockInitializeMeta_free env rfl rfl]
  rfl

omit [Crc32] in
theorem range'_slots (n : Nat) : List.range' 0 (n + 1) = 0 :: List.range' 1 n := by
  rw [List.range'_succ]

/-- The directory slots once the root has been entered in the first of them. -/
def rootTable (env : Env) : Nat → DirMeta :=
  Function.update formattedDir 0
    { (formattedDir 0).setDirName ['/'] with
      used := true, dh := 0, atime := env.now, mtime := env.now, ctime := env.now }.sealed

/-- A fresh mount: everything is free but the first directory slot, which holds the root. -/
def mounted (d : Disk) (env : Env) (attempts : Nat) : FileSystem :=
  { initialized d with
    dirMetas := rootTable env
    freeDhs := List.range' 1 99999
    directories := Function.update (unmounted d.formatted).directories 0
      { metaSlot := 0, nlink := 0, itemMaps := ∅, childDirMaps := ∅ }
    nextDirectory := 1
    createdDirs := (∅ : Map Name DirectoryPtr).insert ['/'] 0
    createdDhs := (∅ : Map Nat DirectoryPtr).insert 0 0
    disk := d.formatted.apply (.dirPage 0 (rootTable env))
    journal := [.dirPage 0 (rootTable env)]
    attempts := attempts
    errno := 0 }

/-- A retried directory write that succeeds leaves what one successful write leaves, up to the count
of attempts. -/
theorem writeDirMetaRetry_true {env : Env} {dh tries : Nat} {s s' : FileSystem}
    (written : writeDirMetaRetry env dh tries s = (s', true)) :
    s' =
      { s with
        dirMetas := Function.update s.dirMetas dh (s.dirMetas dh).sealed
        disk := s.disk.apply (.dirPage (pageAlignIndex (kBlockFsPageSize / s.superMeta.dirMetaSize) dh)
          (Function.update s.dirMetas dh (s.dirMetas dh).sealed))
        journal := s.journal ++
          [.dirPage (pageAlignIndex (kBlockFsPageSize / s.superMeta.dirMetaSize) dh)
            (Function.update s.dirMetas dh (s.dirMetas dh).sealed)]
        attempts := s'.attempts } := by
  induction tries generalizing s with
  | zero => simp [writeDirMetaRetry] at written
  | succ tries ih =>
    by_cases ok : env.writeOk s.attempts = true
    · simp [writeDirMetaRetry, writeDirMeta, pwriteDirect, ok] at written
      rw [← written]
    · simp [writeDirMetaRetry, writeDirMeta, pwriteDirect, ok] at written
      refine (ih written).trans ?_
      simp

theorem writeDirMetaRetry_first {env : Env} {s : FileSystem} (ok : env.writeOk s.attempts = true)
    (dh tries : Nat) :
    ∃ s', writeDirMetaRetry env dh (tries + 1) s = (s', true) ∧ s'.attempts = s.attempts + 1 := by
  simp [writeDirMetaRetry, writeDirMeta, pwriteDirect, ok]

theorem newDirectory_root (env : Env) (d : Disk) :
    (initialized d).newDirectory env ['/'] =
      ({ initialized d with
          dirMetas := Function.update formattedDir 0
            { (formattedDir 0).setDirName ['/'] with
              used := true, dh := 0, atime := env.now, mtime := env.now, ctime := env.now }
          freeDhs := List.range' 1 99999
          directories := Function.update (unmounted d.formatted).directories 0
            { metaSlot := 0, nlink := 0, itemMaps := ∅, childDirMaps := ∅ }
          nextDirectory := 1 }, some (none, 0)) := by
  have dirs : (initialized d).createdDirs = ∅ := rfl
  have slots : (initialized d).freeDhs = 0 :: List.range' 1 99999 := range'_slots 99999
  have table : (initialized d).dirMetas = formattedDir := rfl
  rw [newDirectory, dirs, if_neg (by simp), if_pos (by decide), newFreeDirectoryNolock, slots]
  dsimp only
  rw [table, if_neg (by simp [formattedDir])]
  rfl

/-- The state in which the root directory is about to be written. -/
def rootPending (d : Disk) (env : Env) : FileSystem := ((initialized d).newDirectory env ['/']).1

/-- The end of `CreateDirectory` for the root, once it is written. -/
def rootWritten (s : FileSystem) : Except Fault (FileSystem × Int) :=
  (s.addDirectory none 0).bind fun (s, added) =>
    if added then .ok ({ s with errno := 0 }, 0) else .ok (s, -1)

theorem makeMountPoint_root (env : Env) (d : Disk) :
    (initialized d).makeMountPoint env ['/'] =
      match writeDirMetaRetry env 0 3 (rootPending d env) with
      | (s, false) => .ok (s, -1)
      | (s, true) => s.rootWritten := by
  have absent : (initialized d).getCreatedDirectory ['/'] = .error none := rfl
  have unchecked : (initialized d).checkFileExist ['/'] true = (none, true) := rfl
  have same : (initialized d).storeErrno none = initialized d := rfl
  have path : DirHandle.transformPath ['/'] = .ok ['/'] := rfl
  rw [makeMountPoint, absent]
  dsimp only
  rw [createDirectory, unchecked]
  dsimp only
  rw [same, if_neg (by simp), path]
  dsimp only
  rw [rootPending, newDirectory_root]
  rfl

theorem rootPending_sealed (d : Disk) (env : Env) :
    Function.update (rootPending d env).dirMetas 0 ((rootPending d env).dirMetas 0).sealed =
      rootTable env := by
  rw [rootPending, newDirectory_root]
  dsimp only
  rw [Function.update_self, Function.update_idem]
  rfl

theorem rootWritten_mounted {d : Disk} {env : Env} {tries : Nat} {s : FileSystem}
    (written : writeDirMetaRetry env 0 tries (rootPending d env) = (s, true)) :
    s.rootWritten = .ok (mounted d env s.attempts, 0) := by
  have state := writeDirMetaRetry_true written
  rw [rootPending_sealed, rootPending, newDirectory_root] at state
  generalize s.attempts = attempts at state
  rw [state]
  rfl

/-- Whatever mounts after a format is the fresh mount, on a device that holds its metadata. -/
theorem mountFileSystem_formatted {env : Env} {d : Disk} {s : FileSystem}
    (success : mountFileSystem env d.formatted = .ok (s, 0)) :
    ∃ attempts, s = mounted d env attempts ∧ 675282944 ≤ d.size := by
  rw [mountFileSystem] at success
  dsimp only at success
  rw [superInitializeMeta_formatted, if_neg (by simp)] at success
  split at success
  · simp at success
  · next large =>
    rw [initializeMeta_formatted, Except.ok_bind] at success
    dsimp only at success
    rw [makeMountPoint_root] at success
    cases outcome : writeDirMetaRetry env 0 3 (rootPending d env) with
    | mk t written =>
      cases written with
      | false => simp [outcome] at success
      | true =>
        refine ⟨t.attempts, ?_, not_lt.mp large⟩
        simp only [outcome, rootWritten_mounted outcome, Except.ok_bind] at success
        simpa using success.symm

theorem mountFileSystem_eq (env : Env) {d : Disk} (large : 675282944 ≤ d.size)
    (ok : env.writeOk 0 = true) :
    mountFileSystem env d.formatted = .ok (mounted d env 1, 0) := by
  have untried : (rootPending d env).attempts = 0 := by
    rw [rootPending, newDirectory_root]
    rfl
  obtain ⟨t, written, attempts⟩ := writeDirMetaRetry_first (s := rootPending d env)
    (by rw [untried]; exact ok) 0 2
  have fits : ¬d.formatted.size < (unmounted d.formatted).superMeta.blockDataStartOffset :=
    not_lt.mpr large
  rw [mountFileSystem]
  dsimp only
  rw [superInitializeMeta_formatted, if_neg (by simp), if_neg fits, initializeMeta_formatted,
    Except.ok_bind]
  dsimp only
  rw [makeMountPoint_root, written]
  dsimp only
  rw [rootWritten_mounted written, attempts, untried, Except.ok_bind]
  rfl

/-- A freshly mounted file system is the one `mounted` describes. -/
theorem FreshlyMounted.eq_mounted {s : FileSystem} (fresh : FreshlyMounted s) :
    ∃ d env attempts, s = mounted d env attempts ∧ 675282944 ≤ d.size := by
  obtain ⟨env, d, formatted, success⟩ := fresh
  rw [Disk.format_eq formatted] at success
  obtain ⟨attempts, result, large⟩ := mountFileSystem_formatted success
  exact ⟨d, env, attempts, result, large⟩

theorem freshlyMounted_mounted {env : Env} {d : Disk} (large : 675282944 ≤ d.size)
    (ok : env.writeOk 0 = true) : FreshlyMounted (mounted d env 1) := by
  have formatted : d.format.2 = true := Disk.format_success (by omega)
  refine ⟨env, d, formatted, ?_⟩
  rw [Disk.format_eq formatted]
  exact mountFileSystem_eq env large ok

end FileSystem

end BlockFs
