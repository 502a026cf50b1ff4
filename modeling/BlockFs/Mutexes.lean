import BlockFs.Lib.Locks
import BlockFs.State
import Mathlib.Data.Fintype.Basic

/-!
The six kinds of mutex and the order in which every operation acquires and releases them. A call is
the program of its critical sections; which branches it takes and where it returns early is left
open. The locks of single blocks and of the descriptor pool are never held around another
acquisition and are not among the six.
-/

namespace BlockFs
namespace Mutexes

open Locking (Prog Stack)
open Locking.Prog (block opt)

/-- The mutexes of the handles, of each file object and of each directory object. -/
inductive Mutex where
  | fileHandle
  | dirHandle
  | fileBlockHandle
  | blockHandle
  | file (file : FilePtr)
  | directory (dir : DirectoryPtr)
  deriving DecidableEq

/-- A critical section that acquires nothing else. -/
def Mutex.alone (m : Mutex) : Prog Mutex := .guarded m .skip

section Handles

def getCreatedDirectory : Prog Mutex := Mutex.dirHandle.alone

def getOpenDirectory : Prog Mutex := Mutex.dirHandle.alone

def getOpenFile : Prog Mutex := Mutex.fileHandle.alone

def addOpenFile : Prog Mutex := Mutex.fileHandle.alone

def getFileBlockLock : Prog Mutex := Mutex.fileBlockHandle.alone

def putFileBlockLock : Prog Mutex := Mutex.fileBlockHandle.alone

def getFreeBlockIdLock : Prog Mutex := Mutex.blockHandle.alone

def putFreeBlockIdLock : Prog Mutex := Mutex.blockHandle.alone

/-- `FileHandle::RunInMetaGuard`. -/
def runInMetaGuard (cb : Prog Mutex) : Prog Mutex := .guarded .fileHandle cb

/-- `DirHandle::RunInMetaGuard`. -/
def runInDirMetaGuard (cb : Prog Mutex) : Prog Mutex := .guarded .dirHandle cb

/-- `FileHandle::GetCreatedFile` by path. -/
def getCreatedFile : Prog Mutex :=
  opt (block [getCreatedDirectory, opt Mutex.fileHandle.alone])

def checkFileExist : Prog Mutex := opt (block [getCreatedFile, opt getCreatedFile])

def findFile : Prog Mutex := block [getCreatedDirectory, opt Mutex.fileHandle.alone]

def newFile : Prog Mutex := block [getCreatedDirectory, opt Mutex.fileHandle.alone]

def newFreeFileMeta : Prog Mutex := Mutex.fileHandle.alone

def addParentFile : Prog Mutex := Mutex.fileHandle.alone

def newDirectory : Prog Mutex := Mutex.dirHandle.alone

def findDirectory : Prog Mutex := Mutex.dirHandle.alone

end Handles

section Directories
variable (dir parent source target : DirectoryPtr)

def addChildFile : Prog Mutex := (Mutex.directory dir).alone

def removeChildFile : Prog Mutex := (Mutex.directory dir).alone

def addChildDirectory : Prog Mutex := (Mutex.directory dir).alone

def removChildDirectory : Prog Mutex := (Mutex.directory dir).alone

def childCount : Prog Mutex := (Mutex.directory dir).alone

def linkCount : Prog Mutex := (Mutex.directory dir).alone

def suicide : Prog Mutex := runInDirMetaGuard .skip

def directoryStat : Prog Mutex := runInDirMetaGuard .skip

/-- The removal that takes an entry back sits in an `assert` under the handle's mutex. -/
def addDirectory : Prog Mutex :=
  block [opt (addChildDirectory parent), opt (.guarded .dirHandle (opt (removChildDirectory parent)))]

def removeDirectory : Prog Mutex := block [removChildDirectory parent, opt Mutex.dirHandle.alone]

def createDirectory : Prog Mutex :=
  block [checkFileExist, opt (block [newDirectory, opt (block [
    Mutex.dirHandle.alone, opt (addDirectory parent)])])]

def deleteDirectory : Prog Mutex :=
  block [checkFileExist, opt (block [findDirectory, opt (block [childCount dir, opt (block [
    linkCount dir, opt (block [suicide, opt (removeDirectory parent)])])])])]

def directoryRename : Prog Mutex :=
  runInDirMetaGuard (opt (block [removChildDirectory source, opt (addChildDirectory target)]))

def renameDirectory : Prog Mutex :=
  block [checkFileExist, opt (block [findDirectory, opt (directoryRename source target)])]

end Directories

section Files
variable (file : FilePtr) (dir source target : DirectoryPtr)

def addFileToDirectory : Prog Mutex := block [addChildFile dir, Mutex.fileHandle.alone]

def removeFileFromoDirectory : Prog Mutex := block [removeChildFile dir, opt Mutex.fileHandle.alone]

def removeFileFromoDirectoryNolock : Prog Mutex := removeChildFile dir

def fileStat : Prog Mutex := runInMetaGuard .skip

def release : Prog Mutex := runInMetaGuard .skip

def updateTimeStamp : Prog Mutex := (Mutex.file file).alone

def releaseAll : Prog Mutex := block [putFreeBlockIdLock, opt putFileBlockLock]

def releaseMyself : Prog Mutex := opt putFileBlockLock

def removeAllFileBlock : Prog Mutex := .loop releaseAll

/-- `ParentFile::Recycle`. -/
def recycle : Prog Mutex := .loop (block [.loop putFreeBlockIdLock, releaseMyself])

def removeParentFile : Prog Mutex := .guarded .fileHandle (opt recycle)

def createFile : Prog Mutex :=
  opt (block [newFile, opt (block [Mutex.fileHandle.alone, opt (addFileToDirectory dir)])])

def extendFile : Prog Mutex :=
  opt (block [opt getFileBlockLock, opt (block [opt getFreeBlockIdLock,
    .choice (opt putFileBlockLock) (runInMetaGuard .skip)])])

def recycleParentFh : Prog Mutex := block [removeParentFile, opt (runInMetaGuard .skip)]

def shrinkFile : Prog Mutex :=
  block [newFreeFileMeta, opt (block [opt getFileBlockLock, opt (block [opt getFreeBlockIdLock,
    opt (block [getCreatedDirectory, opt (block [removeFileFromoDirectory dir, addFileToDirectory dir,
      addParentFile, opt recycleParentFh])])])])]

/-- `File::ftruncate` holds the file's mutex around everything it does. -/
def ftruncate : Prog Mutex :=
  .guarded (.file file) (.choice extendFile (.choice (shrinkFile dir) .skip))

/-- `OpenFile::pread` and `ReadData` take none of the mutexes, only the locks of single blocks. -/
def pread : Prog Mutex := .skip

def pwrite : Prog Mutex := opt (block [opt (ftruncate file dir), opt (opt (updateTimeStamp file))])

/-- `File::rename`: `UpdateTimeStamp` acquires the file's mutex under `FileHandle::mutex_`. -/
def fileRename : Prog Mutex :=
  runInMetaGuard (block [getCreatedDirectory, opt (block [getCreatedDirectory, opt (block [
    removeChildFile source, opt (block [updateTimeStamp file, addChildFile target])])])])

def unlinkFileNolock : Prog Mutex :=
  opt (block [removeAllFileBlock, opt (removeFileFromoDirectoryNolock dir)])

def unlink : Prog Mutex :=
  block [getCreatedDirectory, opt (block [findFile, opt (block [removeAllFileBlock, opt (block [
    release, opt (removeFileFromoDirectory dir)])])])]

def openFile : Prog Mutex :=
  block [.choice (createFile dir) (block [getCreatedDirectory, opt (block [getCreatedFile,
    .choice (createFile dir) (opt (ftruncate file dir))])]), opt addOpenFile]

def close : Prog Mutex := .guarded .fileHandle (opt (unlinkFileNolock dir))

end Files

section Paths
variable (file : FilePtr) (dir source target : DirectoryPtr)

def statPath : Prog Mutex :=
  opt (.choice (block [getCreatedDirectory, opt directoryStat])
    (block [getCreatedFile, .choice fileStat (block [getCreatedDirectory, opt directoryStat])]))

def statFd : Prog Mutex :=
  block [getOpenFile, .choice fileStat (block [getOpenDirectory, opt directoryStat])]

def renamePath : Prog Mutex :=
  opt (block [getCreatedFile, opt (block [getCreatedFile,
    .choice (fileRename file source target)
      (block [getCreatedDirectory, opt (renameDirectory source target)])])])

def truncatePath : Prog Mutex := block [getCreatedFile, opt (ftruncate file dir)]

def truncateFd : Prog Mutex := block [getOpenFile, opt (ftruncate file dir)]

def preadFile : Prog Mutex := block [getOpenFile, opt pread]

def pwriteFile : Prog Mutex := block [getOpenFile, opt (pwrite file dir)]

end Paths

/-- The calls, each with the objects that its path or descriptor stands for. -/
inductive Call where
  | rename (file : FilePtr) (source target : DirectoryPtr)
  | truncate (file : FilePtr) (dir : DirectoryPtr)
  | ftruncate (file : FilePtr) (dir : DirectoryPtr)
  | pwrite (file : FilePtr) (dir : DirectoryPtr)
  | pread
  | create (dir : DirectoryPtr)
  | unlink (dir : DirectoryPtr)
  | open (file : FilePtr) (dir : DirectoryPtr)
  | close (dir : DirectoryPtr)
  | stat
  | fstat
  | mkdir (parent : DirectoryPtr)
  | rmdir (dir parent : DirectoryPtr)

def Call.prog : Call → Prog Mutex
  | .rename file source target => renamePath file source target
  | .truncate file dir => truncatePath file dir
  | .ftruncate file dir => truncateFd file dir
  | .pwrite file dir => pwriteFile file dir
  | .pread => preadFile
  | .create dir => createFile dir
  | .unlink dir => Mutexes.unlink dir
  | .open file dir => openFile file dir
  | .close dir => Mutexes.close dir
  | .stat => statPath
  | .fstat => statFd
  | .mkdir parent => createDirectory parent
  | .rmdir dir parent => deleteDirectory dir parent

/-- A thread that has a list of calls before it and has begun none. -/
def pending (calls : List Call) : Stack Mutex := calls.map fun call => .run call.prog

def Start {Tid : Type*} (s : Tid → Stack Mutex) : Prop :=
  ∃ calls : Tid → List Call, s = fun t => pending (calls t)

/-- The pairs of mutexes that are acquired in both orders: a rename acquires the mutex of its file
under `FileHandle::mutex_`, an `ftruncate` acquires `FileHandle::mutex_` under the mutex of its file. -/
def inverts : Mutex → Mutex → Bool
  | .fileHandle, .file _ => true
  | _, _ => false

theorem inverts_eq_true {h m : Mutex} : inverts h m = true ↔ h = .fileHandle ∧ ∃ file, m = .file file := by
  cases h <;> cases m <;> simp [inverts]

def rank : Mutex → ℕ
  | .file _ => 0
  | .fileHandle => 1
  | .dirHandle => 2
  | .directory _ => 3
  | .fileBlockHandle => 4
  | .blockHandle => 5

/-- But for the inverted pairs every mutex is acquired under mutexes of smaller rank only. -/
def lockOrder : Locking.LockOrder Mutex where
  rank := rank
  bound := 5
  inverted h m := inverts h m = true
  rank_le m := by cases m <;> simp [rank]
  irrefl m := by cases m <;> simp [inverts]
  unchained h m x inv := by
    obtain ⟨-, file, rfl⟩ := inverts_eq_true.1 inv
    simp [inverts]
  covered h m x inv := by
    obtain ⟨rfl, file, rfl⟩ := inverts_eq_true.1 inv
    cases x <;> simp [rank]

instance : DecidableRel lockOrder.inverted := fun h m => inferInstanceAs (Decidable (inverts h m = true))

section Ordered
variable (file : FilePtr) (dir parent source target : DirectoryPtr)

@[simp] theorem allows_iff {h m : Mutex} :
    lockOrder.Allows h m ↔ rank h < rank m ∨ h = .fileHandle ∧ ∃ file, m = .file file := by
  simp only [← inverts_eq_true, Locking.LockOrder.Allows, lockOrder]

@[simp] theorem takes_alone {m : Mutex} : m.alone.takes = [m] := rfl

@[simp] theorem ordered_alone {ok : Mutex → Mutex → Prop} {m : Mutex} : m.alone.Ordered ok [] := by
  simp [Mutex.alone, Prog.Ordered]

theorem getCreatedFile_ordered : getCreatedFile.Ordered lockOrder.Allows [] := by
  simp [getCreatedFile, getCreatedDirectory]

theorem checkFileExist_ordered : checkFileExist.Ordered lockOrder.Allows [] := by
  simp [checkFileExist, getCreatedFile_ordered]

theorem createFile_ordered : (createFile dir).Ordered lockOrder.Allows [] := by
  simp [createFile, newFile, getCreatedDirectory, addFileToDirectory, addChildFile]

theorem extendFile_ordered : extendFile.Ordered lockOrder.Allows [] := by
  simp [extendFile, getFileBlockLock, getFreeBlockIdLock, putFileBlockLock, runInMetaGuard, Prog.Ordered]

/-- The parent file gives its blocks and file blocks back under `FileHandle::mutex_`. -/
theorem removeParentFile_ordered : removeParentFile.Ordered lockOrder.Allows [] := by
  simp [removeParentFile, Prog.ordered_guarded, recycle, releaseMyself, putFileBlockLock,
    putFreeBlockIdLock, Prog.Ordered, Prog.takes, rank]

theorem shrinkFile_ordered : (shrinkFile dir).Ordered lockOrder.Allows [] := by
  simp [shrinkFile, newFreeFileMeta, getFileBlockLock, getFreeBlockIdLock, getCreatedDirectory,
    removeFileFromoDirectory, removeChildFile, addFileToDirectory, addChildFile, addParentFile,
    recycleParentFh, removeParentFile_ordered, runInMetaGuard, Prog.Ordered]

/-- Nothing that is taken inside an `ftruncate` is a file's mutex, so all of it may follow one. -/
theorem ftruncate_ordered : (ftruncate file dir).Ordered lockOrder.Allows [] := by
  rw [ftruncate, Prog.ordered_guarded]
  refine ⟨⟨extendFile_ordered, shrinkFile_ordered dir, trivial⟩, ?_⟩
  simp [extendFile, shrinkFile, newFreeFileMeta, getFileBlockLock, getFreeBlockIdLock, putFileBlockLock,
    getCreatedDirectory, removeFileFromoDirectory, removeChildFile, addFileToDirectory, addChildFile,
    addParentFile, recycleParentFh, removeParentFile, recycle, releaseMyself, putFreeBlockIdLock,
    runInMetaGuard, Prog.takes, rank]

/-- The mutex of the file is the one acquisition in a rename that runs against the ranks. -/
theorem fileRename_ordered : (fileRename file source target).Ordered lockOrder.Allows [] := by
  rw [fileRename, runInMetaGuard, Prog.ordered_guarded]
  simp [getCreatedDirectory, removeChildFile, updateTimeStamp, addChildFile, rank]

theorem directoryRename_ordered : (directoryRename source target).Ordered lockOrder.Allows [] := by
  rw [directoryRename, runInDirMetaGuard, Prog.ordered_guarded]
  simp [removChildDirectory, addChildDirectory, rank]

theorem unlink_ordered : (unlink dir).Ordered lockOrder.Allows [] := by
  simp [unlink, getCreatedDirectory, findFile, removeAllFileBlock, releaseAll, putFreeBlockIdLock,
    putFileBlockLock, release, runInMetaGuard, removeFileFromoDirectory, removeChildFile, Prog.Ordered]

theorem close_ordered : (close dir).Ordered lockOrder.Allows [] := by
  rw [close, Prog.ordered_guarded]
  simp [unlinkFileNolock, removeAllFileBlock, releaseAll, putFreeBlockIdLock, putFileBlockLock,
    removeFileFromoDirectoryNolock, removeChildFile, Prog.Ordered, Prog.takes, rank]

theorem openFile_ordered : (openFile file dir).Ordered lockOrder.Allows [] := by
  simp [openFile, createFile_ordered, getCreatedDirectory, getCreatedFile_ordered, ftruncate_ordered,
    addOpenFile, Prog.Ordered]

theorem pwrite_ordered : (pwrite file dir).Ordered lockOrder.Allows [] := by
  simp [pwrite, ftruncate_ordered, updateTimeStamp]

theorem createDirectory_ordered : (createDirectory parent).Ordered lockOrder.Allows [] := by
  simp [createDirectory, checkFileExist_ordered, newDirectory, addDirectory, addChildDirectory,
    removChildDirectory, Prog.ordered_guarded, rank]

theorem deleteDirectory_ordered : (deleteDirectory dir parent).Ordered lockOrder.Allows [] := by
  simp [deleteDirectory, checkFileExist_ordered, findDirectory, childCount, linkCount, suicide,
    runInDirMetaGuard, removeDirectory, removChildDirectory, Prog.Ordered]

theorem renamePath_ordered : (renamePath file source target).Ordered lockOrder.Allows [] := by
  simp [renamePath, getCreatedFile_ordered, fileRename_ordered, getCreatedDirectory, renameDirectory,
    checkFileExist_ordered, findDirectory, directoryRename_ordered, Prog.Ordered]

theorem statPath_ordered : statPath.Ordered lockOrder.Allows [] := by
  simp [statPath, getCreatedDirectory, directoryStat, runInDirMetaGuard, getCreatedFile_ordered, fileStat,
    runInMetaGuard, Prog.Ordered]

theorem statFd_ordered : statFd.Ordered lockOrder.Allows [] := by
  simp [statFd, getOpenFile, fileStat, runInMetaGuard, getOpenDirectory, directoryStat, runInDirMetaGuard,
    Prog.Ordered]

end Ordered

theorem Call.prog_ordered (call : Call) : call.prog.Ordered lockOrder.Allows [] := by
  cases call with
  | rename file source target => exact renamePath_ordered file source target
  | truncate file dir => simp [prog, truncatePath, getCreatedFile_ordered, ftruncate_ordered]
  | ftruncate file dir => simp [prog, truncateFd, getOpenFile, ftruncate_ordered]
  | pwrite file dir => simp [prog, pwriteFile, getOpenFile, pwrite_ordered]
  | pread => simp [prog, preadFile, getOpenFile, Mutexes.pread, Prog.Ordered]
  | create dir => exact createFile_ordered dir
  | unlink dir => exact unlink_ordered dir
  | «open» file dir => exact openFile_ordered file dir
  | close dir => exact close_ordered dir
  | stat => exact statPath_ordered
  | fstat => exact statFd_ordered
  | mkdir parent => exact createDirectory_ordered parent
  | rmdir dir parent => exact deleteDirectory_ordered dir parent

section Deadlock
variable {Tid : Type*}

/-- The thread is inside a rename of the file and may still come to `UpdateTimeStamp`. -/
def Renames (file : FilePtr) (k : Stack Mutex) : Prop := Locking.MayTake .fileHandle (.file file) k

/-- The thread is inside an `ftruncate` of the file and may still acquire `FileHandle::mutex_`. -/
def Resizes (file : FilePtr) (k : Stack Mutex) : Prop := Locking.MayTake (.file file) .fileHandle k

/-- The thread is about to enter a critical section of `m` inside which it may acquire `x`. -/
def Enters (m x : Mutex) (k : Stack Mutex) : Prop :=
  ∃ body, Locking.entering k = some (m, body) ∧ x ∈ body.takes

/-- A rename and an `ftruncate` of one file are not entered while another thread is in the other. -/
def KeepsApart (s : Tid → Stack Mutex) (event : Tid × Bool) : Prop :=
  ∀ file, ∀ t, t ≠ event.1 →
    (Enters .fileHandle (.file file) (s event.1) → ¬ Resizes file (s t)) ∧
      (Enters (.file file) .fileHandle (s event.1) → ¬ Renames file (s t))

theorem keepsApart_iff {s : Tid → Stack Mutex} {event : Tid × Bool} :
    KeepsApart s event ↔ Locking.Apart lockOrder.inverted s event.1 := by
  constructor
  · rintro keeps m body enters x taken (inv | inv) t other
    · obtain ⟨rfl, file, rfl⟩ := inverts_eq_true.1 inv
      exact (keeps file t other).1 ⟨body, enters, taken⟩
    · obtain ⟨rfl, file, rfl⟩ := inverts_eq_true.1 inv
      exact (keeps file t other).2 ⟨body, enters, taken⟩
  · intro apart file t other
    constructor
    · rintro ⟨body, enters, taken⟩
      exact apart _ body enters _ taken (.inl rfl) t other
    · rintro ⟨body, enters, taken⟩
      exact apart _ body enters _ taken (.inr rfl) t other

theorem held_pending (calls : List Call) : Locking.held (pending calls) = [] := by
  induction calls with
  | nil => rfl
  | cons call rest ih => exact ih

theorem pending_ordered (calls : List Call) : Locking.StackOrdered lockOrder.Allows (pending calls) := by
  induction calls with
  | nil => trivial
  | cons call rest ih =>
    refine ⟨?_, ih⟩
    rw [show Locking.held (rest.map fun call => .run call.prog) = [] from held_pending rest]
    exact call.prog_ordered

/-- The states that any number of threads reach by steps that meet the guard. -/
abbrev Reached [DecidableEq Tid] (guard : (Tid → Stack Mutex) → Tid × Bool → Prop) : (Tid → Stack Mutex) → Prop :=
  Transition.Reaches Start guard Locking.Step

/-- No thread acquires a mutex it holds, in whatever order the threads take their steps. -/
theorem Reached.not_selfAcquires [DecidableEq Tid] {guard : (Tid → Stack Mutex) → Tid × Bool → Prop}
    {s : Tid → Stack Mutex} (reach : Reached guard s) : ¬ Locking.SelfAcquires s := by
  have sorted (t : Tid) : Locking.StackOrdered lockOrder.Allows (s t) := by
    refine Locking.stackOrdered_of_reaches reach ?_ t
    rintro _ ⟨calls, rfl⟩ t
    exact pending_ordered (calls t)
  exact Locking.LockOrder.not_selfAcquires sorted

theorem Reached.deadlock_free [DecidableEq Tid] {s : Tid → Stack Mutex} (reach : Reached KeepsApart s) :
    ¬ Locking.Deadlocked s ∧ ¬ Locking.SelfAcquires s := by
  refine Locking.LockOrder.safe (reach.mono fun _ _ keeps => keepsApart_iff.1 keeps) ?_ ?_
  · rintro _ ⟨calls, rfl⟩ t
    exact held_pending (calls t)
  · rintro _ ⟨calls, rfl⟩ t
    exact pending_ordered (calls t)

theorem Reached.exists_of_turns [DecidableEq Tid] [Fintype Tid]
    {guard : (Tid → Stack Mutex) → Tid × Bool → Prop} [∀ s event, Decidable (guard s event)]
    (calls : Tid → List Call) (events : List (Tid × Bool)) (goal : (Tid → Stack Mutex) → Prop)
    [DecidablePred goal]
    (found : (Transition.runList (Locking.attempt guard) events fun t => pending (calls t)).toOption.any
      (fun s => goal s) = true) : ∃ s, Reached guard s ∧ goal s :=
  Transition.Reaches.exists_of_runList (.start ⟨calls, rfl⟩) events
    (fun _ _ _ _ taken => Locking.attempt_sound taken) goal found

/-- The turns of one thread, with its choices. -/
def turns (t : Tid) (picks : List Bool) : List (Tid × Bool) := picks.map fun pick => (t, pick)

/-- The growth of a file, up to its last acquisition of `FileHandle::mutex_`. -/
def growthPicks : List Bool :=
  [false, false, false, false, true, false, false, true, false, false, false, true, false, false, true, true]

/-- The rename of a file, up to `UpdateTimeStamp`. -/
def renamePicks : List Bool :=
  [true, false, false, false, true, false, false, false, false, false, false, false, false, false, true,
    false, false, false, false, true, false, false, false, false, true, false]

/-- A rename of one file holds `FileHandle::mutex_` while another file's growth waits for it: no
deadlock, since the rename can go on. -/
theorem deadlock_free_of_two_files : ∃ s : Fin 2 → Stack Mutex,
    (Locking.awaits (s 0) = some .fileHandle ∧ .fileHandle ∈ Locking.held (s 1)) ∧
      ¬ Locking.Deadlocked s ∧ ¬ Locking.SelfAcquires s := by
  have found : ∃ s : Fin 2 → Stack Mutex,
      Reached (fun s event => Locking.Apart lockOrder.inverted s event.1) s ∧
        Locking.awaits (s 0) = some .fileHandle ∧ .fileHandle ∈ Locking.held (s 1) :=
    Reached.exists_of_turns (fun t => if t = 0 then [.ftruncate 0 0] else [.rename 1 0 0])
      (turns 0 growthPicks ++ turns 1 renamePicks) _ (by decide +kernel)
  obtain ⟨s, reach, entangled⟩ := found
  exact ⟨s, entangled, Reached.deadlock_free (reach.mono fun _ _ apart => keepsApart_iff.2 apart)⟩

/-- The growth of a file against its rename: each waits for the mutex the other one holds. -/
theorem not_deadlock_free : ¬ ∀ s : Fin 2 → Stack Mutex, Reached (fun _ _ => True) s →
    ¬ Locking.Deadlocked s ∧ ¬ Locking.SelfAcquires s := by
  intro safe
  have found : ∃ s : Fin 2 → Stack Mutex, Reached (fun _ _ => True) s ∧ Locking.AllWait s :=
    Reached.exists_of_turns (fun t => if t = 0 then [.ftruncate 0 0] else [.rename 0 0 0])
      (turns 0 growthPicks ++ turns 1 renamePicks) _ (by decide +kernel)
  obtain ⟨s, reach, wait⟩ := found
  exact (safe s reach).1 (wait.deadlocked 0)

end Deadlock

end Mutexes
end BlockFs
