import BlockFs.Creations
import BlockFs.FreshMount

namespace BlockFs

namespace NameStage

/-- The file that its directory does not list yet. -/
def unlistedFile : NameStage → Option FilePtr
  | .fileTaken _ file | .fileWritten _ file => some file
  | _ => none

/-- The directory that its parent does not list yet. -/
def unlistedDir : NameStage → Option DirectoryPtr
  | .taken _ dir | .written _ dir => some dir
  | _ => none

/-- The directory that only `created_dirs_` lacks. -/
def listedDir : NameStage → Option DirectoryPtr
  | .listed _ dir => some dir
  | _ => none

theorem unlistedFile_none (stage : NameStage) (none : stage.pendingFile = Option.none) :
    stage.unlistedFile = Option.none := by
  cases stage <;> first | rfl | simp [pendingFile] at none

theorem unlistedDir_none (stage : NameStage) (none : stage.pendingDir = Option.none) :
    stage.unlistedDir = Option.none ∧ stage.listedDir = Option.none := by
  cases stage <;> first | exact ⟨rfl, rfl⟩ | simp [pendingDir] at none

/-- A call that searches has nothing under way. -/
theorem Searching.idle {stage : NameStage} (searching : stage.Searching) :
    stage.pendingFile = none ∧ stage.pendingDir = none ∧ stage.target = none ∧
      (∀ d, stage ≠ .delisted d) ∧ stage ≠ .returned 0 := by
  cases stage <;> simp_all [Searching, pendingFile, pendingDir, target]

end NameStage

namespace Roster

def HasFile (v : Roster) (f : FilePtr) : Prop :=
  f < v.nextFile ∧ (v.file f).used = true ∧ (v.file f).fh = v.fileSlot f

/-- A directory that has its slot and has never been entered. -/
def HasDir (v : Roster) (d : DirectoryPtr) : Prop :=
  d < v.nextDirectory ∧ (v.dir d).used = true ∧ ∀ n, v.createdDirs.lookup n ≠ some d

/-- No directory lists a directory in the slot `x`. -/
def Unlisted (v : Roster) (x : Nat) : Prop := ∀ q < v.nextDirectory, (v.children q).lookup x = none

/-- The directory `parent` is the one above `d`. -/
def Above (v : Roster) (parent : Option DirectoryPtr) (d : DirectoryPtr) : Prop :=
  match parent with
  | none => (v.dir d).dirName = ['/']
  | some p => (v.dir d).dirName ≠ ['/'] ∧ p < v.nextDirectory ∧ (v.dir p).used = true ∧
    (v.dir p).dirName = getDirName (v.dir d).dirName

/-- There is a file at the path. -/
def FileAt (v : Roster) (path : Name) : Prop :=
  ∃ dirName filename d x, LeadsTo path dirName filename ∧ (v.dirs d).used = true ∧
    (v.dirs d).dirName = dirName ∧ (v.files x).used = true ∧ (v.files x).key = (d, filename)

def DirAt (v : Roster) (dirName : Name) : Prop :=
  ∃ d, (v.dirs d).used = true ∧ (v.dirs d).dirName = dirName

/-- What a call relies on. -/
def Own (v : Roster) (l : NameCaller) : Prop :=
  match l.stage with
  | .located dir filename => dir < v.nextDirectory ∧
    ∀ path, l.call = .createFile path false → LeadsTo path (v.dir dir).dirName filename
  | .fileTaken dir f | .fileWritten dir f =>
    v.HasFile f ∧ dir < v.nextDirectory ∧ v.slot dir = (v.file f).dh
  | .fileListed f => v.HasFile f
  | .taken parent d | .written parent d => v.HasDir d ∧ v.Unlisted (v.slot d) ∧ v.Above parent d
  | .listed parent d => v.HasDir d ∧
    ∀ p, parent = some p → p < v.nextDirectory ∧ ((v.children p).lookup (v.slot d)).isSome
  | .found parent d | .childless parent d | .unopened parent d =>
    parent < v.nextDirectory ∧ d < v.nextDirectory ∧
      ∃ path, l.call = .deleteDirectory path ∧ DirHandle.transformPath path = .ok (v.dir d).dirName
  | .cleared parent d => (parent < v.nextDirectory ∧ ∃ path, l.call = .deleteDirectory path) ∧
    d < v.nextDirectory ∧ (v.dir d).used = false
  | .delisted d => (d < v.nextDirectory ∧ ∃ path, l.call = .deleteDirectory path) ∧ (v.dir d).used = false ∧
    v.createdDirs.lookup (v.dir d).dirName = some d ∧ v.Unlisted (v.slot d)
  | _ => True

end Roster

namespace NameCaller

/-- The call has taken a slot, or has returned success. -/
def Made (l : NameCaller) : Prop :=
  l.stage.pendingFile ≠ none ∨ l.stage.pendingDir ≠ none ∨ l.stage = .returned 0

end NameCaller

section Invariant
variable {Tid : Type*} (v : Roster) (threads : Tid → NameCaller)

/-- Some call is at a stage with this view. -/
def HasStage (view : NameStage → Option Nat) (p : Nat) : Prop := ∃ t, view (threads t).stage = some p

/-- No call removes the directory of this name. -/
def Spared (dirName : Name) : Prop :=
  ∀ t path, (threads t).call = .deleteDirectory path → DirHandle.transformPath path ≠ .ok dirName

/-- Every file slot in use is entered or about to be, lies in a directory in use, and is listed there
or about to be; no two have one key. -/
structure FilesSound : Prop where
  registered : ∀ x, (v.files x).used = true → (v.createdFiles.lookup (v.files x).key).isSome ∨
    ∃ f, HasStage threads NameStage.pendingFile f ∧ v.fileSlot f = x
  distinct : ∀ x y, (v.files x).used = true → (v.files y).used = true →
    (v.files x).key = (v.files y).key → x = y
  housed : ∀ x, (v.files x).used = true → (v.dirs (v.files x).dh).used = true
  filed : ∀ x, (v.files x).used = true → (∃ f, HasStage threads NameStage.unlistedFile f ∧ v.fileSlot f = x) ∨
    ∃ d < v.nextDirectory, v.slot d = (v.files x).dh ∧ ((v.directories d).itemMaps.lookup x).isSome

/-- The same of directories; an entry of a child map belongs to a directory that is entered or about
to be, and is the only one for its slot. -/
structure DirsSound : Prop where
  slots : ∀ i, (v.dirs i).dh = i
  apart : ∀ d < v.nextDirectory, ∀ d' < v.nextDirectory, v.slot d = v.slot d' → d = d'
  fresh : ∀ d < v.nextDirectory, v.slot d ∉ v.freeDhs
  nodup : v.freeDhs.Nodup
  named : ∀ n d, v.createdDirs.lookup n = some d → d < v.nextDirectory ∧ (v.dir d).dirName = n
  kids : ∀ d < v.nextDirectory, ∀ x c, (v.children d).lookup x = some c →
    c < v.nextDirectory ∧ v.slot c = x
  entered : ∀ i, (v.dirs i).used = true → ∃ d < v.nextDirectory, v.slot d = i ∧
    (v.createdDirs.lookup (v.dirs i).dirName = some d ∨ HasStage threads NameStage.pendingDir d)
  titled : ∀ i j, (v.dirs i).used = true → (v.dirs j).used = true →
    (v.dirs i).dirName = (v.dirs j).dirName → i = j
  parented : ∀ i, (v.dirs i).used = true → (v.dirs i).dirName ≠ ['/'] →
    v.DirAt (getDirName (v.dirs i).dirName)
  adopted : ∀ i, (v.dirs i).used = true → (v.dirs i).dirName ≠ ['/'] →
    (∃ d, HasStage threads NameStage.unlistedDir d ∧ v.slot d = i) ∨
    ∃ q < v.nextDirectory, (v.dir q).used = true ∧ (v.dir q).dirName = getDirName (v.dirs i).dirName ∧
      ((v.children q).lookup i).isSome
  held : ∀ q < v.nextDirectory, ∀ x c, (v.children q).lookup x = some c →
    v.createdDirs.lookup (v.dir c).dirName = some c ∨ HasStage threads NameStage.listedDir c
  once : ∀ q < v.nextDirectory, ∀ q' < v.nextDirectory, ∀ x, ((v.children q).lookup x).isSome →
    ((v.children q').lookup x).isSome → q = q'

/-- What holds between the sections of any number of calls. -/
structure NamesSound : Prop where
  files : FilesSound v threads
  dirs : DirsSound v threads
  own : ∀ t, v.Own (threads t)
  pending : ∀ t u, t ≠ u → ∀ d, (threads t).stage.pendingDir = some d → (threads u).stage.pendingDir ≠ some d
  target : ∀ t u d, (threads t).stage.target = some d → (threads u).stage.pendingDir ≠ some d
  dropped : ∀ t u, t ≠ u → ∀ d, (threads t).stage = .delisted d → (threads u).stage ≠ .delisted d
  fileAt : ∀ t path, (threads t).call = .createFile path false → (threads t).Made → v.FileAt path
  fileOnce : ∀ t u, t ≠ u → ∀ path, (threads t).call = .createFile path false →
    (threads u).call = .createFile path false → (threads t).Made → ¬(threads u).Made
  dirAt : ∀ t path n, (threads t).call = .createDirectory path → DirHandle.transformPath path = .ok n →
    Spared threads n → (threads t).Made → v.DirAt n
  dirOnce : ∀ t u, t ≠ u → ∀ path path' n, (threads t).call = .createDirectory path →
    (threads u).call = .createDirectory path' → DirHandle.transformPath path = .ok n →
    DirHandle.transformPath path' = .ok n → Spared threads n → (threads t).Made → ¬(threads u).Made

end Invariant

section Threads
variable {Tid : Type*} [DecidableEq Tid] {threads : Tid → NameCaller} {t : Tid} {stage : NameStage}
  {view : NameStage → Option Nat} {p : Nat}

/-- The threads after `t` has come to a stage. -/
def moveTo (threads : Tid → NameCaller) (t : Tid) (stage : NameStage) : Tid → NameCaller :=
  Function.update threads t { threads t with stage := stage }

@[simp] theorem moveTo_self : moveTo threads t stage t = { threads t with stage := stage } :=
  Function.update_self ..

theorem moveTo_of_ne {u : Tid} (apart : u ≠ t) : moveTo threads t stage u = threads u :=
  Function.update_of_ne apart ..

@[simp] theorem moveTo_call (u : Tid) : (moveTo threads t stage u).call = (threads u).call := by
  by_cases here : u = t
  · rw [here, moveTo_self]
  · rw [moveTo_of_ne here]

theorem spared_moveTo {n : Name} : Spared (moveTo threads t stage) n ↔ Spared threads n := by
  simp [Spared]

theorem HasStage.moveTo (has : HasStage threads view p) (t : Tid) (stage : NameStage) :
    HasStage (moveTo threads t stage) view p ∨ view (threads t).stage = some p := by
  obtain ⟨u, there⟩ := has
  by_cases here : u = t
  · exact .inr (here ▸ there)
  · exact .inl ⟨u, by rwa [moveTo_of_ne here]⟩

theorem HasStage.self (here : view stage = some p) : HasStage (BlockFs.moveTo threads t stage) view p :=
  ⟨t, by rwa [moveTo_self]⟩

theorem HasStage.kept (has : HasStage threads view p) (same : view stage = view (threads t).stage) :
    HasStage (BlockFs.moveTo threads t stage) view p := by
  rcases has.moveTo t stage with has | here
  · exact has
  · exact .self (same.trans here)

/-- What is known of a slot through a call stays known where the view of the call does not change. -/
theorem HasStage.exists_kept {slot : Nat → Nat} {x : Nat} (has : ∃ p, HasStage threads view p ∧ slot p = x)
    (same : view stage = view (threads t).stage) :
    ∃ p, HasStage (BlockFs.moveTo threads t stage) view p ∧ slot p = x := by
  obtain ⟨p, has, at_⟩ := has
  exact ⟨p, has.kept same, at_⟩

end Threads

/-- A section that gives away free slots at most. -/
structure Roster.Keeps (v v' : Roster) : Prop where
  files : ∀ x, (v.files x).used = true → v'.files x = v.files x
  dirs : ∀ i, (v.dirs i).used = true → v'.dirs i = v.dirs i
  nextFile : v.nextFile ≤ v'.nextFile
  nextDirectory : v.nextDirectory ≤ v'.nextDirectory
  fileSlot : ∀ f < v.nextFile, v'.fileSlot f = v.fileSlot f
  slot : ∀ d < v.nextDirectory, v'.slot d = v.slot d
  dir : ∀ d < v.nextDirectory, v'.dir d = v.dir d

namespace Roster.Keeps
variable {v v' : Roster} {l : NameCaller}

theorem refl (v : Roster) : Keeps v v :=
  ⟨fun _ _ => rfl, fun _ _ => rfl, le_rfl, le_rfl, fun _ _ => rfl, fun _ _ => rfl, fun _ _ => rfl⟩

theorem file (keeps : Keeps v v') {f : FilePtr} (has : v.HasFile f) : v'.file f = v.file f := by
  rw [Roster.file, keeps.fileSlot f has.1]
  exact keeps.files _ has.2.1

theorem hasFile (keeps : Keeps v v') {f : FilePtr} (has : v.HasFile f) : v'.HasFile f := by
  refine ⟨has.1.trans_le keeps.nextFile, ?_, ?_⟩
  · rw [keeps.file has]
    exact has.2.1
  · rw [keeps.file has, keeps.fileSlot f has.1]
    exact has.2.2

theorem hasDir (keeps : Keeps v v') {d : DirectoryPtr} (has : v.HasDir d)
    (unentered : ∀ n, v'.createdDirs.lookup n ≠ some d) : v'.HasDir d := by
  refine ⟨has.1.trans_le keeps.nextDirectory, ?_, unentered⟩
  rw [keeps.dir d has.1]
  exact has.2.1

theorem fileAt (keeps : Keeps v v') {path : Name} (there : v.FileAt path) : v'.FileAt path := by
  obtain ⟨dirName, filename, d, x, leads, usedDir, title, usedFile, key⟩ := there
  refine ⟨dirName, filename, d, x, leads, ?_, ?_, ?_, ?_⟩
  · rw [keeps.dirs d usedDir]
    exact usedDir
  · rw [keeps.dirs d usedDir]
    exact title
  · rw [keeps.files x usedFile]
    exact usedFile
  · rw [keeps.files x usedFile]
    exact key

theorem dirAt (keeps : Keeps v v') {n : Name} (there : v.DirAt n) : v'.DirAt n := by
  obtain ⟨d, used, title⟩ := there
  exact ⟨d, by rw [keeps.dirs d used]; exact used, by rw [keeps.dirs d used]; exact title⟩

theorem above (keeps : Keeps v v') {parent : Option DirectoryPtr} {d : DirectoryPtr}
    (bound : d < v.nextDirectory) (above : v.Above parent d) : v'.Above parent d := by
  cases parent with
  | none =>
    rw [Above, keeps.dir d bound]
    exact above
  | some p =>
    obtain ⟨inner, known, used, title⟩ := above
    rw [Above, keeps.dir p known, keeps.dir d bound]
    exact ⟨inner, known.trans_le keeps.nextDirectory, used, title⟩

/-- What a call relies on is kept, where the maps of directories keep what it relies on. -/
theorem own (keeps : Keeps v v') (own : v.Own l)
    (unentered : ∀ d, l.stage.pendingDir = some d → (∀ n, v.createdDirs.lookup n ≠ some d) →
      ∀ n, v'.createdDirs.lookup n ≠ some d)
    (unlisted : ∀ d < v.nextDirectory, l.stage.unlistedDir = some d ∨ l.stage = .delisted d →
      v.Unlisted (v.slot d) → v'.Unlisted (v.slot d))
    (listed : ∀ p < v.nextDirectory, ∀ d < v.nextDirectory, l.stage = .listed (some p) d →
      ((v.children p).lookup (v.slot d)).isSome → ((v'.children p).lookup (v.slot d)).isSome)
    (entered : ∀ d < v.nextDirectory, l.stage = .delisted d →
      v.createdDirs.lookup (v.dir d).dirName = some d → v'.createdDirs.lookup (v.dir d).dirName = some d) :
    v'.Own l := by
  have hasDir {d : DirectoryPtr} (has : v.HasDir d) (here : l.stage.pendingDir = some d) : v'.HasDir d :=
    keeps.hasDir has (unentered d here has.2.2)
  obtain ⟨call, stage⟩ := l
  cases stage with
  | begun | looking | within | returned => trivial
  | located dir filename =>
    obtain ⟨bound, leads⟩ := own
    refine ⟨bound.trans_le keeps.nextDirectory, fun path same => ?_⟩
    rw [keeps.dir dir bound]
    exact leads path same
  | fileTaken dir f | fileWritten dir f =>
    obtain ⟨has, bound, home⟩ := own
    refine ⟨keeps.hasFile has, bound.trans_le keeps.nextDirectory, ?_⟩
    rw [keeps.slot dir bound, keeps.file has]
    exact home
  | fileListed f => exact keeps.hasFile own
  | taken parent d | written parent d =>
    obtain ⟨has, free, above⟩ := own
    refine ⟨hasDir has rfl, ?_, keeps.above has.1 above⟩
    rw [keeps.slot d has.1]
    exact unlisted d has.1 (.inl rfl) free
  | listed parent d =>
    obtain ⟨has, child⟩ := own
    refine ⟨hasDir has rfl, fun p same => ?_⟩
    obtain ⟨known, present⟩ := child p same
    subst same
    rw [keeps.slot d has.1]
    exact ⟨known.trans_le keeps.nextDirectory, listed p known d has.1 rfl present⟩
  | found parent d | childless parent d | unopened parent d =>
    obtain ⟨known, bound, path, same, leads⟩ := own
    refine ⟨known.trans_le keeps.nextDirectory, bound.trans_le keeps.nextDirectory, path, same, ?_⟩
    rw [keeps.dir d bound]
    exact leads
  | cleared parent d =>
    obtain ⟨⟨known, removes⟩, bound, unused⟩ := own
    refine ⟨⟨known.trans_le keeps.nextDirectory, removes⟩, bound.trans_le keeps.nextDirectory, ?_⟩
    rw [keeps.dir d bound]
    exact unused
  | delisted d =>
    obtain ⟨⟨bound, removes⟩, unused, there, free⟩ := own
    refine ⟨⟨bound.trans_le keeps.nextDirectory, removes⟩, ?_, ?_, ?_⟩
    · rw [keeps.dir d bound]
      exact unused
    · rw [keeps.dir d bound]
      exact entered d bound rfl there
    · rw [keeps.slot d bound]
      exact unlisted d bound (.inr rfl) free

end Roster.Keeps

section Steps
variable {Tid : Type*} [DecidableEq Tid] {v v' : Roster} {threads : Tid → NameCaller} {t : Tid}
  {stage : NameStage}

/-- The directories take no notice of a section that leaves them where they are. -/
theorem DirsSound.of_files (sound : DirsSound v threads) (dirs : v'.dirs = v.dirs)
    (next : v'.nextDirectory = v.nextDirectory) (created : v'.createdDirs = v.createdDirs)
    (free : v'.freeDhs = v.freeDhs) (slot : ∀ d, v'.slot d = v.slot d)
    (children : ∀ d, v'.children d = v.children d) (pendingDir : stage.pendingDir = (threads t).stage.pendingDir)
    (unlistedDir : stage.unlistedDir = (threads t).stage.unlistedDir)
    (listedDir : stage.listedDir = (threads t).stage.listedDir) :
    DirsSound v' (moveTo threads t stage) := by
  have dir (d : DirectoryPtr) : v'.dir d = v.dir d := by rw [Roster.dir, Roster.dir, dirs, slot]
  constructor
  · rw [dirs]
    exact sound.slots
  · simpa only [next, slot] using sound.apart
  · simpa only [next, slot, free] using sound.fresh
  · rw [free]
    exact sound.nodup
  · simpa only [next, created, dir] using sound.named
  · simpa only [next, children, slot] using sound.kids
  · intro i used
    rw [dirs] at used
    obtain ⟨d, bound, here, either⟩ := sound.entered i used
    rw [next, created, dirs]
    exact ⟨d, bound, (slot d).trans here, either.imp_right (·.kept pendingDir)⟩
  · simpa only [dirs] using sound.titled
  · simpa only [dirs, Roster.DirAt] using sound.parented
  · intro i used inner
    rw [dirs] at used inner
    rcases sound.adopted i used inner with ⟨d, has, here⟩ | ⟨q, bound, rest⟩
    · exact .inl ⟨d, has.kept unlistedDir, (slot d).trans here⟩
    · refine .inr ⟨q, by rwa [next], ?_⟩
      rw [dir, dirs, children]
      exact rest
  · intro q bound x c there
    rw [next] at bound
    rw [children] at there
    rw [created, dir]
    exact (sound.held q bound x c there).imp_right (·.kept listedDir)
  · simpa only [next, children] using sound.once

/-- The files take no notice of a section that leaves them and the directories in use where they are. -/
theorem FilesSound.of_dirs (sound : FilesSound v threads) (files : v'.files = v.files)
    (fileSlot : v'.fileSlot = v.fileSlot) (created : v'.createdFiles = v.createdFiles)
    (used : ∀ i, (v.dirs i).used = true → (∃ x, (v.files x).used = true ∧ (v.files x).dh = i) →
      (v'.dirs i).used = true)
    (next : v.nextDirectory ≤ v'.nextDirectory) (slot : ∀ d < v.nextDirectory, v'.slot d = v.slot d)
    (itemMaps : ∀ d < v.nextDirectory, (v'.directories d).itemMaps = (v.directories d).itemMaps)
    (pendingFile : stage.pendingFile = (threads t).stage.pendingFile)
    (unlistedFile : stage.unlistedFile = (threads t).stage.unlistedFile) :
    FilesSound v' (moveTo threads t stage) := by
  constructor
  · intro x here
    rw [files] at here
    rw [files, created]
    rw [fileSlot]
    exact (sound.registered x here).imp_right (HasStage.exists_kept · pendingFile)
  · simpa only [files] using sound.distinct
  · intro x here
    rw [files] at here ⊢
    exact used _ (sound.housed x here) ⟨x, here, rfl⟩
  · intro x here
    rw [files] at here
    rcases sound.filed x here with ⟨f, has, at_⟩ | ⟨d, bound, home, lists⟩
    · refine .inl ⟨f, has.kept unlistedFile, ?_⟩
      rw [fileSlot]
      exact at_
    · refine .inr ⟨d, bound.trans_le next, ?_, ?_⟩
      · rw [slot d bound, files]
        exact home
      · rw [itemMaps d bound]
        exact lists

theorem NameStage.apart (stage : NameStage) (d : DirectoryPtr) :
    stage.target = some d → stage.pendingDir ≠ some d := by
  cases stage <;> simp [NameStage.target, NameStage.pendingDir]

/-- The invariant after one section: its parts about the roster, and what the call that has moved says
about itself. -/
theorem NamesSound.next (sound : NamesSound v threads) (files : FilesSound v' (moveTo threads t stage))
    (dirs : DirsSound v' (moveTo threads t stage)) (self : v'.Own { threads t with stage := stage })
    (others : ∀ u, u ≠ t → v'.Own (threads u))
    (pending : ∀ d, stage.pendingDir = some d → (threads t).stage.pendingDir = some d ∨
      ∀ u, (threads u).stage.pendingDir ≠ some d ∧ (threads u).stage.target ≠ some d)
    (target : ∀ d, stage.target = some d → (threads t).stage.target = some d ∨
      ∀ u, (threads u).stage.pendingDir ≠ some d)
    (dropped : ∀ d, stage = .delisted d → ∀ u, u ≠ t → (threads u).stage ≠ .delisted d)
    (fileAt : ∀ path, v.FileAt path → v'.FileAt path)
    (dirAt : ∀ n, Spared threads n → v.DirAt n → v'.DirAt n)
    (madeFile : ∀ path, (threads t).call = .createFile path false → NameCaller.Made { threads t with stage := stage } →
      (threads t).Made ∨ (v'.FileAt path ∧ ∀ u, u ≠ t → (threads u).call = .createFile path false → ¬(threads u).Made))
    (madeDir : ∀ path n, (threads t).call = .createDirectory path → DirHandle.transformPath path = .ok n →
      Spared threads n → NameCaller.Made { threads t with stage := stage } → (threads t).Made ∨ (v'.DirAt n ∧
        ∀ u, u ≠ t → ∀ path', (threads u).call = .createDirectory path' → DirHandle.transformPath path' = .ok n →
          ¬(threads u).Made)) :
    NamesSound v' (moveTo threads t stage) := by
  refine ⟨files, dirs, ?_, ?_, ?_, ?_, ?_, ?_, ?_, ?_⟩
  · intro u
    by_cases here : u = t
    · rw [here, moveTo_self]
      exact self
    · rw [moveTo_of_ne here]
      exact others u here
  · intro u w apart d first second
    by_cases hu : u = t
    · subst hu
      rw [moveTo_self] at first
      rw [moveTo_of_ne apart.symm] at second
      rcases pending d first with old | none
      · exact sound.pending u w apart d old second
      · exact (none w).1 second
    · rw [moveTo_of_ne hu] at first
      by_cases hw : w = t
      · subst hw
        rw [moveTo_self] at second
        rcases pending d second with old | none
        · exact sound.pending u w apart d first old
        · exact (none u).1 first
      · rw [moveTo_of_ne hw] at second
        exact sound.pending u w apart d first second
  · intro u w d first second
    by_cases hu : u = t
    · subst hu
      rw [moveTo_self] at first
      by_cases hw : w = u
      · rw [hw, moveTo_self] at second
        exact stage.apart d first second
      · rw [moveTo_of_ne hw] at second
        rcases target d first with old | none
        · exact sound.target u w d old second
        · exact none w second
    · rw [moveTo_of_ne hu] at first
      by_cases hw : w = t
      · subst hw
        rw [moveTo_self] at second
        rcases pending d second with old | none
        · exact sound.target u w d first old
        · exact (none u).2 first
      · rw [moveTo_of_ne hw] at second
        exact sound.target u w d first second
  · intro u w apart d first second
    by_cases hu : u = t
    · subst hu
      rw [moveTo_self] at first
      rw [moveTo_of_ne apart.symm] at second
      exact dropped d first w apart.symm second
    · rw [moveTo_of_ne hu] at first
      by_cases hw : w = t
      · subst hw
        rw [moveTo_self] at second
        exact dropped d second u hu first
      · rw [moveTo_of_ne hw] at second
        exact sound.dropped u w apart d first second
  · intro u path same made
    rw [moveTo_call] at same
    by_cases hu : u = t
    · subst hu
      rw [moveTo_self] at made
      rcases madeFile path same made with old | ⟨there, _⟩
      · exact fileAt path (sound.fileAt u path same old)
      · exact there
    · rw [moveTo_of_ne hu] at made
      exact fileAt path (sound.fileAt u path same made)
  · intro u w apart path same same' made made'
    rw [moveTo_call] at same same'
    by_cases hu : u = t
    · subst hu
      rw [moveTo_self] at made
      rw [moveTo_of_ne apart.symm] at made'
      rcases madeFile path same made with old | ⟨_, none⟩
      · exact sound.fileOnce u w apart path same same' old made'
      · exact none w apart.symm same' made'
    · rw [moveTo_of_ne hu] at made
      by_cases hw : w = t
      · subst hw
        rw [moveTo_self] at made'
        rcases madeFile path same' made' with old | ⟨_, none⟩
        · exact sound.fileOnce u w apart path same same' made old
        · exact none u hu same made
      · rw [moveTo_of_ne hw] at made'
        exact sound.fileOnce u w apart path same same' made made'
  · intro u path n same leads spared made
    rw [moveTo_call] at same
    rw [spared_moveTo] at spared
    by_cases hu : u = t
    · subst hu
      rw [moveTo_self] at made
      rcases madeDir path n same leads spared made with old | ⟨there, _⟩
      · exact dirAt n spared (sound.dirAt u path n same leads spared old)
      · exact there
    · rw [moveTo_of_ne hu] at made
      exact dirAt n spared (sound.dirAt u path n same leads spared made)
  · intro u w apart path path' n same same' leads leads' spared made made'
    rw [moveTo_call] at same same'
    rw [spared_moveTo] at spared
    by_cases hu : u = t
    · subst hu
      rw [moveTo_self] at made
      rw [moveTo_of_ne apart.symm] at made'
      rcases madeDir path n same leads spared made with old | ⟨_, none⟩
      · exact sound.dirOnce u w apart path path' n same same' leads leads' spared old made'
      · exact none w apart.symm path' same' leads' made'
    · rw [moveTo_of_ne hu] at made
      by_cases hw : w = t
      · subst hw
        rw [moveTo_self] at made'
        rcases madeDir path' n same' leads' spared made' with old | ⟨_, none⟩
        · exact sound.dirOnce u w apart path path' n same same' leads leads' spared made old
        · exact none u hu path same leads made
      · rw [moveTo_of_ne hw] at made'
        exact sound.dirOnce u w apart path path' n same same' leads leads' spared made made'

/-- A section that leaves the roster alone. -/
theorem NamesSound.quiet (sound : NamesSound v threads) {from_ : NameStage} (here : (threads t).stage = from_)
    (pendingFile : stage.pendingFile = from_.pendingFile) (unlistedFile : stage.unlistedFile = from_.unlistedFile)
    (pendingDir : stage.pendingDir = from_.pendingDir)
    (unlistedDir : ∀ d, from_.unlistedDir = some d → stage.unlistedDir = some d ∨ (v.dir d).dirName = ['/'])
    (listedDir : ∀ d, from_.listedDir = some d → stage.listedDir = some d)
    (self : v.Own { threads t with stage := stage })
    (target : ∀ d, stage.target = some d → from_.target = some d ∨ ∀ u, (threads u).stage.pendingDir ≠ some d)
    (dropped : ∀ d, stage ≠ .delisted d) (returned : stage ≠ .returned 0) :
    NamesSound v (moveTo threads t stage) := by
  subst here
  have made (after : NameCaller.Made { threads t with stage := stage }) : (threads t).Made := by
    rw [NameCaller.Made, pendingFile, pendingDir] at after
    exact after.imp_right (·.imp_right fun done => absurd done returned)
  refine sound.next ?_ ?_ self (fun u _ => sound.own u) (fun d here => .inl (pendingDir ▸ here)) target
    (fun d here => absurd here (dropped d)) (fun _ => id) (fun _ _ => id) (fun _ _ after => .inl (made after))
    fun _ _ _ _ _ after => .inl (made after)
  · exact sound.files.of_dirs rfl rfl rfl (fun _ used _ => used) le_rfl (fun _ _ => rfl) (fun _ _ => rfl)
      pendingFile unlistedFile
  · have dirs := sound.dirs
    refine
      { slots := dirs.slots, apart := dirs.apart, fresh := dirs.fresh, nodup := dirs.nodup
        named := dirs.named, kids := dirs.kids, titled := dirs.titled, parented := dirs.parented
        once := dirs.once, entered := ?_, adopted := ?_, held := ?_ }
    · intro i used
      obtain ⟨d, bound, here, either⟩ := dirs.entered i used
      exact ⟨d, bound, here, either.imp_right (·.kept pendingDir)⟩
    · intro i used inner
      rcases dirs.adopted i used inner with ⟨d, has, here⟩ | listed
      · rcases has.moveTo t stage with has | own
        · exact .inl ⟨d, has, here⟩
        · rcases unlistedDir d own with still | root
          · exact .inl ⟨d, .self still, here⟩
          · rw [← here] at inner
            exact absurd root inner
      · exact .inr listed
    · intro q bound x c there
      rcases dirs.held q bound x c there with entered | has
      · exact .inl entered
      · rcases has.moveTo t stage with has | own
        · exact .inr has
        · exact .inr (.self (listedDir c own))

end Steps

section Known
variable {Tid : Type*} {v : Roster} {threads : Tid → NameCaller}

/-- What a pending file is known for. -/
theorem NamesSound.hasFile (sound : NamesSound v threads) {f : FilePtr} (has : HasStage threads NameStage.pendingFile f) :
    v.HasFile f := by
  obtain ⟨u, here⟩ := has
  have own := sound.own u
  revert own here
  rcases threads u with ⟨call, stage⟩
  intro here own
  cases stage <;> simp only [NameStage.pendingFile, Option.some.injEq, reduceCtorEq] at here <;> subst here
  · exact own.1
  · exact own.1
  · exact own

theorem NamesSound.hasDir (sound : NamesSound v threads) {d : DirectoryPtr} (has : HasStage threads NameStage.pendingDir d) :
    v.HasDir d := by
  obtain ⟨u, here⟩ := has
  have own := sound.own u
  revert own here
  rcases threads u with ⟨call, stage⟩
  intro here own
  cases stage <;> simp only [NameStage.pendingDir, Option.some.injEq, reduceCtorEq] at here <;> subst here <;>
    exact own.1

theorem NamesSound.targeted (sound : NamesSound v threads) {u : Tid} {d : DirectoryPtr}
    (here : (threads u).stage.target = some d) : d < v.nextDirectory := by
  have own := sound.own u
  revert own here
  rcases threads u with ⟨call, stage⟩
  intro here own
  cases stage <;> simp only [NameStage.target, Option.some.injEq, reduceCtorEq] at here <;> subst here
  · exact own.2.1
  · exact own.2.1
  · exact own.2.1
  · exact own.2.1
  · exact own.1.1

theorem HasStage.listed_pending {d : DirectoryPtr} (has : HasStage threads NameStage.listedDir d) :
    HasStage threads NameStage.pendingDir d := by
  obtain ⟨u, here⟩ := has
  refine ⟨u, ?_⟩
  revert here
  cases (threads u).stage <;> simp [NameStage.listedDir, NameStage.pendingDir]

theorem HasStage.unlisted_pending {d : DirectoryPtr} (has : HasStage threads NameStage.unlistedDir d) :
    HasStage threads NameStage.pendingDir d := by
  obtain ⟨u, here⟩ := has
  refine ⟨u, ?_⟩
  revert here
  cases (threads u).stage <;> simp [NameStage.unlistedDir, NameStage.pendingDir]

theorem HasStage.unlisted_pendingFile {f : FilePtr} (has : HasStage threads NameStage.unlistedFile f) :
    HasStage threads NameStage.pendingFile f := by
  obtain ⟨u, here⟩ := has
  refine ⟨u, ?_⟩
  revert here
  cases (threads u).stage <;> simp [NameStage.unlistedFile, NameStage.pendingFile]

/-- A key that is neither entered nor about to be belongs to no file. -/
theorem NamesSound.unkeyed (sound : NamesSound v threads) {K : Nat × Name} (absent : v.createdFiles.lookup K = none)
    (apart : ∀ f, HasStage threads NameStage.pendingFile f → (v.file f).key ≠ K) {x : Nat}
    (used : (v.files x).used = true) : (v.files x).key ≠ K := by
  intro same
  rcases sound.files.registered x used with entered | ⟨f, has, rfl⟩
  · rw [same, absent] at entered
    simp at entered
  · exact apart f has same

/-- A name that is neither entered nor about to be belongs to no directory. -/
theorem NamesSound.untitled (sound : NamesSound v threads) {n : Name} (absent : v.createdDirs.lookup n = none)
    (apart : ∀ d, HasStage threads NameStage.pendingDir d → (v.dir d).dirName ≠ n) {i : Nat}
    (used : (v.dirs i).used = true) : (v.dirs i).dirName ≠ n := by
  intro same
  obtain ⟨d, bound, rfl, entered | has⟩ := sound.dirs.entered i used
  · rw [same, absent] at entered
    simp at entered
  · exact apart d has same

theorem storedName_short {path dirName filename : Name} (leads : LeadsTo path dirName filename) (x : Nat) :
    storedName false filename x = filename := by
  obtain ⟨dirname, parts, _⟩ := leads
  have short : filename.length < kBlockFsMaxFileNameLen := by
    unfold FileHandle.transformPath at parts
    grind only
  exact List.take_of_length_le short.le

end Known

end BlockFs
