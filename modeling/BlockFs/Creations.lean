import BlockFs.Create
import BlockFs.Namespace
import BlockFs.Tree

namespace BlockFs

structure FileEntry where
  used : Bool
  fh : Nat
  dh : Nat
  fileName : Name

structure DirEntry where
  used : Bool
  dh : Nat
  dirName : Name

/-- The roster of a file system: its slots without times and checksums, the objects that point at them
and the maps of what has been created. -/
structure Roster where
  files : Nat → FileEntry
  fileSlot : FilePtr → Nat
  nextFile : Nat
  freeFhs : List Nat
  createdFiles : Map (Nat × Name) FilePtr
  dirs : Nat → DirEntry
  directories : DirectoryPtr → Directory
  nextDirectory : Nat
  createdDirs : Map Name DirectoryPtr
  freeDhs : List Nat

/-- The key under which a file slot is entered. -/
def FileEntry.key (e : FileEntry) : Nat × Name := (e.dh, e.fileName)

/-- A path leads to this name in the directory of this name. -/
def LeadsTo (path dirName filename : Name) : Prop :=
  ∃ dirname, FileHandle.transformPath path = .ok (dirname, filename) ∧
    DirHandle.transformPath dirname = .ok dirName

/-- The name a new file gets in its slot. -/
def storedName (tmpfile : Bool) (filename : Name) (fh : Nat) : Name :=
  (if tmpfile then tmpFileName fh else filename).take kBlockFsMaxFileNameLen

namespace FileSystem

def roster (s : FileSystem) : Roster where
  files x := ⟨(s.fileMetas x).used, (s.fileMetas x).fh, (s.fileMetas x).dh, (s.fileMetas x).fileName⟩
  fileSlot f := (s.files f).metaSlot
  nextFile := s.nextFile
  freeFhs := s.freeFhs
  createdFiles := s.createdFiles
  dirs d := ⟨(s.dirMetas d).used, (s.dirMetas d).dh, (s.dirMetas d).dirName⟩
  directories := s.directories
  nextDirectory := s.nextDirectory
  createdDirs := s.createdDirs
  freeDhs := s.freeDhs

end FileSystem

namespace Roster

def slot (v : Roster) (d : DirectoryPtr) : Nat := (v.directories d).metaSlot
def dir (v : Roster) (d : DirectoryPtr) : DirEntry := v.dirs (v.slot d)
def file (v : Roster) (f : FilePtr) : FileEntry := v.files (v.fileSlot f)
def children (v : Roster) (d : DirectoryPtr) : Map Nat DirectoryPtr := (v.directories d).childDirMaps

/-- The free slot `x` goes to a new file. -/
def takeFile (v : Roster) (x : Nat) (rest : List Nat) (dh : Nat) (name : Name) : Roster :=
  { v with
    files := Function.update v.files x ⟨true, x, dh, name⟩
    fileSlot := Function.update v.fileSlot v.nextFile x
    nextFile := v.nextFile + 1
    freeFhs := rest }

def listFile (v : Roster) (dir : DirectoryPtr) (f : FilePtr) : Roster :=
  { v with directories := FileSystem.enlisted v.directories dir (v.file f).fh f }

def enterFile (v : Roster) (f : FilePtr) : Roster :=
  { v with createdFiles := v.createdFiles.insert (v.file f).key f }

/-- The free slot `x` goes to a new directory. -/
def takeDir (v : Roster) (x : Nat) (rest : List Nat) (dirName : Name) : Roster :=
  { v with
    dirs := Function.update v.dirs x ⟨true, x, dirName⟩
    directories := Function.update v.directories v.nextDirectory
      { metaSlot := x, nlink := 0, itemMaps := ∅, childDirMaps := ∅ }
    nextDirectory := v.nextDirectory + 1
    freeDhs := rest }

def adopt (v : Roster) (parent dir : DirectoryPtr) : Roster :=
  { v with directories := FileSystem.adoptedBy v.directories parent (v.dir dir).dh dir }

def enterDir (v : Roster) (dir : DirectoryPtr) : Roster :=
  { v with createdDirs := v.createdDirs.insert (v.dir dir).dirName dir }

def clear (v : Roster) (dir : DirectoryPtr) : Roster :=
  { v with dirs := Function.update v.dirs (v.slot dir) { v.dir dir with used := false } }

def orphan (v : Roster) (parent dir : DirectoryPtr) : Roster :=
  { v with directories := FileSystem.orphanedFrom v.directories parent (v.dir dir).dh }

def dropDir (v : Roster) (dir : DirectoryPtr) : Roster :=
  { v with createdDirs := v.createdDirs.erase (v.dir dir).dirName }

end Roster

namespace NameStage

/-- No slot is taken and no directory found yet. -/
def Searching : NameStage → Prop
  | .begun | .looking _ | .within .. => True
  | _ => False

end NameStage

/-- What one section of a call does to the roster. -/
inductive Moves (v : Roster) (call : NameCall) : NameStage → Roster → NameStage → Prop
  | fail {a} (file : a.pendingFile = none) (dir : a.pendingDir = none) : Moves v call a v (.returned (-1))
  | search {a b} (before : a.Searching) (after : b.Searching) : Moves v call a v b
  | locate {dir dirName filename} (found : v.createdDirs.lookup dirName = some dir)
    (leads : ∀ path, call = .createFile path false → LeadsTo path dirName filename) :
    Moves v call .begun v (.located dir filename)
  | takeFile {path tmpfile dir filename x rest} (same : call = .createFile path tmpfile)
    (free : v.freeFhs = x :: rest) (unused : (v.files x).used = false)
    (vacant : tmpfile = false → v.createdFiles.lookup ((v.dir dir).dh, filename) = none) :
    Moves v call (.located dir filename)
      (v.takeFile x rest (v.dir dir).dh (storedName tmpfile filename x)) (.fileTaken dir v.nextFile)
  | writeFile {dir f} : Moves v call (.fileTaken dir f) v (.fileWritten dir f)
  | listFile {dir f} : Moves v call (.fileWritten dir f) (v.listFile dir f) (.fileListed f)
  | enterFile {f} : Moves v call (.fileListed f) (v.enterFile f) (.returned 0)
  | takeDir {path dirName parent x rest} (same : call = .createDirectory path)
    (leads : DirHandle.transformPath path = .ok dirName) (vacant : v.createdDirs.lookup dirName = none)
    (above : if dirName = ['/'] then parent = none
      else ∃ p, parent = some p ∧ v.createdDirs.lookup (getDirName dirName) = some p)
    (free : v.freeDhs = x :: rest) :
    Moves v call (.looking []) (v.takeDir x rest dirName) (.taken parent v.nextDirectory)
  | writeDir {parent dir} : Moves v call (.taken parent dir) v (.written parent dir)
  | stand {parent dir} (root : (v.dir dir).dirName = ['/']) :
    Moves v call (.written parent dir) v (.listed parent dir)
  | adopt {parent dir} (inner : (v.dir dir).dirName ≠ ['/'])
    (absent : (v.children parent).lookup (v.dir dir).dh = none) :
    Moves v call (.written (some parent) dir) (v.adopt parent dir) (.listed (some parent) dir)
  | listedTwice {parent dir} (present : ((v.children parent).lookup (v.dir dir).dh).isSome) :
    Moves v call (.written (some parent) dir) v (.returned (-1))
  | enterDir {parent dir} (vacant : v.createdDirs.lookup (v.dir dir).dirName = none) :
    Moves v call (.listed parent dir) (v.enterDir dir) (.returned 0)
  | lostChild {parent dir} (absent : (v.children parent).lookup (v.dir dir).dh = none) :
    Moves v call (.listed (some parent) dir) v (.returned (-1))
  | find {path dirName parent dir} (same : call = .deleteDirectory path)
    (leads : DirHandle.transformPath path = .ok dirName)
    (above : v.createdDirs.lookup (getDirName dirName) = some parent)
    (found : v.createdDirs.lookup dirName = some dir) :
    Moves v call (.looking []) v (.found parent dir)
  | countChildren {parent dir} : Moves v call (.found parent dir) v (.childless parent dir)
  | countLinks {parent dir} : Moves v call (.childless parent dir) v (.unopened parent dir)
  | clear {parent dir} : Moves v call (.unopened parent dir) (v.clear dir) (.cleared parent dir)
  | orphan {parent dir} (present : ((v.children parent).lookup (v.dir dir).dh).isSome) :
    Moves v call (.cleared parent dir) (v.orphan parent dir) (.delisted dir)
  | dropDir {dir r} : Moves v call (.delisted dir) (v.dropDir dir) (.returned r)

namespace FileSystem

section Effects
variable {s : FileSystem} {env : Env}

theorem roster_modifyFileMeta (i : Nat) (g : FileMeta → FileMeta)
    (used : (g (s.fileMetas i)).used = (s.fileMetas i).used) (fh : (g (s.fileMetas i)).fh = (s.fileMetas i).fh)
    (dh : (g (s.fileMetas i)).dh = (s.fileMetas i).dh)
    (name : (g (s.fileMetas i)).fileName = (s.fileMetas i).fileName) :
    (s.modifyFileMeta i g).roster = s.roster := by
  have entry (x : Nat) := view_update s.fileMetas i x
    (fun m => FileEntry.mk m.used m.fh m.dh m.fileName) (a := g (s.fileMetas i))
    (by rw [used, fh, dh, name])
  rw [roster, roster]
  congr 1
  funext x
  exact entry x

theorem roster_modifyDirMeta (i : Nat) (g : DirMeta → DirMeta)
    (used : (g (s.dirMetas i)).used = (s.dirMetas i).used) (dh : (g (s.dirMetas i)).dh = (s.dirMetas i).dh)
    (name : (g (s.dirMetas i)).dirName = (s.dirMetas i).dirName) :
    (s.modifyDirMeta i g).roster = s.roster := by
  have entry (x : Nat) := view_update s.dirMetas i x
    (fun m => DirEntry.mk m.used m.dh m.dirName) (a := g (s.dirMetas i))
    (by rw [used, dh, name])
  rw [roster, roster]
  congr 1
  funext x
  exact entry x

theorem roster_clear [Crc32] (dir : DirectoryPtr) :
    (s.modifyDirMeta (s.directories dir).metaSlot fun m => m.clear.sealed).roster = s.roster.clear dir := by
  rw [roster, Roster.clear]
  congr 1
  funext x
  dsimp only [roster, Roster.slot, Roster.dir, modifyDirMeta]
  rw [Function.update_apply, Function.update_apply]
  split <;> rfl

theorem newFreeFile_roster (s : FileSystem) (dh : Nat) (nameOf : Nat → Name) (isTemp : Bool) :
    (∃ t, s.newFreeFile dh nameOf isTemp = (t, none) ∧ t.roster = s.roster) ∨
    ∃ t x rest, s.newFreeFile dh nameOf isTemp = (t, some s.nextFile) ∧ s.freeFhs = x :: rest ∧
      (s.fileMetas x).used = false ∧
      t.roster = s.roster.takeFile x rest dh ((nameOf x).take kBlockFsMaxFileNameLen) := by
  unfold newFreeFile
  cases free : s.freeFhs with
  | nil => exact .inl ⟨_, rfl, by rw [roster, roster, free]⟩
  | cons x rest =>
    dsimp only
    by_cases spoilt : (s.fileMetas x).used = true ∨ (s.fileMetas x).fh ≠ x ∨ (s.fileMetas x).size ≠ 0
    · rw [if_pos spoilt]
      exact .inl ⟨_, rfl, by rw [roster, roster, free]⟩
    · rw [if_neg spoilt]
      refine .inr ⟨_, x, rest, rfl, rfl, ?_, ?_⟩
      · simpa using fun used => spoilt (.inl used)
      · rw [roster, Roster.takeFile]
        congr 1
        · funext y
          dsimp only [roster, modifyFileMeta]
          rw [Function.update_apply, Function.update_apply]
          split <;> rfl
        · funext f
          dsimp only [roster, modifyFileMeta]
          rw [Function.update_apply, Function.update_apply]
          split <;> rfl

theorem newFileIn_roster (s : FileSystem) (env : Env) (dir : DirectoryPtr) (filename : Name) (tmpfile : Bool) :
    (∃ t, s.newFileIn env dir filename tmpfile = (t, none) ∧ t.roster = s.roster) ∨
    ∃ t x rest, s.newFileIn env dir filename tmpfile = (t, some s.nextFile) ∧ s.freeFhs = x :: rest ∧
      (s.fileMetas x).used = false ∧
      (tmpfile = false → s.createdFiles.lookup ((s.dirMeta dir).dh, filename) = none) ∧
      t.roster = s.roster.takeFile x rest (s.dirMeta dir).dh (storedName tmpfile filename x) := by
  unfold newFileIn
  dsimp only
  by_cases entered : (!tmpfile && (s.createdFiles.lookup ((s.dirMeta dir).dh, filename)).isSome) = true
  · rw [if_pos entered]
    exact .inl ⟨_, rfl, rfl⟩
  rw [if_neg entered]
  have one : (if tmpfile then s.newFreeTmpFileNolock (s.dirMeta dir).dh
      else s.newFreeFileNolock (s.dirMeta dir).dh filename) =
      s.newFreeFile (s.dirMeta dir).dh (if tmpfile then tmpFileName else fun _ => filename) tmpfile := by
    cases tmpfile <;> rfl
  rw [one]
  rcases newFreeFile_roster s (s.dirMeta dir).dh (if tmpfile then tmpFileName else fun _ => filename) tmpfile with
    ⟨t, refused, same⟩ | ⟨t, x, rest, made, free, unused, same⟩
  · rw [refused]
    exact .inl ⟨t, rfl, same⟩
  · rw [made]
    refine .inr ⟨_, x, rest, rfl, free, unused, fun named => by simpa [named] using entered, ?_⟩
    have name : (if tmpfile = true then tmpFileName else fun _ => filename) x =
        if tmpfile then tmpFileName x else filename := by
      cases tmpfile <;> rfl
    rw [roster_modifyFileMeta _ _ rfl rfl rfl rfl, same, storedName, name]

theorem roster_addChildFile (dir : DirectoryPtr) (f : FilePtr) :
    (s.addChildFile dir f).1.roster = s.roster.listFile dir f := by
  rw [Roster.listFile, ← show (s.addChildFile dir f).1.directories =
    enlisted s.roster.directories dir (s.roster.file f).fh f from addChildFile_directories s dir f]
  unfold addChildFile
  split <;> rfl

theorem newDirectory_roster (s : FileSystem) (env : Env) {path dirName : Name}
    (leads : DirHandle.transformPath path = .ok dirName) :
    (∃ t, s.newDirectory env dirName = (t, none) ∧ t.roster = s.roster) ∨
    ∃ t parent x rest, s.newDirectory env dirName = (t, some (parent, s.nextDirectory)) ∧
      s.createdDirs.lookup dirName = none ∧ s.freeDhs = x :: rest ∧
      (if dirName = ['/'] then parent = none
        else ∃ p, parent = some p ∧ s.createdDirs.lookup (getDirName dirName) = some p) ∧
      t.roster = s.roster.takeDir x rest dirName := by
  have short := (dirTransformPath_ok leads).2
  have taken (x : Nat) (rest : List Nat) :
      (s.lodged env dirName x rest).roster = s.roster.takeDir x rest dirName := by
    rw [roster, Roster.takeDir]
    congr 1
    funext y
    dsimp only [lodged, modifyDirMeta, roster]
    rw [Function.update_apply, Function.update_apply]
    split
    · rw [setDirName_short _ short]
    · rfl
  unfold newDirectory
  split
  · exact .inl ⟨_, rfl, rfl⟩
  next vacant =>
  have vacant : s.createdDirs.lookup dirName = none := by simpa using vacant
  split
  · next mount =>
    have root := isMountPoint_eq.mp mount
    rcases newFreeDirectoryNolock_cases s env dirName with ⟨e, _, refused⟩ | ⟨x, rest, free, made⟩
    · rw [refused]
      exact .inl ⟨_, rfl, rfl⟩
    · rw [made]
      exact .inr ⟨_, none, x, rest, rfl, vacant, free, by rw [if_pos root], taken x rest⟩
  · next inner =>
    have inner : dirName ≠ ['/'] := fun root => inner (isMountPoint_eq.mpr root)
    split
    · exact .inl ⟨_, rfl, rfl⟩
    next parent above =>
    rcases newFreeDirectoryNolock_cases s env dirName with ⟨e, _, refused⟩ | ⟨x, rest, free, made⟩
    · rw [refused]
      exact .inl ⟨_, rfl, rfl⟩
    · rw [made]
      exact .inr ⟨_, some parent, x, rest, rfl, vacant, free, by rw [if_neg inner]; exact ⟨parent, rfl, above⟩,
        taken x rest⟩

section Writes
variable [Crc32]

theorem writeMeta_roster (ok : env.IoOk) (s : FileSystem) (f : FilePtr) :
    ∃ t, s.writeMeta env f = (t, true) ∧ t.roster = s.roster := by
  rw [writeMeta, writeFileMeta, pwriteDirect, if_pos (ok.1 _)]
  exact ⟨_, rfl, roster_modifyFileMeta (s := s) (s.fileMeta f).fh FileMeta.sealed rfl rfl rfl rfl⟩

theorem writeDirMeta_keepsRoster (ok : env.IoOk) (s : FileSystem) (dh : Nat) :
    ∃ t, s.writeDirMeta env dh = (t, true) ∧ t.roster = s.roster := by
  rw [writeDirMeta, pwriteDirect, if_pos (ok.1 _)]
  exact ⟨_, rfl, roster_modifyDirMeta (s := s) dh DirMeta.sealed rfl rfl rfl⟩

theorem writeDirMetaRetry_roster (ok : env.IoOk) (s : FileSystem) (dh tries : Nat) :
    ∃ t, writeDirMetaRetry env dh (tries + 1) s = (t, true) ∧ t.roster = s.roster := by
  obtain ⟨t, written, same⟩ := writeDirMeta_keepsRoster ok s dh
  exact ⟨t, by rw [writeDirMetaRetry, written], same⟩

end Writes

end Effects

end FileSystem

namespace NameCaller
open FileSystem

section Advance
variable {s s' : FileSystem} {env : Env} {call : NameCall} {path : Name} {stage stage' : NameStage}

theorem nextLook_moves (result : nextLook s stage = some (s', stage')) :
    Moves s.roster call stage s'.roster stage' := by
  unfold nextLook at result
  split at result
  · next path found paths =>
    split at result
    · obtain ⟨rfl, rfl⟩ := Prod.mk.inj (Option.some.inj result)
      exact .search trivial trivial
    · split at result <;> obtain ⟨rfl, rfl⟩ := Prod.mk.inj (Option.some.inj result)
      · exact .search trivial trivial
      · exact .search trivial trivial
  · next dir filename found paths =>
    split at result <;> obtain ⟨rfl, rfl⟩ := Prod.mk.inj (Option.some.inj result)
    · exact .fail rfl rfl
    · exact .search trivial trivial
  · simp at result

variable [Crc32]

theorem nextCreateFile_moves {tmpfile : Bool} (ok : env.IoOk)
    (result : nextCreateFile s env path tmpfile stage = some (s', stage')) :
    Moves s.roster (.createFile path tmpfile) stage s'.roster stage' := by
  unfold nextCreateFile at result
  split at result
  · split at result
    · obtain ⟨rfl, rfl⟩ := Prod.mk.inj (Option.some.inj result)
      exact .fail rfl rfl
    next dirname filename parts =>
    cases home : s.getCreatedDirectory dirname with
    | error e =>
      rw [home] at result
      obtain ⟨rfl, rfl⟩ := Prod.mk.inj (Option.some.inj result)
      exact .fail rfl rfl
    | ok dir =>
      rw [home] at result
      obtain ⟨rfl, rfl⟩ := Prod.mk.inj (Option.some.inj result)
      obtain ⟨dirName, leads, search⟩ := Except.bind_eq_ok.mp home
      have entry : s.createdDirs.lookup dirName = some dir := by
        split at search
        · next d there => rw [there, Except.ok.inj search]
        · simp at search
      refine .locate entry fun path' same => ?_
      obtain ⟨rfl, rfl⟩ := NameCall.createFile.inj same
      exact ⟨dirname, parts, leads⟩
  · next dir filename =>
    rcases newFileIn_roster s env dir filename tmpfile with
      ⟨t, refused, same⟩ | ⟨t, x, rest, made, free, unused, vacant, same⟩
    · rw [refused] at result
      obtain ⟨rfl, rfl⟩ := Prod.mk.inj (Option.some.inj result)
      rw [same]
      exact .fail rfl rfl
    · rw [made] at result
      obtain ⟨rfl, rfl⟩ := Prod.mk.inj (Option.some.inj result)
      rw [same]
      exact .takeFile rfl free unused vacant
  · next dir f =>
    obtain ⟨t, written, same⟩ := writeMeta_roster ok s f
    rw [written] at result
    obtain ⟨rfl, rfl⟩ := Prod.mk.inj (Option.some.inj result)
    rw [same]
    exact .writeFile
  · next dir f =>
    obtain ⟨rfl, rfl⟩ := Prod.mk.inj (Option.some.inj result)
    rw [roster_addChildFile]
    exact .listFile
  · obtain ⟨rfl, rfl⟩ := Prod.mk.inj (Option.some.inj result)
    exact .enterFile
  · simp at result

omit [Crc32] in
/-- What `AddDirectory` does where the directory is in an index already. -/
theorem addDirectory_refused {parent : Option DirectoryPtr} {dir : DirectoryPtr}
    (result : (match parent with
      | none => none
      | some p =>
        match s.removChildDirectory p dir with
        | (_, true) => none
        | (s, false) => some (s, NameStage.returned (-1))) = some (s', stage')) :
    Moves s.roster call (.listed parent dir) s'.roster stage' := by
  cases parent with
  | none => simp at result
  | some p =>
    dsimp only at result
    unfold removChildDirectory at result
    by_cases absent : ((s.directories p).childDirMaps.lookup (s.dirMeta dir).dh).isNone = true
    · rw [if_pos absent] at result
      obtain ⟨rfl, rfl⟩ := Prod.mk.inj (Option.some.inj result)
      exact .lostChild (Option.isNone_iff_eq_none.mp absent)
    · rw [if_neg absent] at result
      simp at result

theorem nextCreateDirectory_moves (ok : env.IoOk)
    (result : nextCreateDirectory s env path stage = some (s', stage')) :
    Moves s.roster (.createDirectory path) stage s'.roster stage' := by
  unfold nextCreateDirectory at result
  split at result
  · obtain ⟨rfl, rfl⟩ := Prod.mk.inj (Option.some.inj result)
    exact .search trivial trivial
  · split at result
    · obtain ⟨rfl, rfl⟩ := Prod.mk.inj (Option.some.inj result)
      exact .fail rfl rfl
    next dirName leads =>
    rcases newDirectory_roster s env leads with
      ⟨t, refused, same⟩ | ⟨t, parent, x, rest, made, vacant, free, above, same⟩
    · rw [refused] at result
      obtain ⟨rfl, rfl⟩ := Prod.mk.inj (Option.some.inj result)
      rw [same]
      exact .fail rfl rfl
    · rw [made] at result
      obtain ⟨rfl, rfl⟩ := Prod.mk.inj (Option.some.inj result)
      rw [same]
      exact .takeDir rfl leads vacant above free
  · next parent dir =>
    obtain ⟨t, written, same⟩ := writeDirMetaRetry_roster ok s (s.dirMeta dir).dh 2
    rw [written] at result
    obtain ⟨rfl, rfl⟩ := Prod.mk.inj (Option.some.inj result)
    rw [same]
    exact .writeDir
  · next parent dir =>
    by_cases mount : isMountPoint (s.dirMeta dir).dirName = true
    · rw [if_pos mount] at result
      obtain ⟨rfl, rfl⟩ := Prod.mk.inj (Option.some.inj result)
      exact .stand (isMountPoint_eq.mp mount)
    rw [if_neg mount] at result
    cases parent with
    | none => simp at result
    | some p =>
      dsimp only at result
      have moved := addChildDirectory_eq s p dir
      rcases child : s.addChildDirectory p dir with ⟨t, _ | _⟩
      · rw [child] at result moved
        obtain ⟨rfl, rfl⟩ := Prod.mk.inj (Option.some.inj result)
        unfold addChildDirectory at child
        split at child
        · next present =>
          obtain ⟨rfl, -⟩ := Prod.mk.inj child
          exact .listedTwice present
        · simp at child
      · rw [child] at result moved
        obtain ⟨rfl, rfl⟩ := Prod.mk.inj (Option.some.inj result)
        have absent : (s.directories p).childDirMaps.lookup (s.dirMeta dir).dh = none := by
          unfold addChildDirectory at child
          split at child
          · simp at child
          · next absent => simpa using absent
        dsimp only at moved
        rw [show t.roster = s.roster.adopt p dir by rw [moved]; rfl]
        exact .adopt (fun root => mount (isMountPoint_eq.mpr root)) absent
  · next parent dir =>
    by_cases named : (s.createdDirs.lookup (s.dirMeta dir).dirName).isSome
    · have taken : s.addDirectory2CreateNolock dir = (s, false) := by
        rw [addDirectory2CreateNolock, if_pos named]
      rw [taken] at result
      exact addDirectory_refused result
    by_cases handled : (s.createdDhs.lookup (s.dirMeta dir).dh).isSome
    · have taken : s.addDirectory2CreateNolock dir = (s, false) := by
        rw [addDirectory2CreateNolock, if_neg named, if_pos handled]
      rw [taken] at result
      exact addDirectory_refused result
    · rw [addDirectory2CreateNolock, if_neg named, if_neg handled] at result
      obtain ⟨rfl, rfl⟩ := Prod.mk.inj (Option.some.inj result)
      exact .enterDir (Option.not_isSome_iff_eq_none.mp named)
  · exact nextLook_moves result

theorem nextDeleteDirectory_moves (ok : env.IoOk)
    (result : nextDeleteDirectory s env path stage = some (s', stage')) :
    Moves s.roster (.deleteDirectory path) stage s'.roster stage' := by
  unfold nextDeleteDirectory at result
  split at result
  · obtain ⟨rfl, rfl⟩ := Prod.mk.inj (Option.some.inj result)
    exact .search trivial trivial
  · split at result
    · obtain ⟨rfl, rfl⟩ := Prod.mk.inj (Option.some.inj result)
      exact .fail rfl rfl
    next dirName leads =>
    split at result
    · obtain ⟨rfl, rfl⟩ := Prod.mk.inj (Option.some.inj result)
      exact .fail rfl rfl
    split at result
    · obtain ⟨rfl, rfl⟩ := Prod.mk.inj (Option.some.inj result)
      exact .fail rfl rfl
    next parent dir search =>
    obtain ⟨rfl, rfl⟩ := Prod.mk.inj (Option.some.inj result)
    obtain ⟨above, found⟩ := findDirectory_ok search
    exact .find rfl leads above found
  · split at result <;> obtain ⟨rfl, rfl⟩ := Prod.mk.inj (Option.some.inj result)
    · exact .fail rfl rfl
    · exact .countChildren
  · split at result <;> obtain ⟨rfl, rfl⟩ := Prod.mk.inj (Option.some.inj result)
    · exact .fail rfl rfl
    · exact .countLinks
  · next parent dir =>
    have cleared := roster_clear (s := s) dir
    dsimp only at result
    generalize (s.modifyDirMeta (s.directories dir).metaSlot fun m => m.clear.sealed) = t at result cleared
    obtain ⟨u, written, same⟩ := writeDirMeta_keepsRoster ok t (t.dirMeta dir).dh
    rw [written] at result
    obtain ⟨rfl, rfl⟩ := Prod.mk.inj (Option.some.inj result)
    rw [same, cleared]
    exact .clear
  · next parent dir =>
    rw [removChildDirectory_eq] at result
    by_cases present : ((s.directories parent).childDirMaps.lookup (s.dirMeta dir).dh).isSome = true
    · rw [present] at result
      obtain ⟨rfl, rfl⟩ := Prod.mk.inj (Option.some.inj result)
      exact .orphan present
    · rw [Bool.not_eq_true] at present
      rw [present] at result
      obtain ⟨rfl, rfl⟩ := Prod.mk.inj (Option.some.inj result)
      have absent : (s.directories parent).childDirMaps.lookup (s.dirMeta dir).dh = none := by
        simpa using present
      have still : orphanedFrom s.directories parent (s.dirMeta dir).dh = s.directories := by
        rw [orphanedFrom, erase_of_lookup_none absent, Function.update_eq_self]
      rw [show ({ s with directories := orphanedFrom s.directories parent (s.dirMeta dir).dh } :
        FileSystem).roster = s.roster by rw [still]]
      exact .fail rfl rfl
  · next dir =>
    unfold removeDirectoryFromCreateNolock at result
    by_cases named : (s.createdDirs.lookup (s.dirMeta dir).dirName).isNone = true
    · rw [if_pos named] at result
      obtain ⟨rfl, rfl⟩ := Prod.mk.inj (Option.some.inj result)
      exact .fail rfl rfl
    rw [if_neg named] at result
    dsimp only at result
    split at result
    · next back lost =>
      obtain ⟨rfl, rfl⟩ := Prod.mk.inj (Option.some.inj result)
      split at lost
      · obtain ⟨rfl, -⟩ := Prod.mk.inj lost
        exact .dropDir
      · simp at lost
    · next back done =>
      obtain ⟨rfl, rfl⟩ := Prod.mk.inj (Option.some.inj result)
      split at done
      · simp at done
      · obtain ⟨rfl, -⟩ := Prod.mk.inj done
        exact .dropDir
  · exact nextLook_moves result

/-- A section whose writes succeed does to the roster what the abstract step says. -/
theorem advance_moves (ok : env.IoOk) (result : advance s env call stage = some (s', stage')) :
    Moves s.roster call stage s'.roster stage' := by
  cases call with
  | createFile path tmpfile => exact nextCreateFile_moves ok result
  | createDirectory path => exact nextCreateDirectory_moves ok result
  | deleteDirectory path => exact nextDeleteDirectory_moves ok result

end Advance

end NameCaller

end BlockFs
