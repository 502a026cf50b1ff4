import BlockFs.Filing

namespace BlockFs.FileSystem

/-- Every slot carries its own handle, and the free ones are blank. -/
structure CleanFhs (s : FileSystem) : Prop where
  slots : ∀ i, (s.fileMetas i).fh = i
  unused : ∀ i ∈ s.freeFhs, (s.fileMetas i).used = false ∧ (s.fileMetas i).size = 0

/-- What the creation of a file in the free slot `x` changes. -/
structure Created (s s' : FileSystem) (x : Nat) (rest : List Nat) (m : FileMeta) : Prop where
  free : s.freeFhs = x :: rest
  fh : m.fh = x
  size : m.size = 0
  used : m.used = true
  layout : SameLayout s s'
  nextFile : s'.nextFile = s.nextFile + 1
  freeFhs : s'.freeFhs = rest
  freeFbhs : s'.freeFbhs = s.freeFbhs
  blockIdPool : s'.blockIdPool = s.blockIdPool
  fileBlockMetas : s'.fileBlockMetas = s.fileBlockMetas
  files : s'.files = Function.update s.files s.nextFile
    { metaSlot := x, nlink := 0, locked := false, deleted := false, itemMaps := ∅ }
  fileMetas : s'.fileMetas = Function.update s.fileMetas x m
  createdFhs : s'.createdFhs = s.createdFhs.insert x s.nextFile
  createdFiles : s'.createdFiles = s.createdFiles.insert (m.dh, m.fileName) s.nextFile
  openFiles : s'.openFiles = s.openFiles
  data : s'.disk.data = s.disk.data
  relisted : Relisted s s' x
  placed : ∃ dir, s.Leads dir ∧ m.dh = (s.dirMeta dir).dh ∧ s'.Lists dir x
  listing : ∃ dir, s.Leads dir ∧ m.dh = (s.dirMeta dir).dh ∧
    s'.directories = enlisted s.directories dir x s.nextFile

/-- The directory and the name a new file is entered under: a temporary one is named after its
slot. -/
def newKey (s : FileSystem) (dirname filename : Name) (tmpfile : Bool) : Option (Nat × Name) :=
  match s.getCreatedDirectory dirname, s.freeFhs with
  | .ok dir, x :: _ => some ((s.dirMeta dir).dh,
      (if tmpfile then tmpFileName x else filename).take kBlockFsMaxFileNameLen)
  | _, _ => none

section Creation
variable [Crc32] {s : FileSystem} {env : Env} {lost : Lost}

theorem Consistent.clean (consistent : Consistent s lost) : CleanFhs s :=
  ⟨consistent.slots, consistent.cleanFhs⟩

omit [Crc32] in
/-- A free slot is clean, so `NewFreeFileNolock` only fails when there is none. -/
theorem CleanFhs.newFreeFile_cons (clean : CleanFhs s) (dh : Nat) (nameOf : Nat → Name)
    (isTemp : Bool) {x : Nat} {rest : List Nat} (free : s.freeFhs = x :: rest) :
    s.newFreeFile dh nameOf isTemp =
      ({ s with
          fileMetas := Function.update s.fileMetas x
            { (s.fileMetas x).setFileName (nameOf x) with
              used := true, fh := x, dh := dh, isTemp := isTemp }
          files := Function.update s.files s.nextFile
            { metaSlot := x, nlink := 0, locked := false, deleted := false, itemMaps := ∅ }
          nextFile := s.nextFile + 1
          freeFhs := rest }, some s.nextFile) := by
  obtain ⟨unused, empty⟩ := clean.unused x (by simp [free])
  simp [newFreeFile, free, unused, empty, clean.slots]

/-- The state in which a file has got the free slot `x`. -/
def allocated (s : FileSystem) (x : Nat) (rest : List Nat) (m : FileMeta) : FileSystem :=
  { s with
    fileMetas := Function.update s.fileMetas x m
    files := Function.update s.files s.nextFile
      { metaSlot := x, nlink := 0, locked := false, deleted := false, itemMaps := ∅ }
    nextFile := s.nextFile + 1
    freeFhs := rest }

/-- The free slot `x` made out to a new file. -/
def freshMeta (s : FileSystem) (env : Env) (x dh : Nat) (name : Name) (isTemp : Bool) : FileMeta :=
  { (s.fileMetas x).setFileName name with
    used := true, fh := x, dh := dh, isTemp := isTemp, atime := env.now, mtime := env.now,
    ctime := env.now }

omit [Crc32] in
theorem newFile_cases (clean : CleanFhs s) (env : Env) (dirname filename : Name)
    (tmpfile : Bool) :
    (∃ e, s.newFile env dirname filename tmpfile = ({ s with errno := e }, none)) ∨
    ∃ x rest m dir, s.freeFhs = x :: rest ∧ m.fh = x ∧ m.size = 0 ∧ m.used = true ∧ s.Leads dir ∧
      m.dh = (s.dirMeta dir).dh ∧ s.newKey dirname filename tmpfile = some (m.dh, m.fileName) ∧
      (tmpfile = false → s.createdFiles.lookup (m.dh, filename) = none) ∧
      s.newFile env dirname filename tmpfile = (s.allocated x rest m, some (dir, s.nextFile)) := by
  rw [newFile]
  cases found : s.getCreatedDirectory dirname with
  | error e => exact .inl ⟨_, rfl⟩
  | ok dir =>
    dsimp only
    split
    · exact .inl ⟨_, rfl⟩
    next vacant =>
    cases free : s.freeFhs with
    | nil =>
      refine .inl ⟨ENFILE, ?_⟩
      cases tmpfile <;> simp [newFreeTmpFileNolock, newFreeFileNolock, newFreeFile, free]
    | cons x rest =>
      have empty := (clean.unused x (by simp [free])).2
      refine .inr ⟨x, rest, s.freshMeta env x (s.dirMeta dir).dh
        (if tmpfile then tmpFileName x else filename) tmpfile, dir, rfl, rfl, empty, rfl,
        getCreatedDirectory_ok found, rfl, by simp only [newKey, found, free]; rfl, fun named => ?_, ?_⟩
      · simpa [named, freshMeta] using vacant
      cases tmpfile <;>
        simp [newFreeTmpFileNolock, newFreeFileNolock, clean.newFreeFile_cons _ _ _ free,
          allocated, freshMeta]

/-- `CreateFile` fails without a trace, or creates one file. -/
theorem createFileIn_cases (clean : CleanFhs s) (ok : env.IoOk) (dirname filename : Name)
    (tmpfile : Bool) :
    (∃ e, s.createFileIn env dirname filename tmpfile = ({ s with errno := e }, none)) ∨
    ∃ s' x rest m, s.createFileIn env dirname filename tmpfile = (s', some s.nextFile) ∧
      Created s s' x rest m ∧ s.newKey dirname filename tmpfile = some (m.dh, m.fileName) ∧
      (tmpfile = false → s.createdFiles.lookup (m.dh, filename) = none) := by
  rcases newFile_cases clean env dirname filename tmpfile with
    ⟨e, failed⟩ | ⟨x, rest, m, dir, free, fh, size, used, leads, home, key, vacant, done⟩
  · exact .inl ⟨e, by rw [createFileIn, failed]⟩
  · have slot : ((s.allocated x rest m).fileMeta s.nextFile) = m := by
      simp [allocated, fileMeta]
    have added := addFileToDirectory_frame ((s.allocated x rest m).saveFile x) dir s.nextFile
    have relisted := addChildFile_relisted ((s.allocated x rest m).saveFile x) dir s.nextFile x
    have lists := addChildFile_lists ((s.allocated x rest m).saveFile x) dir s.nextFile
    have saved : ((s.allocated x rest m).saveFile x).fileMeta s.nextFile = m.sealed := by
      simp [saveFile, persist, allocated, fileMeta]
    rw [saved] at added lists
    rw [FileMeta.sealed_fh, fh] at lists
    have listing := addChildFile_directories ((s.allocated x rest m).saveFile x) dir s.nextFile
    rw [saved, FileMeta.sealed_fh, fh] at listing
    refine .inr ⟨{ ((s.allocated x rest m).saveFile x).addFileToDirectory dir s.nextFile with
      errno := 0 }, x, rest, m.sealed, ?_, ?_, key, vacant⟩
    · rw [createFileIn, done]
      dsimp only
      rw [writeMeta, slot, fh, writeFileMeta_ok ok]
    · rw [added]
      exact
        { free := free
          fh := fh
          size := size
          used := used
          layout := ⟨rfl, rfl, by simp [saveFile, persist, allocated], rfl⟩
          nextFile := rfl
          freeFhs := rfl
          freeFbhs := rfl
          blockIdPool := rfl
          fileBlockMetas := rfl
          files := rfl
          fileMetas := by simp [saveFile, persist, allocated]
          createdFhs := by rw [FileMeta.sealed_fh, fh]; rfl
          createdFiles := rfl
          openFiles := rfl
          data := by simp [saveFile, persist, allocated]
          relisted := ⟨rfl, relisted.metaSlot, relisted.childDirMaps, relisted.kept⟩
          placed := ⟨dir, leads, home, lists⟩
          listing := ⟨dir, leads, home, listing⟩ }

theorem Created.sameFile (consistent : Consistent s lost) {s' : FileSystem} {x : Nat}
    {rest : List Nat} {m : FileMeta} (created : Created s s' x rest m) {g : FilePtr}
    (bound : g < s.nextFile) : SameFile s s' g := by
  have head : x ∈ s.freeFhs := by simp [created.free]
  refine .of_agree ?_ ?_ fun b _ => by rw [created.fileBlockMetas]
  · rw [created.files, Function.update_of_ne (Nat.ne_of_lt bound)]
  · rw [created.fileMetas, Function.update_of_ne (consistent.metaSlot_not_free bound head)]

/-- A new file is enrolled with the slot it took and nothing else. -/
theorem Consistent.created (consistent : Consistent s lost) {s' : FileSystem} {x : Nat}
    {rest : List Nat} {m : FileMeta} (created : Created s s' x rest m) : Consistent s' lost := by
  have nodup := consistent.handles.free_nodup (Multiset.nodup_range _)
  rw [created.free, Multiset.coe_nodup, List.nodup_cons] at nodup
  have new : s.nextFile ∉ Finset.range s.nextFile := Finset.notMem_range_self
  have same (g : FilePtr) (bound : g < s.nextFile) : SameFile s s' g :=
    created.sameFile consistent bound
  have file : s'.files s.nextFile =
      { metaSlot := x, nlink := 0, locked := false, deleted := false, itemMaps := ∅ } := by
    rw [created.files, Function.update_self]
  have owners : Finset.range s'.nextFile = insert s.nextFile (Finset.range s.nextFile) := by
    rw [created.nextFile, Finset.range_add_one]
  have listed : ((x :: rest : List Nat) : Multiset Nat) = {x} + rest := by simp
  have none : s'.attached s.nextFile = [] := by rw [attached, file]; rfl
  exact
    { super := by rw [created.layout.superMeta, created.layout.diskSize, consistent.super]
      large := created.layout.diskSize ▸ consistent.large
      count := by rw [created.layout.maxBlockNum, created.layout.diskSize, consistent.count]
      parents := by rw [created.layout.parentFiles, consistent.parents]
      slots := fun i => by
        rw [created.fileMetas, Function.update_apply]
        split
        · next here => rw [here, created.fh]
        · exact consistent.slots i
      handles := by
        rw [owners]
        refine consistent.handles.enroll new (fun g member => ?_) ?_
        · rw [(same g (Finset.mem_range.mp member)).metaSlot]
        · rw [created.freeFhs, created.free, file, listed, add_comm]
      fileBlocks := by
        rw [owners, created.freeFbhs]
        refine consistent.fileBlocks.enroll new (fun g member => ?_) ?_
        · rw [(same g (Finset.mem_range.mp member)).attached_eq]
        · rw [none, Multiset.coe_nil, add_zero]
      blocks := by
        rw [owners, created.blockIdPool, created.layout.maxBlockNum]
        refine consistent.blocks.enroll new (fun g member => ?_) ?_
        · rw [(same g (Finset.mem_range.mp member)).blockIds_eq]
        · rw [blockIds, none, List.flatMap_nil, Multiset.coe_nil, add_zero]
      cleanFhs := fun i member => by
        rw [created.freeFhs] at member
        have apart : i ≠ x := fun here => nodup.1 (here ▸ member)
        rw [created.fileMetas, Function.update_of_ne apart]
        exact consistent.cleanFhs i (by rw [created.free]; exact List.mem_cons_of_mem x member)
      cleanFbhs := fun b member => by
        rw [created.fileBlockMetas]
        exact consistent.cleanFbhs b (created.freeFbhs ▸ member)
      rep := fun g bound => by
        rw [created.nextFile] at bound
        by_cases here : g = s.nextFile
        · subst here
          refine .empty ?_ (by rw [file]; rfl)
          rw [fileMeta, file, created.fileMetas]
          exact (congrArg FileMeta.size (Function.update_self x m s.fileMetas)).trans created.size
        · have old : g < s.nextFile := by omega
          exact (same g old).fileRep (consistent.rep g old) }

end Creation

end BlockFs.FileSystem
