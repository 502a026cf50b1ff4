import BlockFs.Moves

namespace BlockFs.FileSystem

/-- What `ftruncate` can do to a consistent file system whose I/O succeeds. -/
inductive Truncation [Crc32] (s : FileSystem) (env : Env) (f : FilePtr) (offset : Nat) :
    FileSystem → Int → Prop
  | grow {s' r} (grows : (s.fileMeta f).size < offset) (extension : Extension s env f offset s' r) :
    Truncation s env f offset s' r
  | shrink {s' r old} (shrinks : offset < (s.fileMeta f).size)
    (entries : (s.files f).itemMaps.entries = [⟨0, old⟩])
    (shrinkage : Shrinkage s env f offset old s' r) : Truncation s env f offset s' r
  | keep (same : (s.fileMeta f).size = offset) : Truncation s env f offset s 0

/-- The growth asks for fewer than `2 ^ 32` blocks, or is refused before they are counted. -/
def Narrow (s : FileSystem) (f : FilePtr) (offset : Nat) : Prop :=
  s.superMeta.deviceSize < offset ∨ blocksNeeded (s.fileMeta f).size offset < 2 ^ 32

/-- The condition under which `ftruncate` fails with blocks or a file block in hand. -/
def Leaks (s : FileSystem) (f : FilePtr) (offset : Nat) : Prop :=
  ((s.fileMeta f).size < offset ∧ s.Overfull f offset) ∨
    (offset < (s.fileMeta f).size ∧ s.LosesFileBlock f offset)

section Truncation
variable [Crc32] {s s' : FileSystem} {env : Env} {f : FilePtr} {offset : Nat} {r : Int} {lost : Lost}

theorem ftruncate_cases (consistent : Consistent s lost) (ok : env.IoOk) (bound : f < s.nextFile)
    (narrow : s.Narrow f offset) :
    ∃ s' r, s.ftruncate env f offset = .ok (s', r) ∧ Truncation s env f offset s' r := by
  rcases Nat.lt_trichotomy (s.fileMeta f).size offset with grows | same | shrinks
  · obtain ⟨s', r, result, extension⟩ := extendFile_cases consistent ok bound grows narrow
    exact ⟨s', r, by rw [ftruncate, if_pos grows, result], .grow grows extension⟩
  · exact ⟨s, 0, by rw [ftruncate, if_neg (by omega), if_neg (by omega)], .keep same⟩
  · cases consistent.rep f bound with
    | empty size => omega
    | backed old size entries backs =>
      obtain ⟨s', r, result, shrinkage⟩ := shrinkFile_cases consistent ok bound entries shrinks
      exact ⟨s', r, by rw [ftruncate, if_neg (by omega), if_pos shrinks, result],
        .shrink shrinks entries shrinkage⟩

theorem Truncation.consistent (consistent : Consistent s lost) (bound : f < s.nextFile)
    (truncation : Truncation s env f offset s' r) :
    ∃ lost', (¬(offset < (s.fileMeta f).size ∧ s.LosesSlot f offset) → lost'.fhs = lost.fhs) ∧
      (¬s.Leaks f offset → lost'.fbhs = lost.fbhs ∧ lost'.ids = lost.ids) ∧ Consistent s' lost' := by
  cases truncation with
  | grow grows extension =>
    obtain ⟨lost', fhs, safe, consistent'⟩ := extension.consistent consistent bound grows
    refine ⟨lost', fun _ => fhs, fun fits => ?_, consistent'⟩
    rw [safe fun overfull => fits (.inl ⟨grows, overfull⟩)]
    exact ⟨rfl, rfl⟩
  | shrink shrinks entries shrinkage =>
    obtain ⟨lost', fhs, safe, consistent'⟩ := shrinkage.consistent consistent bound entries shrinks
    exact ⟨lost', fun kept => fhs fun loses => kept ⟨shrinks, loses⟩,
      fun fits => safe fun loses => fits (.inr ⟨shrinks, loses⟩), consistent'⟩
  | keep same => exact ⟨lost, fun _ => rfl, fun _ => ⟨rfl, rfl⟩, consistent⟩

end Truncation

section Index
variable [Crc32] {s s' : FileSystem} {env : Env} {f : FilePtr} {offset : Nat} {r : Int} {lost : Lost}

omit [Crc32] in
/-- A change of file slots that keeps directory and name, and of item maps. -/
theorem SameIndex.of_content (nextFile : s'.nextFile = s.nextFile)
    (createdFhs : s'.createdFhs = s.createdFhs) (createdFiles : s'.createdFiles = s.createdFiles)
    (openFiles : s'.openFiles = s.openFiles)
    (metaSlot : ∀ g, (s'.files g).metaSlot = (s.files g).metaSlot)
    (nlink : ∀ g, (s'.files g).nlink = (s.files g).nlink)
    (name : ∀ g < s.nextFile, (s'.fileMetas (s.files g).metaSlot).dh = (s.fileMeta g).dh ∧
      (s'.fileMetas (s.files g).metaSlot).fileName = (s.fileMeta g).fileName) : SameIndex s s' where
  nextFile := nextFile
  createdFhs := createdFhs
  createdFiles := createdFiles
  opened fd := by rw [openedFile, openedFile, openFiles]
  metaSlot := metaSlot
  nlink := nlink
  key g bound := by
    simp only [FileSystem.key, fileMeta, metaSlot]
    exact Prod.ext (name g bound).1 (name g bound).2

theorem Extension.sameIndex (extension : Extension s env f offset s' r) : SameIndex s s' := by
  have resize (m : FileMeta) (same : m = { s.fileMeta f with size := offset }.sealed) (g : FilePtr) :
      (Function.update s.fileMetas (s.files f).metaSlot m (s.files g).metaSlot).dh =
        (s.fileMeta g).dh ∧
      (Function.update s.fileMetas (s.files f).metaSlot m (s.files g).metaSlot).fileName =
        (s.fileMeta g).fileName :=
    ⟨view_update s.fileMetas _ _ (·.dh) (by rw [same]; rfl),
      view_update s.fileMetas _ _ (·.fileName) (by rw [same]; rfl)⟩
  cases extension with
  | refused => exact (Quiet.refl s).sameIndex
  | returned => exact .of_content rfl rfl rfl rfl (fun _ => rfl) (fun _ => rfl) fun _ _ => ⟨rfl, rfl⟩
  | overfull => exact .of_content rfl rfl rfl rfl (fun _ => rfl) (fun _ => rfl) fun _ _ => ⟨rfl, rfl⟩
  | inPlace =>
    refine .of_content rfl rfl rfl rfl (fun _ => rfl) (fun _ => rfl) fun g _ => ?_
    rw [resized_fileMetas]
    exact resize _ rfl g
  | grown =>
    refine .of_content rfl rfl rfl rfl (fun g => ?_) (fun g => ?_) fun g _ => ?_
    · rw [grown_files]
      exact view_update s.files f g (·.metaSlot) rfl
    · rw [grown_files]
      exact view_update s.files f g (·.nlink) rfl
    · rw [grown_fileMetas]
      exact resize _ rfl g

theorem Extension.used (extension : Extension s env f offset s' r) (g : FilePtr) :
    (s'.fileMeta g).used = (s.fileMeta g).used := by
  have slot := extension.sameIndex.metaSlot g
  rw [fileMeta, fileMeta, slot]
  cases extension with
  | refused => rfl
  | returned => rfl
  | overfull => rfl
  | inPlace =>
    rw [resized_fileMetas]
    exact view_update s.fileMetas _ _ (·.used) rfl
  | grown =>
    rw [grown_fileMetas]
    exact view_update s.fileMetas _ _ (·.used) rfl

omit [Crc32] in
/-- The index switch takes the file out under its old slot and name, unless its directory or the
index of names does not hold it, and enters it under the slot `w`. -/
theorem shrinkSwitch_index (s : FileSystem) (dir : DirectoryPtr) (f : FilePtr) (w : Nat) :
    ∃ names fhs,
      ((names = s.createdFiles ∧ fhs = s.createdFhs ∧ (s.createdFiles.lookup (s.key f) = none ∨
          (s.directories dir).itemMaps.lookup (s.fileMeta f).fh = none)) ∨
        (names = s.createdFiles.erase (s.key f) ∧ fhs = s.createdFhs.erase (s.fileMeta f).fh)) ∧
      (s.shrinkSwitch dir f w).createdFhs = fhs.insert (s.fileMetas w).fh f ∧
      (s.shrinkSwitch dir f w).createdFiles =
        names.insert ((s.fileMetas w).dh, (s.fileMetas w).fileName) f ∧
      (s.shrinkSwitch dir f w).directories =
        enlisted (delisted s.directories dir (s.fileMeta f).fh) dir (s.fileMetas w).fh f := by
  have moved (t : FileSystem) (metas : t.fileMetas = s.fileMetas) :
      ((t.modifyFile f fun o => { o with metaSlot := w }).fileMeta f) = s.fileMetas w := by
    simp only [fileMeta, modifyFile, Function.update_self, metas]
  have entered (t : FileSystem) (metas : t.fileMetas = s.fileMetas)
      (dirs : t.directories = (s.removeChildFile dir f).1.directories) :
      ((t.modifyFile f fun o => { o with metaSlot := w }).addFileToDirectory dir f).createdFhs =
        t.createdFhs.insert (s.fileMetas w).fh f ∧
      ((t.modifyFile f fun o => { o with metaSlot := w }).addFileToDirectory dir f).createdFiles =
        t.createdFiles.insert ((s.fileMetas w).dh, (s.fileMetas w).fileName) f ∧
      ((t.modifyFile f fun o => { o with metaSlot := w }).addFileToDirectory dir f).directories =
        enlisted (delisted s.directories dir (s.fileMeta f).fh) dir (s.fileMetas w).fh f := by
    have added := addFileToDirectory_frame (t.modifyFile f fun o => { o with metaSlot := w }) dir f
    have listing := addChildFile_directories (t.modifyFile f fun o => { o with metaSlot := w }) dir f
    rw [moved t metas] at added listing
    rw [added]
    refine ⟨rfl, rfl, listing.trans ?_⟩
    rw [← removeChildFile_directories, ← dirs]
    rfl
  obtain ⟨done, ⟨removed, cause⟩ | removed⟩ := removeFileFromoDirectory_cases s dir f
  all_goals rw [shrinkSwitch, removed]
  · exact ⟨_, _, .inl ⟨rfl, rfl, cause⟩, entered
      { s with directories := (s.removeChildFile dir f).1.directories } rfl rfl⟩
  · exact ⟨_, _, .inr ⟨rfl, rfl⟩, entered { s with
      directories := (s.removeChildFile dir f).1.directories
      createdFiles := s.createdFiles.erase (s.key f)
      createdFhs := s.createdFhs.erase (s.fileMeta f).fh } rfl rfl⟩

/-- Neither taking the child slot nor providing the child nor naming it in the old slot changes a name. -/
theorem ChildBlock.names (consistent : Consistent s lost) {old : FileBlockPtr} {w o : Nat}
    {rest : List Nat} (free : s.freeFhs = w :: rest) {t : FileSystem}
    {fileBlock : Option FileBlockPtr} {ids : List Nat}
    (child : ChildBlock (s.started f w rest offset) env old w offset t fileBlock ids) (g : FilePtr)
    (bound : g < s.nextFile) :
    ((t.adopted o w).fileMetas (s.files g).metaSlot).dh = (s.fileMeta g).dh ∧
      ((t.adopted o w).fileMetas (s.files g).metaSlot).fileName = (s.fileMeta g).fileName := by
  have distinct := consistent.metaSlot_not_free bound (show w ∈ s.freeFhs by simp [free])
  obtain ⟨pool, rest', blocks, data, state⟩ := child.frame
  have metas : t.fileMetas (s.files g).metaSlot = s.fileMeta g := by
    rw [state]
    exact Function.update_of_ne distinct _ _
  rw [← metas]
  exact ⟨view_update t.fileMetas o _ (·.dh) rfl, view_update t.fileMetas o _ (·.fileName) rfl⟩

omit [Crc32] in
/-- The switch lists the file in its directory under its new slot. -/
theorem shrinkSwitch_relisted (s : FileSystem) (dir : DirectoryPtr) (f : FilePtr) (w : Nat) :
    Relisted s (s.shrinkSwitch dir f w) (s.fileMeta f).fh ∧
      (s.shrinkSwitch dir f w).Lists dir (s.fileMetas w).fh := by
  have moved (t : FileSystem) (metas : t.fileMetas = s.fileMetas)
      (left : Relisted s t (s.fileMeta f).fh) :
      Relisted s ((t.modifyFile f fun o => { o with metaSlot := w }).addFileToDirectory dir f)
          (s.fileMeta f).fh ∧
        ((t.modifyFile f fun o => { o with metaSlot := w }).addFileToDirectory dir f).Lists dir
          (s.fileMetas w).fh := by
    have slot : ((t.modifyFile f fun o => { o with metaSlot := w }).fileMeta f) = s.fileMetas w := by
      simp only [fileMeta, modifyFile, Function.update_self, metas]
    have relisted := addChildFile_relisted (t.modifyFile f fun o => { o with metaSlot := w }) dir f
      (s.fileMeta f).fh
    have lists := addChildFile_lists (t.modifyFile f fun o => { o with metaSlot := w }) dir f
    rw [addFileToDirectory_frame]
    refine ⟨left.trans ⟨rfl, relisted.metaSlot, relisted.childDirMaps, relisted.kept⟩, ?_⟩
    rw [slot] at lists
    exact lists
  have left := removeChildFile_relisted s dir f
  obtain ⟨done, ⟨removed, _⟩ | removed⟩ := removeFileFromoDirectory_cases s dir f
  all_goals
    rw [shrinkSwitch, removed]
    exact moved _ rfl ⟨rfl, left.metaSlot, left.childDirMaps, left.kept⟩

/-- A step that fails leaves every file and the indices alone. -/
structure Untouched (s s' : FileSystem) : Prop where
  dirSide : s'.dirSide = s.dirSide
  sameFile : ∀ g < s.nextFile, SameFile s s' g
  sameIndex : SameIndex s s'

/-- A file has moved on to another slot under the same name, with `offset` bytes. -/
structure Shifted (s s' : FileSystem) (f : FilePtr) (offset : Nat) : Prop where
  others : ∀ g < s.nextFile, g ≠ f → SameFile s s' g
  reentered : Reentered s s' f
  size : (s'.fileMeta f).size = offset
  used : (s'.fileMeta f).used = true
  key : s'.key f = s.key f
  relisted : Relisted s s' (s.files f).metaSlot
  listed : ∃ dir, s.createdDhs.lookup (s.fileMeta f).dh = some dir ∧ s'.Lists dir (s'.files f).metaSlot
  listing : ∃ dir, s.createdDhs.lookup (s.fileMeta f).dh = some dir ∧ s'.directories =
    enlisted (delisted s.directories dir (s.files f).metaSlot) dir (s'.files f).metaSlot f
  handed : s.createdFiles.lookup (s.key f) ≠ none →
    (∀ dir, s.createdDhs.lookup (s.fileMeta f).dh = some dir → s.Lists dir (s.files f).metaSlot) →
    s'.createdFhs = (s.createdFhs.erase (s.files f).metaSlot).insert (s'.files f).metaSlot f

/-- A shrink leaves all files alone, or moves its file on to another slot. -/
theorem Shrinkage.outcome (consistent : Consistent s lost) (bound : f < s.nextFile)
    {old : FileBlockPtr} (entries : (s.files f).itemMaps.entries = [⟨0, old⟩])
    (shrinks : offset < (s.fileMeta f).size) (shrinkage : Shrinkage s env f offset old s' r) :
    (r = -1 ∧ Untouched s s') ∨ (r = 0 ∧ Shifted s s' f offset) := by
  have name {w : Nat} {rest : List Nat} (free : s.freeFhs = w :: rest) (g : FilePtr)
      (hg : g < s.nextFile) :
      (s.started f w rest offset).fileMetas (s.files g).metaSlot = s.fileMeta g :=
    Function.update_of_ne (consistent.metaSlot_not_free hg (by simp [free])) _ _
  have index {w : Nat} {rest : List Nat} (free : s.freeFhs = w :: rest) (t : FileSystem)
      (same : t.fileSide = { (s.started f w rest offset).fileSide with
        fileBlockMetas := t.fileBlockMetas, freeFbhs := t.freeFbhs }) : SameIndex s t := by
    have files : t.files = s.files := congrArg FileSide.files same
    have metas : t.fileMetas = (s.started f w rest offset).fileMetas := congrArg FileSide.fileMetas same
    refine .of_content (congrArg FileSide.nextFile same) (congrArg FileSide.createdFhs same)
      (congrArg FileSide.createdFiles same) (congrArg FileSide.openFiles same)
      (fun g => by rw [files]) (fun g => by rw [files]) fun g hg => ?_
    rw [metas, name free g hg]
    exact ⟨rfl, rfl⟩
  cases shrinkage with
  | noSlot free =>
    exact .inl ⟨rfl, rfl, fun g _ => .of_agree rfl rfl fun _ _ => rfl,
      (Quiet.of_fileSide (errno_fileSide s ENFILE)).sameIndex⟩
  | noFileBlock free _ _ =>
    exact .inl ⟨rfl, rfl, fun g hg => consistent.started_sameFile free hg, index free _ rfl⟩
  | noBlock free free' _ _ =>
    exact .inl ⟨rfl, rfl, fun g hg => (consistent.started_sameFile free hg).trans
      ((consistent.started free f offset).entrusted_sameFile free' _ hg), index free _ rfl⟩
  | @noDirectory w rest t fileBlock ids free child _ =>
    obtain ⟨pool, rest', blocks, data, state⟩ := child.frame
    refine .inl ⟨rfl, by rw [state]; rfl, fun g hg => ?_, ?_⟩
    · exact ((consistent.started_sameFile free hg).trans
        (child.sameFile (consistent.started free f offset) hg)).trans
          ((adopted_sameResources t _ w).sameFile g)
    · refine .of_content ?_ ?_ ?_ ?_ (fun g => ?_) (fun g => ?_) (child.names consistent free)
      all_goals
        rw [state]
        rfl
  | @shrunk w rest t fileBlock ids dir free child found =>
    have taken : w ∈ s.freeFhs := by simp [free]
    have distinct := consistent.metaSlot_not_free bound taken
    obtain ⟨pool, rest', blocks, data, state⟩ := child.frame
    have same : (s.started f w rest offset).fileMeta f = s.fileMeta f := name free f bound
    obtain ⟨consistent', kept, empty, slot⟩ := child.provided (consistent.started free f offset) bound entries
      (same ▸ shrinks)
    have resources := adopted_sameResources t (s.files f).metaSlot w
    have ready := consistent'.congr resources
    have named := child.names (o := (s.files f).metaSlot) consistent free
    have switched := shrinkSwitch_index (t.adopted (s.files f).metaSlot w) dir f w
    have listed := shrinkSwitch_relisted (t.adopted (s.files f).metaSlot w) dir f w
    have homes : (t.adopted (s.files f).metaSlot w).dirSide = s.dirSide := by rw [state]; rfl
    have files : (t.adopted (s.files f).metaSlot w).files = s.files := by rw [state]; rfl
    have opens : (t.adopted (s.files f).metaSlot w).openFiles = s.openFiles := by rw [state]; rfl
    have next : (t.adopted (s.files f).metaSlot w).nextFile = s.nextFile := by rw [state]; rfl
    have fhs : (t.adopted (s.files f).metaSlot w).createdFhs = s.createdFhs := by rw [state]; rfl
    have names : (t.adopted (s.files f).metaSlot w).createdFiles = s.createdFiles := by
      rw [state]
      rfl
    have before (g : FilePtr) (hg : g < s.nextFile) :
        SameFile s (t.adopted (s.files f).metaSlot w) g :=
      ((consistent.started_sameFile free hg).trans
        (child.sameFile (consistent.started free f offset) hg)).trans (resources.sameFile g)
    have child_ : ((t.adopted (s.files f).metaSlot w).fileMetas w).fh = w ∧
        ((t.adopted (s.files f).metaSlot w).fileMetas w).used = true ∧
        ((t.adopted (s.files f).metaSlot w).fileMetas w).dh = (s.fileMeta f).dh ∧
        ((t.adopted (s.files f).metaSlot w).fileMetas w).fileName = (s.fileMeta f).fileName := by
      have fresh : (t.adopted (s.files f).metaSlot w).fileMetas w =
          (s.started f w rest offset).fileMetas w := by
        rw [state]
        exact Function.update_of_ne distinct.symm _ _
      simp only [fresh, started, Function.update_self, and_self]
    have shrunk := shrunkTo dir f offset old fileBlock distinct.symm ready.parents fun b here => (slot b here).distinct
    generalize t.adopted (s.files f).metaSlot w = u at *
    generalize u.shrunk dir f (s.files f).metaSlot w offset old fileBlock = s' at shrunk ⊢
    have handle : (u.fileMeta f).fh = (s.files f).metaSlot := by
      rw [ready.fileMeta_fh, files]
    have key_eq (g : FilePtr) (hg : g < s.nextFile) : u.key g = s.key g := by
      simp only [FileSystem.key, fileMeta, files]
      exact Prod.ext (named g hg).1 (named g hg).2
    have after (g : FilePtr) (hg : g < s.nextFile) (apart : g ≠ f) :=
      shrunk.sameFile ready (next ▸ bound) (by rw [files]) (by rw [files]; exact entries)
        (next.symm ▸ hg) apart
    have moved := shrunk.fileMeta_eq distinct.symm
    have own : ((u.fileMetas w).dh, (u.fileMetas w).fileName) = s.key f :=
      Prod.ext child_.2.2.1 child_.2.2.2
    have renamed : s'.key f = s.key f := by
      rw [FileSystem.key, moved]
      exact own
    rw [handle, child_.1] at listed
    refine .inr ⟨rfl, fun g hg apart => (before g hg).trans (after g hg apart), ?_,
      by rw [moved]; rfl, by rw [moved]; exact child_.2.1, renamed, ?_, ⟨dir, found, ?_⟩,
      ⟨dir, found, ?_⟩, fun named lists => ?_⟩
    rotate_left
    · have left := (Relisted.of_dirSide homes (s.files f).metaSlot).trans listed.1
      have rest : { s'.dirSide with directories := s.directories } = s.dirSide :=
        (congrArg (fun side : DirSide => { side with directories := s.directories })
          shrunk.dirSide).trans ((congrArg (fun side : DirSide =>
            { side with directories := s.directories }) homes).trans rfl)
      refine ⟨rest, fun d => ?_, fun d => ?_, fun d y apart there => ?_⟩
      · rw [shrunk.directories]
        exact left.metaSlot d
      · rw [shrunk.directories]
        exact left.childDirMaps d
      · rw [Lists, shrunk.directories]
        exact left.kept d y apart there
    · rw [Lists, shrunk.directories, shrunk.file]
      exact listed.2
    · obtain ⟨_, _, _, _, _, listing⟩ := switched
      rw [shrunk.directories, listing, shrunk.file, handle, child_.1,
        show u.directories = s.directories from congrArg DirSide.directories homes]
    · obtain ⟨_, fhs', from_, into, _⟩ := switched
      have held := lists dir found
      rw [Lists, Option.isSome_iff_ne_none] at held
      rw [names, key_eq f bound, handle,
        show u.directories = s.directories from congrArg DirSide.directories homes, fhs] at from_
      rcases from_ with ⟨_, _, absent | absent⟩ | ⟨_, erased⟩
      · exact absurd absent named
      · exact absurd absent held
      · rw [shrunk.createdFhs, into, child_.1, shrunk.file, erased]
    exact
      { nextFile := shrunk.nextFile.trans next
        opened := fun fd => by rw [openedFile, openedFile, shrunk.openFiles, opens]
        nlink := fun g => by
          rw [← files, shrunk.files]
          exact view_update u.files f g (·.nlink) rfl
        others := fun g hg apart => by
          refine ⟨(before g hg).trans (after g hg apart), ?_⟩
          rw [← key_eq g hg, FileSystem.key, FileSystem.key, fileMeta, fileMeta,
            (after g hg apart).metaSlot, files, shrunk.fileMeta_other]
          · exact fun same => apart (consistent.metaSlot_unique hg bound same)
          · exact consistent.metaSlot_not_free hg taken
        unshared := fun g hg _ => by
          rw [shrunk.file]
          exact consistent.metaSlot_not_free hg taken
        createdFhs := by
          obtain ⟨names', fhs', from_, into, _⟩ := switched
          rw [child_.1, fhs, handle] at *
          refine ⟨fhs', from_.imp (·.2.1) And.right, ?_⟩
          rw [shrunk.createdFhs, into, shrunk.file]
        createdFiles := by
          obtain ⟨names', fhs', from_, _, into, _⟩ := switched
          rw [names, key_eq f bound] at from_
          refine ⟨names', from_.imp (fun same => ⟨same.1, renamed⟩) And.left, ?_⟩
          rw [shrunk.createdFiles, into, renamed]
          exact congrArg (fun K => names'.insert K f) own }

/-- Truncating leaves all other files alone. -/
theorem Truncation.sameFile (consistent : Consistent s lost) (bound : f < s.nextFile)
    (truncation : Truncation s env f offset s' r) {g : FilePtr} (hg : g < s.nextFile) (apart : g ≠ f) :
    SameFile s s' g := by
  cases truncation with
  | grow _ extension => exact extension.others consistent bound g hg apart
  | shrink shrinks entries shrinkage =>
    rcases shrinkage.outcome consistent bound entries shrinks with ⟨_, same⟩ | ⟨_, others, _⟩
    · exact same.sameFile g hg
    · exact others g hg apart
  | keep => exact .refl s g

theorem Truncation.registered (registered : Registered s) (consistent : Consistent s lost)
    (here : s.IsRegistered f) (truncation : Truncation s env f offset s' r) : Registered s' := by
  have bound := registered.bound here
  cases truncation with
  | grow grows extension =>
    refine registered.of_sameIndex extension.sameIndex fun g hg some_ => ?_
    by_cases mine : g = f
    · exact .inr (mine ▸ here)
    · exact .inl (by rwa [(extension.others consistent bound g hg mine).attached_eq] at some_)
  | shrink shrinks entries shrinkage =>
    rcases shrinkage.outcome consistent bound entries shrinks with ⟨_, same⟩ | ⟨_, _, reentered, _⟩
    · refine registered.of_sameIndex same.sameIndex fun g hg some_ => .inl ?_
      rwa [(same.sameFile g hg).attached_eq] at some_
    · exact registered.reentered consistent bound reentered
  | keep => exact registered

end Index

end BlockFs.FileSystem
