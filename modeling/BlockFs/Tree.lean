import BlockFs.Directories

namespace BlockFs.FileSystem

/-- A created directory has this path, written with or without its trailing separator. -/
def DirAt (s : FileSystem) (path : Name) : Prop :=
  (s.createdDirs.lookup path).isSome ∨ (s.createdDirs.lookup (path ++ ['/'])).isSome

/-- A created file has this path. -/
def FileAt (s : FileSystem) (path : Name) : Prop :=
  ∃ dirname dir name f, s.createdDirs.lookup dirname = some dir ∧
    s.createdFiles.lookup ((s.dirMeta dir).dh, name) = some f ∧ path = dirname ++ name

/-- The directory namespace is a tree. -/
structure IsTree (s : FileSystem) : Prop where
  named : ∀ p d, s.createdDirs.lookup p = some d → (s.dirMeta d).dirName = p
  handled : ∀ x d, s.createdDhs.lookup x = some d → (s.dirMeta d).dh = x
  same : ∀ d, (∃ p, s.createdDirs.lookup p = some d) ↔ ∃ x, s.createdDhs.lookup x = some d
  parented : ∀ p d, s.createdDirs.lookup p = some d → p ≠ ['/'] →
    ∃ parent, s.createdDirs.lookup (getDirName p) = some parent ∧
      ∀ q < s.nextDirectory, (∃ x, (s.directories q).childDirMaps.lookup x = some d) ↔ q = parent
  apart : ∀ path, ¬(s.FileAt path ∧ s.DirAt path)

/-- The tree invariant over the directories a run leaves behind: names in normal form, each directory
listed by its parent alone, and no file under the path of a directory. -/
structure Rooted (s : FileSystem) : Prop where
  root : (s.createdDirs.lookup ['/']).isSome
  normal : ∀ p d, s.createdDirs.lookup p = some d →
    p = ['/'] ∨ ∃ path base name, Splits path base name ∧ p = path ++ ['/']
  parented : ∀ p d, s.createdDirs.lookup p = some d → p ≠ ['/'] →
    ∃ parent, s.createdDirs.lookup (getDirName p) = some parent ∧
      ∀ q < s.nextDirectory,
        (s.directories q).childDirMaps.lookup (s.directories d).metaSlot = some d ↔ q = parent
  plain : ∀ K f, s.createdFiles.lookup K = some f → '/' ∉ K.2
  clear : ∀ p d name f, s.createdDirs.lookup p = some d →
    s.createdFiles.lookup ((s.directories d).metaSlot, name) = some f → ¬s.DirAt (p ++ name)

/-- The invariant makes the namespace a tree. -/
theorem Rooted.tree {s : FileSystem} (rooted : Rooted s) (housed : Housed s) : IsTree s where
  named p d found := (housed.named p d found).1
  handled x d found := by
    rw [housed.dirMeta_dh]
    exact (housed.handles x d found).2
  same d := by
    constructor
    · rintro ⟨p, found⟩
      exact ⟨_, (housed.named p d found).2⟩
    · rintro ⟨x, found⟩
      exact ⟨_, housed.pathed x d found⟩
  parented p d found inner := by
    obtain ⟨parent, leads, lists⟩ := rooted.parented p d found inner
    refine ⟨parent, leads, fun q bound => ?_⟩
    rw [← lists q bound]
    constructor
    · rintro ⟨x, child⟩
      obtain ⟨_, slot⟩ := housed.children q bound x d child
      rwa [slot]
    · intro child
      exact ⟨_, child⟩
  apart path := by
    rintro ⟨⟨dirname, dir, name, f, leads, entry, rfl⟩, there⟩
    rw [housed.dirMeta_dh] at entry
    exact rooted.clear dirname dir name f leads entry there

section Steps
variable {s s' : FileSystem}

theorem DirAt.congr (dirs : s'.createdDirs = s.createdDirs) {path : Name} (there : s'.DirAt path) :
    s.DirAt path := by
  rwa [DirAt, dirs] at there

/-- A change of the files alone that enters names in no directory's way. -/
theorem Rooted.of_files (rooted : Rooted s) (dirs : s'.createdDirs = s.createdDirs)
    (next : s'.nextDirectory = s.nextDirectory)
    (metaSlot : ∀ d, (s'.directories d).metaSlot = (s.directories d).metaSlot)
    (children : ∀ d, (s'.directories d).childDirMaps = (s.directories d).childDirMaps)
    (files : ∀ K f, s'.createdFiles.lookup K = some f → (∃ g, s.createdFiles.lookup K = some g) ∨
      ('/' ∉ K.2 ∧ ∀ p d, s.createdDirs.lookup p = some d → (s.directories d).metaSlot = K.1 →
        ¬s.DirAt (p ++ K.2))) : Rooted s' where
  root := by rw [dirs]; exact rooted.root
  normal p d found := rooted.normal p d (dirs ▸ found)
  parented p d found inner := by
    rw [dirs] at found ⊢
    obtain ⟨parent, leads, lists⟩ := rooted.parented p d found inner
    refine ⟨parent, leads, fun q bound => ?_⟩
    rw [children, metaSlot]
    exact lists q (next ▸ bound)
  plain K f found := by
    rcases files K f found with ⟨g, before⟩ | ⟨plain, _⟩
    · exact rooted.plain K g before
    · exact plain
  clear p d name f found entry there := by
    rw [dirs] at found
    rw [metaSlot] at entry
    rcases files _ f entry with ⟨g, before⟩ | ⟨_, fresh⟩
    · exact rooted.clear p d name g found before (there.congr dirs)
    · exact fresh p d found rfl (there.congr dirs)

theorem Rooted.relisted {x : Nat} (rooted : Rooted s) (relisted : Relisted s s' x)
    (files : ∀ K f, s'.createdFiles.lookup K = some f → (∃ g, s.createdFiles.lookup K = some g) ∨
      ('/' ∉ K.2 ∧ ∀ p d, s.createdDirs.lookup p = some d → (s.directories d).metaSlot = K.1 →
        ¬s.DirAt (p ++ K.2))) : Rooted s' :=
  rooted.of_files (congrArg DirSide.createdDirs relisted.rest)
    (congrArg DirSide.nextDirectory relisted.rest) relisted.metaSlot relisted.childDirMaps files

theorem Rooted.sameSides (rooted : Rooted s) (same : SameSides s s') : Rooted s' := by
  have files : s'.createdFiles = s.createdFiles := congrArg FileSide.createdFiles same.fileSide
  refine rooted.relisted (.of_dirSide same.dirSide 0) fun K f found => ?_
  rw [files] at found
  exact .inl ⟨f, found⟩

theorem Rooted.sameTree (rooted : Rooted s) (same : SameTree s s') : Rooted s' := by
  have files : s'.createdFiles = s.createdFiles := congrArg FileSide.createdFiles same.fileSide
  refine rooted.of_files same.createdDirs same.nextDirectory (fun d => by rw [same.directories])
    (fun d => by rw [same.directories]) fun K f found => ?_
  rw [files] at found
  exact .inl ⟨f, found⟩

/-- A stored directory name ends in its separator. -/
theorem Rooted.slash (rooted : Rooted s) {p : Name} {d : DirectoryPtr}
    (found : s.createdDirs.lookup p = some d) : p.getLast? = some '/' := by
  rcases rooted.normal p d found with rfl | ⟨path, base, name, _, rfl⟩
  · rfl
  · exact List.getLast?_concat

/-- A stored path that ends in a separator and is made of a directory and a plain name is the
directory. -/
theorem name_eq_nil {p name : Name} (plain : '/' ∉ name) (last : (p ++ name).getLast? = some '/') :
    name = [] := by
  by_contra nonempty
  exact IsComponent.last ⟨nonempty, plain⟩ p last

theorem Rooted.made (rooted : Rooted s) (housed : Housed s) {path base last : Name}
    {parent : DirectoryPtr} {x : Nat} (splits : Splits path base last)
    (homes : ∀ K f, s.createdFiles.lookup K = some f → K.1 ∉ s.freeDhs) (unfiled : ¬s.FileAt path)
    (made : MadeDirectory s s' (path ++ ['/']) parent x) : Rooted s' := by
  have files : s'.createdFiles = s.createdFiles := congrArg FileSide.createdFiles made.fileSide
  have bound := housed.paths _ _ made.leads
  have object (d : DirectoryPtr) (known : d < s.nextDirectory) :
      (s'.directories d).metaSlot = (s.directories d).metaSlot := by
    by_cases here : d = parent
    · rw [here, made.parent]
    · rw [made.old d known here]
  have newSlot : (s'.directories s.nextDirectory).metaSlot = x := by rw [made.new]
  have kept {p : Name} {d : DirectoryPtr} (found : s.createdDirs.lookup p = some d) :
      s'.createdDirs.lookup p = some d := by
    rw [made.createdDirs, AList.lookup_insert_ne fun same => ?_]
    · exact found
    · rw [same, made.vacant] at found
      simp at found
  exact
    { root := by
        obtain ⟨d, found⟩ := Option.isSome_iff_exists.mp rooted.root
        rw [kept found]
        rfl
      normal := fun p d found => by
        rw [made.createdDirs] at found
        rcases lookup_of_insert found with ⟨rfl, _⟩ | ⟨_, there⟩
        · exact .inr ⟨path, base, last, splits, rfl⟩
        · exact rooted.normal p d there
      parented := fun p d found inner => by
        rw [made.createdDirs] at found
        rcases lookup_of_insert found with ⟨rfl, rfl⟩ | ⟨_, there⟩
        · refine ⟨parent, kept made.leads, fun q known => ?_⟩
          rw [newSlot]
          by_cases here : q = parent
          · rw [here, made.parent]
            exact ⟨fun _ => rfl, fun _ => AList.lookup_insert _⟩
          · refine ⟨fun child => ?_, fun same => absurd same here⟩
            rw [made.nextDirectory] at known
            rcases Nat.lt_succ_iff_lt_or_eq.mp known with older | rfl
            · rw [made.old q older here] at child
              exact absurd (housed.children q older x _ child).1 (lt_irrefl _)
            · rw [made.new] at child
              simp at child
        · obtain ⟨home, leads, lists⟩ := rooted.parented p d there inner
          have old := housed.paths p d there
          have apart : (s.directories d).metaSlot ≠ x := by
            intro same
            exact housed.fresh d old (same ▸ made.free)
          refine ⟨home, kept leads, fun q known => ?_⟩
          rw [object d old]
          rw [made.nextDirectory] at known
          rcases Nat.lt_succ_iff_lt_or_eq.mp known with older | rfl
          · rw [← lists q older]
            by_cases here : q = parent
            · rw [here, made.parent, AList.lookup_insert_ne apart]
            · rw [made.old q older here]
          · rw [made.new]
            have known := housed.paths _ _ leads
            constructor
            · intro child
              simp at child
            · intro same
              exact absurd same known.ne'
      plain := fun K f found => rooted.plain K f (files ▸ found)
      clear := fun p d name f found entry there => by
        rw [files] at entry
        rw [made.createdDirs] at found
        rcases lookup_of_insert found with ⟨rfl, rfl⟩ | ⟨_, old⟩
        · rw [newSlot] at entry
          exact homes _ f entry made.free
        · rw [object d (housed.paths p d old)] at entry
          have plain := rooted.plain _ f entry
          have unnamed : p ++ name ≠ path ++ ['/'] := by
            intro same
            obtain rfl : name = [] := name_eq_nil plain (by rw [same]; exact List.getLast?_concat)
            rw [List.append_nil] at same
            rw [same, made.vacant] at old
            simp at old
          have unfound : p ++ name ++ ['/'] ≠ path ++ ['/'] := by
            intro same
            refine unfiled ⟨p, d, name, f, old, ?_, (List.append_cancel_right same).symm⟩
            rw [housed.dirMeta_dh]
            exact entry
          rw [DirAt, made.createdDirs, AList.lookup_insert_ne unnamed,
            AList.lookup_insert_ne unfound] at there
          exact rooted.clear p d name f old entry there }

theorem Rooted.dropped (rooted : Rooted s) (housed : Housed s) {p : Name} {parent dir : DirectoryPtr}
    (inner : p ≠ ['/']) (dropped : DroppedDirectory s s' p parent dir) : Rooted s' := by
  have files : s'.createdFiles = s.createdFiles := congrArg FileSide.createdFiles dropped.fileSide
  have object (d : DirectoryPtr) : (s'.directories d).metaSlot = (s.directories d).metaSlot := by
    rw [dropped.directories]
    exact view_update s.directories parent d (·.metaSlot) rfl
  have bound := housed.paths _ _ dropped.found
  have fewer {q : Name} {d : DirectoryPtr} (found : s'.createdDirs.lookup q = some d) :
      s.createdDirs.lookup q = some d ∧ q ≠ p := by
    rw [dropped.createdDirs] at found
    exact lookup_of_erase found
  have kept {q : Name} {d : DirectoryPtr} (found : s.createdDirs.lookup q = some d) (apart : q ≠ p) :
      s'.createdDirs.lookup q = some d := by
    rw [dropped.createdDirs, AList.lookup_erase_ne apart]
    exact found
  exact
    { root := by
        obtain ⟨d, found⟩ := Option.isSome_iff_exists.mp rooted.root
        rw [kept found inner.symm]
        rfl
      normal := fun q d found => rooted.normal q d (fewer found).1
      parented := fun q d found below => by
        obtain ⟨there, other⟩ := fewer found
        obtain ⟨home, leads, lists⟩ := rooted.parented q d there below
        -- The dropped directory is empty, so it is the parent of none.
        have elsewhere : getDirName q ≠ p := by
          intro same
          rw [same, dropped.found] at leads
          obtain rfl := Option.some.inj leads
          have child := (lists dir bound).mpr rfl
          rw [dropped.empty.2] at child
          simp at child
        have apart : (s.directories d).metaSlot ≠ (s.directories dir).metaSlot := by
          intro same
          obtain rfl := housed.apart d (housed.paths q d there) dir bound same
          exact other ((housed.named q d there).1.symm.trans (housed.named p d dropped.found).1)
        refine ⟨home, kept leads elsewhere, fun r known => ?_⟩
        rw [object, ← lists r (dropped.nextDirectory ▸ known), dropped.directories,
          Function.update_apply]
        split
        · next here => rw [here, AList.lookup_erase_ne apart]
        · rfl
      plain := fun K f found => rooted.plain K f (files ▸ found)
      clear := fun q d name f found entry there => by
        rw [files, object] at entry
        refine rooted.clear q d name f (fewer found).1 entry ?_
        rcases there with there | there
        · obtain ⟨e, there⟩ := Option.isSome_iff_exists.mp there
          exact .inl (Option.isSome_iff_exists.mpr ⟨e, (fewer there).1⟩)
        · obtain ⟨e, there⟩ := Option.isSome_iff_exists.mp there
          exact .inr (Option.isSome_iff_exists.mpr ⟨e, (fewer there).1⟩) }

/-- Some directory has this one as its parent. -/
def Shelters (s : FileSystem) (p : Name) : Prop :=
  ∃ q, q ≠ ['/'] ∧ (s.createdDirs.lookup q).isSome ∧ getDirName q = p

section Rehoming
variable {dirs : Nat → Directory} {parent q child : DirectoryPtr} {x y : Nat}

theorem lookup_orphanedFrom (apart : y ≠ x) :
    (orphanedFrom dirs parent x q).childDirMaps.lookup y = (dirs q).childDirMaps.lookup y := by
  rw [orphanedFrom, Function.update_apply]
  split
  · next here => rw [here, AList.lookup_erase_ne apart]
  · rfl

theorem lookup_adoptedBy (apart : y ≠ x) :
    (adoptedBy dirs parent x child q).childDirMaps.lookup y = (dirs q).childDirMaps.lookup y := by
  rw [adoptedBy]
  split
  · rfl
  · rw [Function.update_apply]
    split
    · next here => rw [here, AList.lookup_insert_ne apart]
    · rfl

/-- A directory that no directory lists is listed by the one that adopts it. -/
theorem lookup_adoptedBy_iff (absent : (dirs q).childDirMaps.lookup x = none)
    (open_ : (dirs parent).childDirMaps.lookup x = none) :
    (adoptedBy dirs parent x child q).childDirMaps.lookup x = some child ↔ q = parent := by
  rw [adoptedBy, open_]
  simp only [Option.isSome_none, Bool.false_eq_true, if_false, Function.update_apply]
  split
  · next here => exact ⟨fun _ => here, fun _ => AList.lookup_insert _⟩
  · next here =>
    rw [absent]
    simp [here]

end Rehoming

/-- A directory has been taken from the only child map that lists it. -/
theorem Rooted.orphaned (rooted : Rooted s) (housed : Housed s) {p : Name}
    {dir oldParent q : DirectoryPtr} (found : s.createdDirs.lookup p = some dir) (inner : p ≠ ['/'])
    (leads : s.createdDirs.lookup (getDirName p) = some oldParent) (bound : q < s.nextDirectory) :
    (orphanedFrom s.directories oldParent (s.directories dir).metaSlot q).childDirMaps.lookup
      (s.directories dir).metaSlot = none := by
  obtain ⟨home, there, lists⟩ := rooted.parented p dir found inner
  obtain rfl : oldParent = home := Option.some.inj (leads.symm.trans there)
  rw [orphanedFrom, Function.update_apply]
  split
  · exact AList.lookup_erase (s.directories dir).metaSlot (s.directories oldParent).childDirMaps
  · next here =>
    cases child : (s.directories q).childDirMaps.lookup (s.directories dir).metaSlot with
    | none => rfl
    | some c =>
      obtain ⟨known, slot⟩ := housed.children q bound _ c child
      obtain rfl := housed.apart c known dir (housed.paths p dir found) slot
      exact absurd ((lists q bound).mp child) here

/-- No file of a directory is in the way at the place the directory moves to. -/
theorem Rooted.clear_target (rooted : Rooted s) {p path base last name : Name} {dir : DirectoryPtr}
    {f : FilePtr} (found : s.createdDirs.lookup p = some dir)
    (entry : s.createdFiles.lookup ((s.directories dir).metaSlot, name) = some f)
    (splits : Splits path base last)
    (renamed : ∀ {d}, s.createdDirs.lookup (path ++ ['/']) = some d → p = path ++ ['/'])
    (there : name = [] ∨ ∃ e, s.createdDirs.lookup (path ++ ['/'] ++ name ++ ['/']) = some e) :
    False := by
  have plain : '/' ∉ name := rooted.plain _ f entry
  by_cases empty : name = []
  · subst empty
    refine rooted.clear p dir [] f found entry (.inl ?_)
    rw [List.append_nil, found]
    rfl
  · obtain ⟨e, there⟩ := there.resolve_left empty
    have below : Splits (path ++ '/' :: name) path name := ⟨rfl, ⟨empty, plain⟩, splits.last⟩
    rw [List.append_assoc path, List.singleton_append] at there
    obtain ⟨home, leads, _⟩ := rooted.parented _ e there below.closed_ne_root
    rw [below.getDirName_closed] at leads
    refine rooted.clear p dir name f found entry (.inr ?_)
    rw [renamed leads, List.append_assoc path, List.singleton_append, there]
    rfl

theorem Rooted.moved (rooted : Rooted s) (housed : Housed s) {p path base last : Name}
    {dir oldParent newParent : DirectoryPtr} (splits : Splits path base last) (inner : p ≠ ['/'])
    (childless : p = path ++ ['/'] ∨ ¬s.Shelters p) (outside : newParent ≠ dir)
    (unfiled : ¬s.FileAt path)
    (moved : MovedDirectory s s' p (path ++ ['/']) dir oldParent newParent) : Rooted s' := by
  have files : s'.createdFiles = s.createdFiles := congrArg FileSide.createdFiles moved.fileSide
  have object (d : DirectoryPtr) : (s'.directories d).metaSlot = (s.directories d).metaSlot := by
    rw [moved.directories, adoptedBy_metaSlot, orphanedFrom_metaSlot]
  have bound := housed.paths _ _ moved.found
  have newBound := housed.paths _ _ moved.newLeads
  have away : getDirName (path ++ ['/']) ≠ p := by
    intro same
    have newLeads := moved.newLeads
    rw [same, moved.found] at newLeads
    exact outside (Option.some.inj newLeads).symm
  -- The lists of the other directories stay as they are.
  have apart {q : Name} {d : DirectoryPtr} (there : s.createdDirs.lookup q = some d) (other : q ≠ p) :
      (s.directories d).metaSlot ≠ (s.directories dir).metaSlot := by
    intro same
    obtain rfl := housed.apart d (housed.paths q d there) dir bound same
    exact other ((housed.named q d there).1.symm.trans (housed.named p d moved.found).1)
  have lists {q : Name} {d : DirectoryPtr} (there : s.createdDirs.lookup q = some d) (other : q ≠ p)
      (r : DirectoryPtr) : (s'.directories r).childDirMaps.lookup (s.directories d).metaSlot =
        (s.directories r).childDirMaps.lookup (s.directories d).metaSlot := by
    rw [moved.directories, lookup_adoptedBy (apart there other), lookup_orphanedFrom (apart there other)]
  have index := moved.index
  split at index
  · next taken =>
    -- The target keeps its directory, and the renamed one is lost to the indices.
    obtain ⟨e, taken⟩ := Option.isSome_iff_exists.mp taken
    have apartTarget := (lookup_of_erase taken).2
    have alone := childless.resolve_left fun same => apartTarget same.symm
    have fewer {q : Name} {d : DirectoryPtr} (found : s'.createdDirs.lookup q = some d) :
        s.createdDirs.lookup q = some d ∧ q ≠ p := by
      rw [index.1] at found
      exact lookup_of_erase found
    have kept {q : Name} {d : DirectoryPtr} (found : s.createdDirs.lookup q = some d) (other : q ≠ p) :
        s'.createdDirs.lookup q = some d := by
      rw [index.1, AList.lookup_erase_ne other]
      exact found
    exact
      { root := by
          obtain ⟨d, found⟩ := Option.isSome_iff_exists.mp rooted.root
          rw [kept found inner.symm]
          rfl
        normal := fun q d found => rooted.normal q d (fewer found).1
        parented := fun q d found below => by
          obtain ⟨there, other⟩ := fewer found
          obtain ⟨home, leads, listed⟩ := rooted.parented q d there below
          have elsewhere : getDirName q ≠ p := by
            intro same
            exact alone ⟨q, below, by rw [there]; rfl, same⟩
          refine ⟨home, kept leads elsewhere, fun r known => ?_⟩
          rw [object, lists there other]
          exact listed r (moved.nextDirectory ▸ known)
        plain := fun K f found => rooted.plain K f (files ▸ found)
        clear := fun q d name f found entry there => by
          rw [files, object] at entry
          refine rooted.clear q d name f (fewer found).1 entry ?_
          rcases there with there | there
          · obtain ⟨e, there⟩ := Option.isSome_iff_exists.mp there
            exact .inl (Option.isSome_iff_exists.mpr ⟨e, (fewer there).1⟩)
          · obtain ⟨e, there⟩ := Option.isSome_iff_exists.mp there
            exact .inr (Option.isSome_iff_exists.mpr ⟨e, (fewer there).1⟩) }
  · next vacant =>
    rw [Option.not_isSome_iff_eq_none] at vacant
    have cases_ {q : Name} {d : DirectoryPtr} (found : s'.createdDirs.lookup q = some d) :
        (q = path ++ ['/'] ∧ d = dir) ∨ (q ≠ path ++ ['/'] ∧ q ≠ p ∧ s.createdDirs.lookup q = some d) := by
      rw [index.1] at found
      rcases lookup_of_insert found with here | ⟨other, there⟩
      · exact .inl here
      · obtain ⟨there, apart⟩ := lookup_of_erase there
        exact .inr ⟨other, apart, there⟩
    -- A directory that was at the target can only be the renamed one.
    have renamed {d : DirectoryPtr} (there : s.createdDirs.lookup (path ++ ['/']) = some d) :
        p = path ++ ['/'] := by
      by_contra other
      rw [AList.lookup_erase_ne fun same => other same.symm, there] at vacant
      simp at vacant
    have kept {q : Name} {d : DirectoryPtr} (found : s.createdDirs.lookup q = some d) (other : q ≠ p) :
        s'.createdDirs.lookup q = some d := by
      rw [index.1, AList.lookup_insert_ne fun same => ?_, AList.lookup_erase_ne other]
      · exact found
      · rw [same] at found
        exact other (same.trans (renamed found).symm)
    exact
      { root := by
          obtain ⟨d, found⟩ := Option.isSome_iff_exists.mp rooted.root
          rw [kept found inner.symm]
          rfl
        normal := fun q d found => by
          rcases cases_ found with ⟨rfl, _⟩ | ⟨_, _, there⟩
          · exact .inr ⟨path, base, last, splits, rfl⟩
          · exact rooted.normal q d there
        parented := fun q d found below => by
          rcases cases_ found with ⟨rfl, rfl⟩ | ⟨_, other, there⟩
          · refine ⟨newParent, kept moved.newLeads away, fun r known => ?_⟩
            rw [moved.nextDirectory] at known
            rw [object, moved.directories]
            exact lookup_adoptedBy_iff (rooted.orphaned housed moved.found inner moved.oldLeads known)
              (rooted.orphaned housed moved.found inner moved.oldLeads newBound)
          · obtain ⟨home, leads, listed⟩ := rooted.parented q d there below
            refine ⟨home, ?_, fun r known => ?_⟩
            · by_cases same : getDirName q = p
              · have stays := childless.resolve_right fun alone =>
                  alone ⟨q, below, by rw [there]; rfl, same⟩
                rw [same, moved.found] at leads
                rw [same, stays, index.1, AList.lookup_insert]
                exact leads
              · exact kept leads same
            · rw [object, lists there other]
              exact listed r (moved.nextDirectory ▸ known)
        plain := fun K f found => rooted.plain K f (files ▸ found)
        clear := fun q d name f found entry there => by
          rw [files, object] at entry
          have plain := rooted.plain _ f entry
          rcases cases_ found with ⟨rfl, rfl⟩ | ⟨unmoved, other, old⟩
          · refine rooted.clear_target moved.found entry splits renamed ?_
            rcases there with there | there
            · obtain ⟨e, there⟩ := Option.isSome_iff_exists.mp there
              rcases cases_ there with ⟨same, _⟩ | ⟨_, _, there⟩
              · exact .inl (List.append_right_eq_self.mp same)
              · exact .inl (name_eq_nil plain (rooted.slash there))
            · obtain ⟨e, there⟩ := Option.isSome_iff_exists.mp there
              rcases cases_ there with ⟨same, _⟩ | ⟨_, _, there⟩
              · have length := congrArg List.length same
                simp only [List.length_append, List.length_singleton] at length
                omega
              · exact .inr ⟨e, there⟩
          · refine rooted.clear q d name f old entry ?_
            rcases there with there | there
            · obtain ⟨e, there⟩ := Option.isSome_iff_exists.mp there
              rcases cases_ there with ⟨same, _⟩ | ⟨_, _, there⟩
              · obtain rfl : name = [] := name_eq_nil plain (by rw [same]; exact List.getLast?_concat)
                rw [List.append_nil] at same
                exact absurd same unmoved
              · exact .inl (Option.isSome_iff_exists.mpr ⟨e, there⟩)
            · obtain ⟨e, there⟩ := Option.isSome_iff_exists.mp there
              rcases cases_ there with ⟨same, _⟩ | ⟨_, _, there⟩
              · refine absurd ⟨q, d, name, f, old, ?_, (List.append_cancel_right same).symm⟩ unfiled
                rw [housed.dirMeta_dh]
                exact entry
              · exact .inr (Option.isSome_iff_exists.mpr ⟨e, there⟩) }

end Steps

/-- The calls a directory tree is built by, on absolute paths in normal form. -/
def TreeCall : Op → Prop
  | .mkdir path => Normalized path
  | .rmdir path => Normalized path
  | .createFile path => Normalized path
  | .unlink path => Normalized path
  | .rename oldpath newpath => Normalized oldpath ∧ Normalized newpath
  | _ => False

/-- The call breaks the tree: it goes through and puts a file and a directory at one path, or moves a
directory that has child directories, or moves one into itself. -/
def Tangles (s : FileSystem) : Op → Prop
  | .createFile path =>
    s.DirAt path ∧ (getFileName path).length < kBlockFsMaxFileNameLen ∧ s.freeFhs ≠ []
  | .mkdir path => s.FileAt path ∧ (s.checkFileExist path true).2 = true ∧
      path.length + 1 < kBlockFsMaxDirNameLen ∧ s.freeDhs ≠ []
  | .rename oldpath newpath =>
    (∀ g, s.getCreatedFile newpath ≠ .ok g) ∧
      ((∃ f dir, s.getCreatedFile oldpath = .ok f ∧ s.getCreatedDirectory (getDirName newpath) = .ok dir ∧
          s.DirAt ((s.dirMeta dir).dirName ++ (getFileName newpath).take kBlockFsMaxFileNameLen)) ∨
        (∀ f, s.getCreatedFile oldpath ≠ .ok f) ∧ (s.checkFileExist newpath true).2 = true ∧
          oldpath ≠ ['/'] ∧ newpath ≠ ['/'] ∧
          ∃ dir parent, s.createdDirs.lookup (oldpath ++ ['/']) = some dir ∧
            s.createdDirs.lookup (getDirName newpath) = some parent ∧
            (s.Shelters (oldpath ++ ['/']) ∧ oldpath ≠ newpath ∨ parent = dir ∨ s.FileAt newpath))
  | _ => False

section Calls
variable [Crc32] {s s' : FileSystem} {env : Env} {lost : Lost}

omit [Crc32] in
theorem getCreatedDirectory_found {dirname : Name} {dir : DirectoryPtr}
    (slash : dirname.getLast? = some '/') (found : s.getCreatedDirectory dirname = .ok dir) :
    s.createdDirs.lookup dirname = some dir := by
  unfold getCreatedDirectory at found
  obtain ⟨dirName, parts, search⟩ := Except.bind_eq_ok.mp found
  obtain ⟨same, _⟩ := dirTransformPath_ok parts
  rw [if_pos slash] at same
  rw [same] at search
  split at search
  · next d there => rw [there, Except.ok.inj search]
  · simp at search

/-- A file that enters a directory stays out of the way of the directories there. -/
theorem Coherent.entered_clear (coherent : Coherent s lost) {path name : Name} {dir : DirectoryPtr}
    (leads : s.createdDirs.lookup path = some dir) (free : ¬s.DirAt (path ++ name)) {p : Name}
    {d : DirectoryPtr} (found : s.createdDirs.lookup p = some d)
    (home : (s.directories d).metaSlot = (s.dirMeta dir).dh) : ¬s.DirAt (p ++ name) := by
  rw [coherent.housed.dirMeta_dh] at home
  obtain rfl := coherent.housed.apart d (coherent.housed.paths p d found) dir
    (coherent.housed.paths path dir leads) home
  obtain rfl : p = path :=
    (coherent.housed.named p d found).1.symm.trans (coherent.housed.named path d leads).1
  exact free

theorem Rooted.createFile (rooted : Rooted s) (coherent : Coherent s lost) (ok : env.IoOk)
    {path : Name} (normal : Normalized path) (fair : ¬s.Tangles (.createFile path)) :
    Rooted (s.createFilePath env path).1 := by
  have same : (s.createFilePath env path).1 = (s.createFile env path false).1 := by
    unfold createFilePath
    cases s.createFile env path false with
    | mk t target => cases target <;> rfl
  rw [same, FileSystem.createFile, if_neg Bool.false_ne_true]
  cases parts : FileHandle.transformPath path with
  | error e => exact rooted.sameSides ⟨rfl, rfl⟩
  | ok result =>
    obtain ⟨dirname, name⟩ := result
    dsimp only
    unfold FileHandle.transformPath at parts
    split at parts
    · simp at parts
    · next open_ =>
      split at parts
      · simp at parts
      · next long =>
        have short := not_le.mp long
        obtain ⟨rfl, rfl⟩ := Prod.mk.inj (Except.ok.inj parts)
        rcases createFileIn_cases coherent.consistent.clean ok (getDirName path) (getFileName path) false with
          ⟨e, refused⟩ | ⟨t, x, rest, m, done, created, key, _⟩
        · rw [refused]
          exact rooted.sameSides ⟨rfl, rfl⟩
        · rw [done]
          refine rooted.relisted created.relisted fun K f found => ?_
          rw [created.createdFiles] at found
          rcases lookup_of_insert found with ⟨rfl, _⟩ | ⟨_, before⟩
          · right
            have stored : m.fileName = getFileName path :=
              (newKey_name key).trans (List.take_of_length_le short.le)
            have leads : ∃ dir, s.getCreatedDirectory (getDirName path) = .ok dir ∧
                m.dh = (s.dirMeta dir).dh := by
              unfold newKey at key
              split at key
              · next dir _ _ target _ =>
                exact ⟨dir, target, (congrArg Prod.fst (Option.some.inj key)).symm⟩
              · simp at key
            obtain ⟨dir, target, dh⟩ := leads
            have there := getCreatedDirectory_found (getDirName_slash path) target
            have whole : getDirName path ++ getFileName path = path := by
              rcases normal.splits with root | ⟨base, last, splits⟩
              · exact absurd (by rw [root]; rfl) open_
              · rw [splits.getDirName_eq, splits.getFileName_eq, splits.eq, ← List.append_cons]
            rw [stored]
            refine ⟨getFileName_plain path, fun p d found home => ?_⟩
            refine coherent.entered_clear there ?_ found (home.trans dh)
            rw [whole]
            intro at_
            exact fair ⟨at_, short, by simp [created.free]⟩
          · exact .inl ⟨f, before⟩

theorem Rooted.unlink (rooted : Rooted s) (coherent : Coherent s lost) (ok : env.IoOk) (path : Name) :
    Rooted (s.unlink env path).1 := by
  rcases unlink_cases coherent.consistent ok (fun _ _ => coherent.registered.entered) path with
    same | ⟨_, f, _, _, same⟩ | ⟨dir, name, f, _, _, _, removed⟩
  · exact rooted.sameSides same
  · have marked : Rooted (s.modifyFile f fun o => { o with deleted := true }) :=
      rooted.of_files rfl rfl (fun _ => rfl) (fun _ => rfl) fun K g found => .inl ⟨g, found⟩
    exact marked.sameSides same
  · refine rooted.relisted removed.relisted fun K g found => .inl ⟨g, ?_⟩
    rcases removed.index with ⟨_, kept, _⟩ | ⟨_, erased⟩
    · rwa [kept] at found
    · rw [erased] at found
      exact (lookup_of_erase found).1

omit [Crc32] in
/-- The stored form of a path in normal form below the root. -/
theorem Splits.stored {path base last dirName : Name} (splits : Splits path base last)
    (parts : DirHandle.transformPath path = .ok dirName) : dirName = path ++ ['/'] := by
  rw [(dirTransformPath_ok parts).1, if_neg splits.last]

theorem Rooted.mkdir (rooted : Rooted s) (coherent : Coherent s lost) (ok : env.IoOk) {path : Name}
    {r : Int} (normal : Normalized path) (fair : ¬s.Tangles (.mkdir path))
    (result : s.createDirectory env path = .ok (s', r)) : Rooted s' := by
  obtain ⟨root, there⟩ := Option.isSome_iff_exists.mp rooted.root
  rcases createDirectory_cases coherent.housed ok there path with
    ⟨e, _, refused⟩ | ⟨u, dirName, parent, x, absent, parts, done, made⟩
  · rw [refused] at result
    obtain ⟨rfl, _⟩ := Prod.mk.inj (Except.ok.inj result)
    exact rooted.sameSides ⟨rfl, rfl⟩
  · rw [done] at result
    obtain ⟨rfl, _⟩ := Prod.mk.inj (Except.ok.inj result)
    have short := (dirTransformPath_ok parts).2
    rcases normal.splits with rfl | ⟨base, last, splits⟩
    · obtain rfl : ['/'] = dirName := by simpa using (dirTransformPath_ok parts).1.symm
      exact absurd (there.symm.trans made.vacant) (by simp)
    · obtain rfl := Splits.stored splits parts
      refine rooted.made coherent.housed splits (fun K f entry => ?_) (fun at_ => fair ?_) made
      · obtain ⟨d, ⟨bound, home⟩, _⟩ := coherent.placed K f entry
        have own := congrArg Prod.fst (coherent.registered.names K f entry).1
        rw [own, ← show _ = (s.key f).1 from home]
        exact coherent.housed.fresh d bound
      · rw [List.length_append, List.length_singleton] at short
        exact ⟨at_, absent, short, List.ne_nil_of_mem made.free⟩

theorem Rooted.rmdir (rooted : Rooted s) (coherent : Coherent s lost) (ok : env.IoOk) {path : Name}
    (normal : Normalized path) : Rooted (s.deleteDirectory env path).1 := by
  rcases deleteDirectory_cases coherent.housed ok path with
    ⟨e, _, refused⟩ | ⟨u, _, _, _, _, _, _, _, _, _, stopped, same, _⟩ |
      ⟨u, dirName, parent, dir, parts, below, done, dropped⟩
  · rw [refused]
    exact rooted.sameSides ⟨rfl, rfl⟩
  · rw [stopped]
    exact rooted.sameTree same
  · rw [done]
    obtain ⟨base, last, splits⟩ := normal.splits.resolve_left below
    obtain rfl := Splits.stored splits parts
    exact rooted.dropped coherent.housed splits.closed_ne_root dropped

theorem Rooted.rename (rooted : Rooted s) (coherent : Coherent s lost) (ok : env.IoOk)
    {oldpath newpath : Name} (oldNormal : Normalized oldpath) (newNormal : Normalized newpath)
    (fair : ¬s.Tangles (.rename oldpath newpath)) : Rooted (s.renamePath env oldpath newpath).1 := by
  unfold renamePath
  split
  · exact rooted.sameSides ⟨rfl, rfl⟩
  · cases absent : s.getCreatedFile newpath with
    | ok g => exact rooted
    | error e =>
      have open_ (g : FilePtr) : s.getCreatedFile newpath ≠ .ok g := by
        rw [absent]
        exact nofun
      dsimp only
      rw [show (s.storeErrno e).getCreatedFile oldpath = s.getCreatedFile oldpath from rfl]
      have noted : SameSides s (s.storeErrno e) := ⟨rfl, rfl⟩
      have coherent' := noted.coherent coherent
      cases found : s.getCreatedFile oldpath with
      | ok f =>
        obtain ⟨dir, name, _, entry⟩ := getCreatedFile_ok found
        have named := (coherent.registered.names _ f entry).1
        dsimp only
        rcases fileRename_cases coherent'.consistent.slots (coherent'.registered.names _ f entry).2 ok (named ▸ entry)
          newpath with
          ⟨e', refused, _⟩ | ⟨newDir, m, target, key, renamed⟩
        · rw [refused]
          exact rooted.sameSides (noted.trans ⟨rfl, rfl⟩)
        · refine (rooted.sameSides noted).relisted renamed.relisted fun K g there => ?_
          rw [renamed.createdFiles] at there
          rcases lookup_of_insert there with ⟨rfl, _⟩ | ⟨_, before⟩
          · right
            have leads := getCreatedDirectory_found (getDirName_slash newpath) target
            rw [key]
            refine ⟨fun member => getFileName_plain newpath (List.mem_of_mem_take member),
              fun p d found' home => ?_⟩
            refine coherent'.entered_clear leads (fun at_ => fair ⟨open_, .inl ⟨f, newDir, found, target, ?_⟩⟩)
              found' home
            rw [(coherent.housed.named _ newDir leads).1]
            exact at_
          · exact .inl ⟨g, (lookup_of_erase before).1⟩
      | error e' =>
        dsimp only
        have closed (g : FilePtr) : s.getCreatedFile oldpath ≠ .ok g := by
          rw [found]
          exact nofun
        have noted' : SameSides s ((s.storeErrno e).storeErrno e') := ⟨rfl, rfl⟩
        have stored := rooted.sameSides noted'
        have housed := (noted'.coherent coherent).housed
        cases ((s.storeErrno e).storeErrno e').getCreatedDirectory oldpath with
        | error _ => exact stored.sameSides ⟨rfl, rfl⟩
        | ok _ =>
          dsimp only
          rcases renameDirectory_cases housed ok oldpath newpath with
            ⟨n, _, refused⟩ | ⟨_, _, _, failed⟩ |
              ⟨u, fromDirName, toDirName, dir, oldParent, newParent, passed, oldBelow, newBelow,
                fromParts, toParts, done, moved⟩
          · rw [refused]
            exact stored.sameSides ⟨rfl, rfl⟩
          · rw [failed]
            exact stored.sameSides ⟨rfl, rfl⟩
          · rw [done]
            obtain ⟨oldBase, oldLast, oldSplits⟩ := oldNormal.splits.resolve_left oldBelow
            obtain ⟨newBase, newLast, newSplits⟩ := newNormal.splits.resolve_left newBelow
            obtain rfl := Splits.stored oldSplits fromParts
            obtain rfl := Splits.stored newSplits toParts
            have leads : s.createdDirs.lookup (getDirName newpath) = some newParent := by
              rw [newSplits.getDirName_eq, ← newSplits.getDirName_closed]
              exact moved.newLeads
            have safe (breaks : s.Shelters (oldpath ++ ['/']) ∧ oldpath ≠ newpath ∨ newParent = dir ∨
                s.FileAt newpath) : False :=
              fair ⟨open_, .inr ⟨closed, passed, oldBelow, newBelow, dir, newParent, moved.found, leads,
                breaks⟩⟩
            refine stored.moved housed newSplits oldSplits.closed_ne_root ?_
              (fun same => safe (.inr (.inl same))) (fun at_ => safe (.inr (.inr at_))) moved
            by_cases same : oldpath = newpath
            · exact .inl (by rw [same])
            · exact .inr fun shelters => safe (.inl ⟨shelters, same⟩)

/-- One call of a run keeps the tree. -/
theorem Rooted.step (rooted : Rooted s) (coherent : Coherent s lost) {e : Event} (ok : e.env.IoOk)
    (tree : TreeCall e.op) (fair : ¬s.Tangles e.op) (step : Step s e s') : Rooted s' := by
  obtain ⟨r, result⟩ := step.call
  obtain ⟨env, op⟩ := e
  cases op with
  | mkdir path => exact rooted.mkdir coherent ok tree fair result
  | rmdir path =>
    obtain ⟨rfl, _⟩ := Prod.mk.inj (Except.ok.inj result)
    exact rooted.rmdir coherent ok tree
  | createFile path =>
    obtain ⟨rfl, _⟩ := Prod.mk.inj (Except.ok.inj result)
    exact rooted.createFile coherent ok tree fair
  | unlink path =>
    obtain ⟨rfl, _⟩ := Prod.mk.inj (Except.ok.inj result)
    exact rooted.unlink coherent ok path
  | rename oldpath newpath =>
    obtain ⟨rfl, _⟩ := Prod.mk.inj (Except.ok.inj result)
    exact rooted.rename coherent ok tree.1 tree.2 fair
  | _ => exact tree.elim

omit [Crc32] in
theorem TreeCall.narrow {op : Op} (tree : TreeCall op) (s : FileSystem) : s.NarrowCall op := by
  intro f n call
  cases op <;> first | exact tree.elim | simp [ftruncateCall] at call

omit [Crc32] in
theorem rooted_mounted [Crc32] (d : Disk) (env : Env) (attempts : Nat) :
    Rooted (mounted d env attempts) where
  root := rfl
  normal p e found := by
    rcases lookup_of_insert found with ⟨root, _⟩ | ⟨_, there⟩
    · exact .inl root
    · simp at there
  parented p e found inner := by
    rcases lookup_of_insert found with ⟨root, _⟩ | ⟨_, there⟩
    · exact absurd root inner
    · simp at there
  plain K f found := by simp [mounted, initialized, unmounted] at found
  clear p e name f _ entry := by simp [mounted, initialized, unmounted] at entry

theorem Reachable.rooted (reach : Reachable (fun s op => TreeCall op ∧ ¬s.Tangles op) s) :
    Rooted s ∧ ∃ lost, Coherent s lost := by
  refine reach.invariant (fun s => Rooted s ∧ ∃ lost, Coherent s lost) (fun s fresh => ?_)
    fun s e s' hyp guard step => ?_
  · obtain ⟨d, env, attempts, rfl, large⟩ := fresh.eq_mounted
    exact ⟨rooted_mounted d env attempts, _, coherent_mounted large env attempts⟩
  · obtain ⟨rooted, lost, coherent⟩ := hyp
    obtain ⟨ok, tree, fair⟩ := guard
    obtain ⟨r, outcome⟩ := step_outcome coherent ok (tree.narrow s) step
    obtain ⟨lost', _, after⟩ := outcome.coherent coherent
    exact ⟨rooted.step coherent ok tree fair step, lost', after⟩

/-- In a run whose calls do not tangle it the directory namespace stays a tree. -/
theorem Reachable.isTree (reach : Reachable (fun s op => TreeCall op ∧ ¬s.Tangles op) s) :
    s.IsTree := by
  obtain ⟨rooted, lost, coherent⟩ := reach.rooted
  exact rooted.tree coherent.housed

end Calls

section Concrete

/-- Decides whether a path is in normal form. -/
def isNormalized (path : Name) : Bool :=
  path == ['/'] ||
    (path.drop 1).splitOn '/' != [] && ((path.drop 1).splitOn '/').all (fun name =>
      name != [] && !name.contains '/') && path == ((path.drop 1).splitOn '/').flatMap ('/' :: ·)

theorem isNormalized_sound {path : Name} (passed : isNormalized path = true) : Normalized path := by
  rw [isNormalized, Bool.or_eq_true, Bool.and_eq_true, Bool.and_eq_true, List.all_eq_true] at passed
  rcases passed with root | ⟨⟨nonempty, components⟩, whole⟩
  · exact .inl (eq_of_beq root)
  · refine .inr ⟨_, bne_iff_ne.mp nonempty, fun name member => ?_, eq_of_beq whole⟩
    simpa [IsComponent] using components name member

instance (s : FileSystem) (path : Name) : Decidable (s.DirAt path) := inferInstanceAs (Decidable (_ ∨ _))

/-- A call on paths in normal form that builds a tree. -/
def isTreeCall : Op → Bool
  | .mkdir path => isNormalized path
  | .rmdir path => isNormalized path
  | .createFile path => isNormalized path
  | .unlink path => isNormalized path
  | .rename oldpath newpath => isNormalized oldpath && isNormalized newpath
  | _ => false

theorem isTreeCall_sound (_ : FileSystem) (op : Op) (passed : isTreeCall op = true) : TreeCall op := by
  cases op with
  | rename oldpath newpath =>
    rw [isTreeCall, Bool.and_eq_true] at passed
    exact ⟨isNormalized_sound passed.1, isNormalized_sound passed.2⟩
  | mkdir path => exact isNormalized_sound passed
  | rmdir path => exact isNormalized_sound passed
  | createFile path => exact isNormalized_sound passed
  | unlink path => exact isNormalized_sound passed
  | _ => simp [isTreeCall] at passed

/-- A call that cannot tangle the tree: it makes or moves a directory before there are files, or a
file where there is no directory, and moves only directories without children. -/
def isOrderlyCall (s : FileSystem) (op : Op) : Bool :=
  isTreeCall op &&
    match op with
    | .mkdir _ => s.createdFiles.entries.isEmpty
    | .createFile path => !decide (s.DirAt path)
    | .rename oldpath newpath =>
      s.createdFiles.entries.isEmpty &&
        s.createdDirs.lookup (oldpath ++ ['/']) != s.createdDirs.lookup (getDirName newpath) &&
        s.createdDirs.keys.all fun p => p == ['/'] || getDirName p != oldpath ++ ['/']
    | _ => true

theorem lookup_of_isEmpty {κ ν : Type} [DecidableEq κ] {m : Map κ ν}
    (empty : m.entries.isEmpty = true) (k : κ) : m.lookup k = none := by
  rw [List.isEmpty_iff] at empty
  rw [AList.lookup, empty]
  rfl

theorem isOrderlyCall_sound (s : FileSystem) (op : Op) (passed : s.isOrderlyCall op = true) :
    TreeCall op ∧ ¬s.Tangles op := by
  have unfiled (path : Name) (none : s.createdFiles.entries.isEmpty = true) : ¬s.FileAt path := by
    rintro ⟨_, _, _, f, _, entry, _⟩
    rw [lookup_of_isEmpty none] at entry
    simp at entry
  unfold isOrderlyCall at passed
  rw [Bool.and_eq_true] at passed
  refine ⟨isTreeCall_sound s op passed.1, fun tangles => ?_⟩
  replace passed := passed.2
  cases op with
  | mkdir path => exact unfiled path passed tangles.1
  | createFile path => simp [tangles.1] at passed
  | rename oldpath newpath =>
    simp only [Bool.and_eq_true, List.all_eq_true, Bool.or_eq_true, beq_iff_eq, bne_iff_ne] at passed
    obtain ⟨⟨none, apart⟩, childless⟩ := passed
    rcases tangles with ⟨_, ⟨f, dir, found, _⟩ | ⟨_, _, _, _, dir, parent, here, leads, breaks⟩⟩
    · obtain ⟨_, _, _, entry⟩ := getCreatedFile_ok found
      rw [lookup_of_isEmpty none] at entry
      simp at entry
    · rcases breaks with ⟨⟨q, below, there, same⟩, _⟩ | rfl | at_
      · rcases childless q (AList.lookup_isSome.mp there) with root | other
        · exact below root
        · exact other same
      · exact apart (here.trans leads.symm)
      · exact unfiled newpath none at_
  | _ => exact tangles

/-- A directory that was moved and the file made in it afterwards. -/
theorem Reachable.isTree_moved :
    ∃ s : FileSystem, s.DirAt ['/', 'b', '/', 'c'] ∧ s.createdFiles.lookup (1, ['f']) = some 0 ∧
      s.IsTree := by
  let _ := zeroCrc
  obtain ⟨s, reach, there, entry⟩ := Reachable.exists_run
    [.mkdir ['/', 'a'], .mkdir ['/', 'b'], .rename ['/', 'a'] ['/', 'b', '/', 'c'],
      .createFile ['/', 'b', '/', 'c', '/', 'f']]
    (fun s => s.DirAt ['/', 'b', '/', 'c'] ∧ s.createdFiles.lookup (1, ['f']) = some 0)
    (freshDevice_fresh 8 fun _ => 0) steadyEnv_ok isOrderlyCall_sound (by decide +kernel)
  exact ⟨s, there, entry, reach.isTree⟩

/-- A directory moved away from under its child leaves the child without a parent. -/
theorem not_isTree : ∃ s, @Reachable zeroCrc (fun _ op => TreeCall op) s ∧ ¬s.IsTree := by
  let _ := zeroCrc
  obtain ⟨s, reach, there, orphan⟩ := Reachable.exists_run
    [.mkdir ['/', 'a'], .mkdir ['/', 'a', '/', 'b'], .rename ['/', 'a'] ['/', 'c']]
    (fun s => s.createdDirs.lookup ['/', 'a', '/', 'b', '/'] = some 2 ∧
      s.createdDirs.lookup (getDirName ['/', 'a', '/', 'b', '/']) = none)
    (freshDevice_fresh 8 fun _ => 0) steadyEnv_ok
    isTreeCall_sound (by decide +kernel)
  refine ⟨s, reach, fun tree => ?_⟩
  obtain ⟨parent, leads, _⟩ := tree.parented _ 2 there (by decide)
  rw [orphan] at leads
  simp at leads

end Concrete

end BlockFs.FileSystem
