import BlockFs.Shelves
import BlockFs.Tree

namespace BlockFs.FileSystem

/-- The directories are those whose slots are in use, each but the root stands in the child map of the
one its path names as parent, and the root is there. -/
structure Nested (s : FileSystem) : Prop where
  root : (s.createdDirs.lookup ['/']).isSome
  named : ∀ p d, s.createdDirs.lookup p = some d → p ≠ []
  parented : ∀ p d, s.createdDirs.lookup p = some d → p ≠ ['/'] →
    ∃ q, s.createdDirs.lookup (getDirName p) = some q ∧
      (s.directories q).childDirMaps.lookup (s.directories d).metaSlot = some d
  used : ∀ x, (s.dirMetas x).used = (s.createdDhs.lookup x).isSome
  bounded : ∀ x, x ∈ s.freeDhs ∨ (s.createdDhs.lookup x).isSome → x < kMaxFileNum

/-- The call gives up the root under the empty path, or it moves a directory that has directories
below it, or to a path that is taken, or into itself. -/
def Uproots (s : FileSystem) : Op → Prop
  | .rmdir path => path = []
  | .rename oldpath newpath => (∀ f, s.getCreatedFile oldpath ≠ .ok f) ∧
    ∃ path path', DirHandle.transformPath oldpath = .ok path ∧ DirHandle.transformPath newpath = .ok path' ∧
      path' ≠ path ∧ (s.Shelters path ∨ (s.createdDirs.lookup path').isSome ∨ getDirName path' = path)
  | _ => False

section Lists
variable {dirs : Nat → Directory} {parent q child c : DirectoryPtr} {x y : Nat}

theorem lookup_of_orphanedFrom (found : (orphanedFrom dirs parent x q).childDirMaps.lookup y = some c) :
    (dirs q).childDirMaps.lookup y = some c := by
  unfold orphanedFrom at found
  by_cases here : q = parent
  · rw [here, Function.update_self] at found
    rw [here]
    exact (lookup_of_erase found).1
  · rwa [Function.update_of_ne here] at found

/-- The one that adopts a directory lists it, unless it has another in its slot. -/
theorem lookup_adoptedBy_self (alone : ∀ c, (dirs parent).childDirMaps.lookup x = some c → c = child) :
    (adoptedBy dirs parent x child parent).childDirMaps.lookup x = some child := by
  unfold adoptedBy
  split
  · next taken =>
    obtain ⟨c, found⟩ := Option.isSome_iff_exists.mp taken
    rw [found, alone c found]
  · rw [Function.update_self]
    exact AList.lookup_insert _

end Lists

section Nested
variable {s t : FileSystem}

/-- The directories stand as they did, in slots as before. -/
theorem Nested.keeps (nested : Nested s) (dirs : t.createdDirs = s.createdDirs) (dhs : t.createdDhs = s.createdDhs)
    (free : t.freeDhs = s.freeDhs) (slots : ∀ d, (t.directories d).metaSlot = (s.directories d).metaSlot)
    (children : ∀ d, (t.directories d).childDirMaps = (s.directories d).childDirMaps)
    (used : ∀ x, (t.dirMetas x).used = (s.dirMetas x).used) : Nested t where
  root := dirs ▸ nested.root
  named p d found := nested.named p d (dirs ▸ found)
  parented p d found inner := by
    rw [dirs] at found ⊢
    obtain ⟨q, leads, child⟩ := nested.parented p d found inner
    exact ⟨q, leads, by rw [children, slots]; exact child⟩
  used x := by rw [used, dhs, nested.used]
  bounded x known := nested.bounded x (by rwa [free, dhs] at known)

theorem Nested.congr (nested : Nested s) (same : t.shelves = s.shelves) : Nested t :=
  nested.keeps (congrArg Shelves.createdDirs same) (congrArg Shelves.createdDhs same) (congrArg Shelves.freeDhs same)
    (congrFun (congrArg Shelves.dirSlots same)) (congrFun (congrArg Shelves.childDirMaps same))
    fun x => congrArg (fun v : Shelves => (v.dirMetas x).used) same

/-- A new directory hangs under its parent. -/
theorem Nested.made (nested : Nested s) (housed : Housed s) {path : Name} {parent : DirectoryPtr} {x : Nat}
    (real : path ≠ []) (made : MadeDirectory s t path parent x) (free : ∀ y ∈ t.freeDhs, y ∈ s.freeDhs)
    (used : ∀ y, (t.dirMetas y).used = if y = x then true else (s.dirMetas y).used) : Nested t := by
  have kept {p : Name} {d : DirectoryPtr} (found : s.createdDirs.lookup p = some d) :
      t.createdDirs.lookup p = some d := by
    have other : p ≠ path := by
      rintro rfl
      rw [made.vacant] at found
      simp at found
    rw [made.createdDirs, AList.lookup_insert_ne other]
    exact found
  have object (d : DirectoryPtr) (known : d < s.nextDirectory) :
      (t.directories d).metaSlot = (s.directories d).metaSlot := by
    by_cases here : d = parent
    · rw [here, made.parent]
    · rw [made.old d known here]
  have new : (t.directories s.nextDirectory).metaSlot = x := by rw [made.new]
  have handled (y : Nat) : (t.createdDhs.lookup y).isSome = if y = x then true else (s.createdDhs.lookup y).isSome := by
    rw [made.createdDhs]
    by_cases here : y = x
    · rw [if_pos here, here, AList.lookup_insert]
      rfl
    · rw [if_neg here, AList.lookup_insert_ne here]
  refine ⟨?_, fun p d found => ?_, fun p d found inner => ?_, fun y => ?_, fun y known => ?_⟩
  · obtain ⟨d, found⟩ := Option.isSome_iff_exists.mp nested.root
    exact Option.isSome_iff_exists.mpr ⟨d, kept found⟩
  · rw [made.createdDirs] at found
    rcases lookup_of_insert found with ⟨rfl, _⟩ | ⟨_, there⟩
    · exact real
    · exact nested.named p d there
  · rw [made.createdDirs] at found
    rcases lookup_of_insert found with ⟨rfl, rfl⟩ | ⟨_, there⟩
    · refine ⟨parent, kept made.leads, ?_⟩
      rw [made.parent, new]
      exact AList.lookup_insert _
    · obtain ⟨q, leads, child⟩ := nested.parented p d there inner
      refine ⟨q, kept leads, ?_⟩
      rw [object d (housed.paths p d there)]
      by_cases here : q = parent
      · have other : (s.directories d).metaSlot ≠ x := by
          intro same
          exact housed.fresh d (housed.paths p d there) (same ▸ made.free)
        rw [here, made.parent, AList.lookup_insert_ne other, ← here]
        exact child
      · rw [made.old q (housed.paths _ q leads) here]
        exact child
  · rw [used, handled, nested.used]
  · rcases known with listed | entered
    · exact nested.bounded y (.inl (free y listed))
    · rw [handled] at entered
      by_cases here : y = x
      · exact nested.bounded y (.inl (here ▸ made.free))
      · rw [if_neg here] at entered
        exact nested.bounded y (.inr entered)

/-- A directory that goes has none below it. -/
theorem Nested.dropped (nested : Nested s) (housed : Housed s) {path : Name} {parent dir : DirectoryPtr}
    (inner : path ≠ ['/']) (dropped : DroppedDirectory s t path parent dir) (free : t.freeDhs = s.freeDhs)
    (used : ∀ y, (t.dirMetas y).used = if y = (s.directories dir).metaSlot then false else (s.dirMetas y).used) :
    Nested t := by
  have object (d : DirectoryPtr) : (t.directories d).metaSlot = (s.directories d).metaSlot := by
    rw [dropped.directories]
    exact view_update s.directories parent d (·.metaSlot) rfl
  have kept {p : Name} {d : DirectoryPtr} (found : s.createdDirs.lookup p = some d) (other : p ≠ path) :
      t.createdDirs.lookup p = some d := by
    rw [dropped.createdDirs, AList.lookup_erase_ne other]
    exact found
  have fewer {p : Name} {d : DirectoryPtr} (found : t.createdDirs.lookup p = some d) :
      s.createdDirs.lookup p = some d ∧ p ≠ path := by
    rw [dropped.createdDirs] at found
    exact lookup_of_erase found
  have handled (y : Nat) : (t.createdDhs.lookup y).isSome =
      if y = (s.directories dir).metaSlot then false else (s.createdDhs.lookup y).isSome := by
    rw [dropped.createdDhs]
    by_cases here : y = (s.directories dir).metaSlot
    · rw [if_pos here, here, AList.lookup_erase]
      rfl
    · rw [if_neg here, AList.lookup_erase_ne here]
  refine ⟨?_, fun p d found => nested.named p d (fewer found).1, fun p d found below => ?_, fun y => ?_,
    fun y known => ?_⟩
  · obtain ⟨d, found⟩ := Option.isSome_iff_exists.mp nested.root
    exact Option.isSome_iff_exists.mpr ⟨d, kept found inner.symm⟩
  · obtain ⟨there, other⟩ := fewer found
    obtain ⟨q, leads, child⟩ := nested.parented p d there below
    have elsewhere : getDirName p ≠ path := by
      intro same
      rw [same, dropped.found] at leads
      obtain rfl := Option.some.inj leads
      rw [dropped.empty.2] at child
      simp at child
    have apart : (s.directories d).metaSlot ≠ (s.directories dir).metaSlot := by
      intro same
      obtain rfl := housed.apart d (housed.paths p d there) dir (housed.paths _ dir dropped.found) same
      exact other ((housed.named p d there).1.symm.trans (housed.named path d dropped.found).1)
    refine ⟨q, kept leads elsewhere, ?_⟩
    rw [object, dropped.directories]
    by_cases here : q = parent
    · rw [here, Function.update_self, AList.lookup_erase_ne apart, ← here]
      exact child
    · rw [Function.update_of_ne here]
      exact child
  · rw [used, handled, nested.used]
  · rw [free, handled] at known
    rcases known with listed | entered
    · exact nested.bounded y (.inl listed)
    · split at entered
      · simp at entered
      · exact nested.bounded y (.inr entered)

/-- A directory that moves stays where it is, or goes without any below it to a free path. -/
theorem Nested.moved (nested : Nested s) (housed : Housed s) {path target : Name}
    {dir oldParent newParent : DirectoryPtr} (inner : path ≠ ['/']) (real : target ≠ [])
    (plain : target = path ∨
      ¬s.Shelters path ∧ s.createdDirs.lookup target = none ∧ getDirName target ≠ path)
    (moved : MovedDirectory s t path target dir oldParent newParent) (free : t.freeDhs = s.freeDhs)
    (used : ∀ y, (t.dirMetas y).used = (s.dirMetas y).used) : Nested t := by
  have known := housed.paths _ _ moved.found
  have object (d : DirectoryPtr) : (t.directories d).metaSlot = (s.directories d).metaSlot := by
    rw [moved.directories, adoptedBy_metaSlot, orphanedFrom_metaSlot]
  have vacant : (s.createdDirs.erase path).lookup target = none := by
    by_cases same : target = path
    · rw [same]
      exact AList.lookup_erase _ _
    · rw [AList.lookup_erase_ne same]
      exact (plain.resolve_left same).2.1
  have index := moved.index
  rw [if_neg (by simp [vacant])] at index
  have kept {p : Name} {d : DirectoryPtr} (found : s.createdDirs.lookup p = some d)
      (safe : p = path → target = path) : t.createdDirs.lookup p = some d := by
    rw [index.1]
    by_cases here : p = target
    · by_cases other : p = path
      · rw [other, moved.found] at found
        rw [here, AList.lookup_insert, found]
      · rw [← here, AList.lookup_erase_ne other, found] at vacant
        simp at vacant
    · have other : p ≠ path := fun same => here (same.trans (safe same).symm)
      rw [AList.lookup_insert_ne here, AList.lookup_erase_ne other]
      exact found
  have handled (y : Nat) : (t.createdDhs.lookup y).isSome = (s.createdDhs.lookup y).isSome := by
    rw [index.2]
    by_cases here : y = (s.directories dir).metaSlot
    · rw [here, AList.lookup_insert, (housed.named path dir moved.found).2]
    · rw [AList.lookup_insert_ne here, AList.lookup_erase_ne here]
  refine ⟨?_, fun p d found => ?_, fun p d found below => ?_, fun y => by rw [used, handled, nested.used],
    fun y listed => nested.bounded y (by rwa [free, handled] at listed)⟩
  · obtain ⟨d, found⟩ := Option.isSome_iff_exists.mp nested.root
    exact Option.isSome_iff_exists.mpr ⟨d, kept found fun same => absurd same.symm inner⟩
  · rw [index.1] at found
    rcases lookup_of_insert found with ⟨rfl, _⟩ | ⟨_, old⟩
    · exact real
    · exact nested.named p d (lookup_of_erase old).1
  · rw [index.1] at found
    rcases lookup_of_insert found with ⟨rfl, rfl⟩ | ⟨_, old⟩
    · -- The new parent lists the directory: it had no other in that slot.
      have alone (c : DirectoryPtr) (child : (orphanedFrom s.directories oldParent (s.directories d).metaSlot
          newParent).childDirMaps.lookup (s.directories d).metaSlot = some c) : c = d := by
        obtain ⟨below', slot⟩ := housed.children newParent (housed.paths _ _ moved.newLeads) _ c
          (lookup_of_orphanedFrom child)
        exact housed.apart c below' d known slot
      refine ⟨newParent, kept moved.newLeads fun home => ?_, ?_⟩
      · by_contra other
        exact (plain.resolve_left other).2.2 home
      · rw [object, moved.directories]
        exact lookup_adoptedBy_self alone
    · obtain ⟨old, other⟩ := lookup_of_erase old
      obtain ⟨q, leads, child⟩ := nested.parented p d old below
      have apart : (s.directories d).metaSlot ≠ (s.directories dir).metaSlot := by
        intro same
        obtain rfl := housed.apart d (housed.paths p d old) dir known same
        exact other ((housed.named p d old).1.symm.trans (housed.named path d moved.found).1)
      refine ⟨q, kept leads fun home => ?_, ?_⟩
      · by_contra away
        exact (plain.resolve_left away).1 ⟨p, below, Option.isSome_iff_exists.mpr ⟨d, old⟩, home⟩
      · rw [object, moved.directories, lookup_adoptedBy apart, lookup_orphanedFrom apart]
        exact child

end Nested

section Directories
variable [Crc32] {s t : FileSystem} {env : Env} {r : Int}

omit [Crc32] in
theorem transformPath_ne_nil {path dirName : Name} (parts : DirHandle.transformPath path = .ok dirName) :
    dirName ≠ [] := by
  obtain ⟨rfl, _⟩ := dirTransformPath_ok parts
  split
  · next last =>
    rintro rfl
    simp at last
  · simp

omit [Crc32] in
theorem transformPath_root {path : Name} (parts : DirHandle.transformPath path = .ok ['/']) :
    path = [] ∨ path = ['/'] := by
  obtain ⟨whole, _⟩ := dirTransformPath_ok parts
  split at whole
  · exact .inr whole.symm
  · rcases List.eq_nil_or_concat' path with none | ⟨base, c, rfl⟩
    · exact .inl none
    · have lengths := congrArg List.length whole
      simp only [List.length_append, List.length_singleton] at lengths
      omega

omit [Crc32] in
theorem addDirectory_slots {parent : Option DirectoryPtr} {child : DirectoryPtr} {added : Bool}
    (result : s.addDirectory parent child = .ok (t, added)) : t.freeDhs = s.freeDhs ∧ t.dirMetas = s.dirMetas := by
  have enters (u : FileSystem) : (u.addDirectory2CreateNolock child).1.freeDhs = u.freeDhs ∧
      (u.addDirectory2CreateNolock child).1.dirMetas = u.dirMetas := by
    unfold addDirectory2CreateNolock
    split
    · exact ⟨rfl, rfl⟩
    · split <;> exact ⟨rfl, rfl⟩
  have hangs (u : FileSystem) (p : DirectoryPtr) : (u.addChildDirectory p child).1.freeDhs = u.freeDhs ∧
      (u.addChildDirectory p child).1.dirMetas = u.dirMetas := by
    unfold addChildDirectory
    split <;> exact ⟨rfl, rfl⟩
  have falls (u : FileSystem) (p : DirectoryPtr) : (u.removChildDirectory p child).1.freeDhs = u.freeDhs ∧
      (u.removChildDirectory p child).1.dirMetas = u.dirMetas := by
    unfold removChildDirectory
    split <;> exact ⟨rfl, rfl⟩
  unfold addDirectory at result
  grind only

/-- A creation that succeeds puts the first free slot in use. -/
theorem createDirectory_slots (ok : env.IoOk) {path : Name} (result : s.createDirectory env path = .ok (t, 0)) :
    ∃ x rest, s.freeDhs = x :: rest ∧ t.freeDhs = rest ∧
      ∀ y, (t.dirMetas y).used = if y = x then true else (s.dirMetas y).used := by
  unfold FileSystem.createDirectory at result
  generalize s.checkFileExist path true = checked at result
  obtain ⟨e, absent⟩ := checked
  dsimp only at result
  split at result
  · simp at result
  split at result
  · simp at result
  next dirName _ =>
  cases made : (s.storeErrno e).newDirectory env dirName with
  | mk u taken =>
    rw [made] at result
    cases taken with
    | none => simp at result
    | some objects =>
      obtain ⟨parent, dir⟩ := objects
      obtain ⟨x, rest, free, rfl⟩ : ∃ x rest, s.freeDhs = x :: rest ∧ u = (s.storeErrno e).lodged env dirName x rest := by
        have lodges {v : FileSystem} {d : DirectoryPtr}
            (taken : (s.storeErrno e).newFreeDirectoryNolock env dirName = (v, some d)) :
            ∃ x rest, s.freeDhs = x :: rest ∧ v = (s.storeErrno e).lodged env dirName x rest := by
          rcases newFreeDirectoryNolock_cases (s.storeErrno e) env dirName with ⟨_, _, refused⟩ | ⟨x, rest, free, lodged⟩
          · have none := congrArg Prod.snd (refused.symm.trans taken)
            simp at none
          · rw [lodged] at taken
            exact ⟨x, rest, free, (Prod.mk.inj taken).1.symm⟩
        unfold newDirectory at made
        grind only
      dsimp only at result
      obtain ⟨v, written, same, _⟩ := writeDirMetaRetry_tree ok ((s.storeErrno e).lodged env dirName x rest)
        (((s.storeErrno e).lodged env dirName x rest).dirMeta dir).dh 2
      have state := writeDirMetaRetry_true written
      rw [written] at result
      obtain ⟨⟨w, added⟩, entered, last⟩ := Except.bind_eq_ok.mp result
      obtain ⟨kept, metas⟩ := addDirectory_slots entered
      dsimp only at last
      split at last
      swap
      · simp at last
      obtain ⟨rfl, _⟩ := Prod.mk.inj (Except.ok.inj last)
      refine ⟨x, rest, free, kept.trans same.freeDhs, fun y => ?_⟩
      dsimp only
      rw [metas, state]
      dsimp only
      have unseen (m : DirMeta) : m.sealed.used = m.used := rfl
      refine (view_update ((s.storeErrno e).lodged env dirName x rest).dirMetas _ y (·.used) (unseen _)).trans ?_
      change (Function.update s.dirMetas x _ y).used = _
      by_cases here : y = x
      · rw [if_pos here, here, Function.update_self]
      · rw [if_neg here, Function.update_of_ne here]

/-- A deletion that succeeds gives up the slot of the directory. -/
theorem deleteDirectory_slots (ok : env.IoOk) {path : Name} (result : s.deleteDirectory env path = (t, 0)) :
    ∃ dirName parent dir, DirHandle.transformPath path = .ok dirName ∧ s.findDirectory dirName = .ok (parent, dir) ∧
      t.freeDhs = s.freeDhs ∧
      ∀ y, (t.dirMetas y).used = if y = (s.directories dir).metaSlot then false else (s.dirMetas y).used := by
  unfold FileSystem.deleteDirectory at result
  generalize s.checkFileExist path false = checked at result
  obtain ⟨e, absent⟩ := checked
  dsimp only at result
  split at result
  · simp at result
  split at result
  · simp at result
  next dirName parts =>
  split at result
  · simp at result
  split at result
  · simp at result
  next parent dir search =>
  have search' : s.findDirectory dirName = .ok (parent, dir) := search
  split at result
  · simp at result
  split at result
  · simp at result
  rw [writeDirMeta_ok ok] at result
  refine ⟨dirName, parent, dir, parts, search', ?_⟩
  dsimp only at result
  generalize wrote : (FileSystem.persist _ _) = v at result
  have slots : v.freeDhs = s.freeDhs ∧
      ∀ y, (v.dirMetas y).used = if y = (s.directories dir).metaSlot then false else (s.dirMetas y).used := by
    have unseen (m : DirMeta) : m.sealed.used = m.used := rfl
    rw [← wrote]
    refine ⟨rfl, fun y => ?_⟩
    refine (view_update _ _ y (fun m : DirMeta => m.used) (unseen _)).trans ?_
    change (Function.update s.dirMetas (s.directories dir).metaSlot _ y).used = _
    by_cases here : y = (s.directories dir).metaSlot
    · rw [if_pos here, here, Function.update_self]
      rfl
    · rw [if_neg here, Function.update_of_ne here]
  clear wrote
  have falls : (v.removChildDirectory parent dir).1.freeDhs = v.freeDhs ∧
      (v.removChildDirectory parent dir).1.dirMetas = v.dirMetas := by
    unfold removChildDirectory
    split <;> exact ⟨rfl, rfl⟩
  have leaves (u : FileSystem) : (u.removeDirectoryFromCreateNolock dir).1.freeDhs = u.freeDhs ∧
      (u.removeDirectoryFromCreateNolock dir).1.dirMetas = u.dirMetas := by
    unfold removeDirectoryFromCreateNolock
    split
    · exact ⟨rfl, rfl⟩
    · dsimp only
      split <;> exact ⟨rfl, rfl⟩
  split at result
  · simp at result
  next u fell =>
  rw [fell] at falls
  have left := leaves u
  split at result
  · simp at result
  next w gone =>
  rw [gone] at left
  obtain ⟨rfl, _⟩ := Prod.mk.inj result
  refine ⟨left.1.trans (falls.1.trans slots.1), fun y => ?_⟩
  rw [← slots.2 y]
  exact congrArg (fun metas : Nat → DirMeta => (metas y).used) (left.2.trans falls.2)

theorem directoryRename_freeDhs (s : FileSystem) (env : Env) (dir : DirectoryPtr) (target : Name) :
    (s.directoryRename env dir target).1.freeDhs = s.freeDhs := by
  have falls (u : FileSystem) (p : DirectoryPtr) : (u.removChildDirectory p dir).1.freeDhs = u.freeDhs := by
    unfold removChildDirectory
    split <;> rfl
  have leaves (u : FileSystem) : (u.removeDirectoryFromCreateNolock dir).1.freeDhs = u.freeDhs := by
    unfold removeDirectoryFromCreateNolock
    split
    · rfl
    · dsimp only
      split <;> rfl
  have enters (u : FileSystem) : (u.addDirectory2CreateNolock dir).1.freeDhs = u.freeDhs := by
    unfold addDirectory2CreateNolock
    split
    · rfl
    · split <;> rfl
  have hangs (u : FileSystem) (p : DirectoryPtr) : (u.addChildDirectory p dir).1.freeDhs = u.freeDhs := by
    unfold addChildDirectory
    split <;> rfl
  have writes (u : FileSystem) (x : Nat) : (u.writeDirMeta env x).1.freeDhs = u.freeDhs := by
    unfold writeDirMeta pwriteDirect
    dsimp only
    split <;> rfl
  unfold directoryRename
  split
  · rfl
  next newParent _ =>
  split
  · rfl
  next oldParent _ =>
  have fell := falls s oldParent
  dsimp only
  have left := leaves (s.removChildDirectory oldParent dir).1
  split
  · next u gone =>
    rw [gone] at left
    exact left.trans fell
  next u gone =>
  rw [gone] at left
  have settled (v : FileSystem) (same : v.freeDhs = u.freeDhs) : ((v.addDirectory2CreateNolock dir).1.addChildDirectory
      newParent dir).1.freeDhs = s.freeDhs := by
    rw [hangs, enters, same, left, fell]
  have placed := settled (u.modifyDirMeta (u.directories dir).metaSlot fun m => m.setDirName target) rfl
  generalize (((u.modifyDirMeta (u.directories dir).metaSlot fun m =>
    m.setDirName target).addDirectory2CreateNolock dir).1.addChildDirectory newParent dir).1 = v at placed
  have wrote := writes v (v.dirMeta dir).dh
  split
  · next w failed =>
    rw [failed] at wrote
    exact wrote.trans placed
  · next w done =>
    rw [done] at wrote
    exact wrote.trans placed

variable (nested : Nested s) (housed : Housed s) (ok : env.IoOk)
include nested housed ok

theorem Nested.createDirectory {path : Name} (result : s.createDirectory env path = .ok (t, r)) : Nested t := by
  obtain ⟨root, rooted⟩ := Option.isSome_iff_exists.mp nested.root
  rcases createDirectory_cases housed ok rooted path with
    ⟨e, _, refused⟩ | ⟨u, dirName, parent, x, _, parts, done, made⟩
  · obtain ⟨rfl, _⟩ := Prod.mk.inj (Except.ok.inj (refused.symm.trans result))
    exact nested.congr rfl
  · obtain ⟨rfl, _⟩ := Prod.mk.inj (Except.ok.inj (done.symm.trans result))
    obtain ⟨x', rest, free, left, used⟩ := createDirectory_slots ok done
    have taken : x = x' := by
      -- The slot of a directory that exists is not on the free list any more.
      have gone := (housed.createDirectory env done).housed.fresh s.nextDirectory
        (by rw [made.nextDirectory]; exact Nat.lt_succ_self _)
      rw [made.new, left] at gone
      have listed := made.free
      rw [free] at listed
      exact (List.mem_cons.mp listed).resolve_right gone
    refine nested.made housed (transformPath_ne_nil parts) made (fun y listed => ?_) fun y => taken ▸ used y
    rw [free]
    exact List.mem_cons_of_mem _ (left ▸ listed)

theorem Nested.deleteDirectory {path : Name} (real : path ≠ []) : Nested (s.deleteDirectory env path).1 := by
  rcases deleteDirectory_cases housed ok path with
    ⟨e, _, refused⟩ | ⟨u, dirName, parent, dir, inner, _, parts, leads, found, absent, _⟩ |
      ⟨u, dirName, parent, dir, parts, inner, done, dropped⟩
  · rw [refused]
    exact nested.congr rfl
  · have below : dirName ≠ ['/'] := by
      rintro rfl
      exact (transformPath_root parts).elim real inner
    obtain ⟨q, leads', child⟩ := nested.parented dirName dir found below
    obtain rfl := Option.some.inj (leads.symm.trans leads')
    rw [absent] at child
    simp at child
  · have below : dirName ≠ ['/'] := by
      rintro rfl
      exact (transformPath_root parts).elim real inner
    obtain ⟨dirName', parent', dir', parts', search, free, used⟩ := deleteDirectory_slots ok done
    obtain rfl := Except.ok.inj (parts.symm.trans parts')
    obtain rfl := Option.some.inj (dropped.found.symm.trans (findDirectory_ok search).2)
    rw [done]
    exact nested.dropped housed below dropped free used

theorem Nested.renameDirectory {source target : Name} (named : source ≠ []) (settled : ∀ path path',
      DirHandle.transformPath source = .ok path → DirHandle.transformPath target = .ok path' → path' ≠ path →
      ¬s.Shelters path ∧ s.createdDirs.lookup path' = none ∧ getDirName path' ≠ path) :
    Nested (s.renameDirectory env source target).1 := by
  unfold FileSystem.renameDirectory
  generalize s.checkFileExist target true = checked
  obtain ⟨e, absent⟩ := checked
  dsimp only
  have noted : Nested (s.storeErrno e) := nested.congr rfl
  have housed' := (housed.storeErrno e).housed
  have settled' : ∀ path path', DirHandle.transformPath source = .ok path →
      DirHandle.transformPath target = .ok path' → path' ≠ path → ¬(s.storeErrno e).Shelters path ∧
        (s.storeErrno e).createdDirs.lookup path' = none ∧ getDirName path' ≠ path := settled
  generalize s.storeErrno e = u at noted housed' settled'
  split
  · exact noted
  split
  · exact noted.congr rfl
  next mount =>
  split
  · exact noted.congr rfl
  next fromDirName fromParts =>
  split
  · exact noted.congr rfl
  next toDirName toParts =>
  split
  · exact noted.congr rfl
  next oldParent dir search =>
  obtain ⟨leads, found⟩ := findDirectory_ok search
  have inner : fromDirName ≠ ['/'] := by
    rintro rfl
    rcases transformPath_root fromParts with rfl | rfl
    · exact named rfl
    · exact mount (by simp [isMountPoint])
  have kept := directoryRename_freeDhs u env dir toDirName
  rcases directoryRename_cases housed' ok found leads (dirTransformPath_ok fromParts).2 (dirTransformPath_ok toParts).2
    with ⟨_, failed⟩ | ⟨v, newParent, done, moved, retitled⟩
  · rw [failed]
    exact noted.congr rfl
  · rw [done] at kept ⊢
    change Nested v
    refine noted.moved housed' inner (transformPath_ne_nil toParts) ?_ moved kept fun y => ?_
    · by_cases stays : toDirName = fromDirName
      · exact .inl stays
      · exact .inr (settled' _ _ fromParts toParts stays)
    · have unseen (m : DirMeta) : (m.setDirName toDirName).sealed.used = m.used := rfl
      rw [retitled.dirMetas]
      exact view_update u.dirMetas _ y (·.used) (unseen _)

omit housed ok in
/-- A listing refreshes the times of its directory alone. -/
theorem Nested.readDirectory {stream : Nat} {item : Option BlockFsDirent}
    (result : s.readDirectory env stream = .ok (t, item)) : Nested t := by
  have served (u : FileSystem) (there : Nested u) (streams : Map Nat DirStream) : Nested { u with dirStreams := streams } :=
    there.congr rfl
  have stamped (i : Nat) : Nested (s.modifyDirMeta i fun m => { m with mtime := env.now, ctime := env.now }.sealed) := by
    have unseen (m : DirMeta) : { m with mtime := env.now, ctime := env.now }.sealed.used = m.used := rfl
    exact nested.keeps rfl rfl rfl (fun _ => rfl) (fun _ => rfl) fun x => view_update s.dirMetas i x (·.used) (unseen _)
  unfold FileSystem.readDirectory at result
  grind only [Except.bind_eq_ok]

end Directories

section Calls
variable [Crc32] {s t : FileSystem} {env : Env} {op : Op} {r : Int}

omit [Crc32] in
theorem getFd_shelves (s : FileSystem) : s.getFd.1.shelves = s.shelves := shelves_of_beneath (getFd_beneath s)

omit [Crc32] in
theorem openFd_shelves (s : FileSystem) (f : FilePtr) (flags : Nat) : (s.openFd f flags).1.shelves = s.shelves := by
  have drawn := getFd_shelves s
  unfold openFd
  split
  next u fd same =>
  rw [same] at drawn
  exact drawn

theorem openTarget_shelves {path : Name} {flags : Nat} {target : Option FilePtr}
    (result : s.openTarget env path flags = .ok (t, target)) : t.shelves = s.shelves := by
  have created (u : FileSystem) (temp : Bool) (same : u.shelves = s.shelves)
      (done : u.createFile env path temp = (t, target)) : t.shelves = s.shelves := by
    have made : (u.createFile env path temp).1.shelves = u.shelves := createFile_shelves path temp
    rw [done] at made
    exact made.trans same
  cases needed : isNeedCreateTempFile flags with
  | mk e tmpfile =>
    have noted : (s.storeErrno e).shelves = s.shelves := rfl
    cases tmpfile with
    | true =>
      rw [FileSystem.openTarget, needed] at result
      exact created _ true noted (Except.ok.inj result)
    | false =>
      cases directory : s.getCreatedDirectory path with
      | ok dir =>
        rw [openTarget_directory env needed directory] at result
        obtain ⟨rfl, _⟩ := Prod.mk.inj (Except.ok.inj result)
        rfl
      | error e' =>
        rw [openTarget_search env needed directory] at result
        have same : ((s.storeErrno e).storeErrno e').shelves = s.shelves := rfl
        generalize (s.storeErrno e).storeErrno e' = u at result same
        split at result
        · next e'' _ =>
          split at result
          · exact created (u.storeErrno e'') false same (Except.ok.inj result)
          · obtain ⟨rfl, _⟩ := Prod.mk.inj (Except.ok.inj result)
            exact same
        split at result
        · obtain ⟨rfl, _⟩ := Prod.mk.inj (Except.ok.inj result)
          exact same
        split at result
        · obtain ⟨⟨v, q⟩, cut, last⟩ := Except.bind_eq_ok.mp result
          have kept := (shelves_of_outer (ftruncate_outer cut)).trans same
          dsimp only at last
          split at last
          · obtain ⟨rfl, _⟩ := Prod.mk.inj (Except.ok.inj last)
            exact kept
          · obtain ⟨rfl, _⟩ := Prod.mk.inj (Except.ok.inj last)
            exact kept
        · obtain ⟨rfl, _⟩ := Prod.mk.inj (Except.ok.inj result)
          exact same

theorem close_shelves (s : FileSystem) (env : Env) (fd : Nat) : (s.close env fd).1.shelves = s.shelves := by
  have returned (u : FileSystem) (x : Int) : (u.putFd x).shelves = u.shelves := shelves_of_beneath (putFd_beneath u x)
  unfold FileSystem.close
  split
  · rfl
  next o _ =>
  have gone (u : FileSystem) : (u.closeLast env o.file).shelves = u.shelves := shelves_of_outer closeLast_outer
  exact (returned _ _).trans (gone _)

omit [Crc32] in
theorem openDirectory_shelves (s : FileSystem) (path : Name) : (s.openDirectory path).1.shelves = s.shelves := by
  have drawn := getFd_shelves s
  unfold FileSystem.openDirectory
  split
  · rfl
  · rfl
  next dir _ =>
  split
  next u fd taken =>
  rw [taken] at drawn
  split
  · exact drawn
  · exact (shelves_of_beneath (links_beneath u dir _)).trans drawn

theorem pwriteFile_shelves {fd len : Nat} {buffer : Nat → UInt8} {offset : Int}
    (result : s.pwriteFile env fd buffer len offset = .ok (t, r)) : t.shelves = s.shelves := by
  have written (u : FileSystem) (o : OpenFile) (same : u.shelves = s.shelves)
      (done : (u.stamped env o.file).writeData fd o buffer len (toU64 offset) = .ok (t, r)) : t.shelves = s.shelves := by
    have stamped : (u.stamped env o.file).shelves = u.shelves := by
      unfold FileSystem.stamped
      split <;> rfl
    rw [← same, ← stamped]
    unfold FileSystem.writeData at done
    split at done
    · simp at done
    obtain ⟨blocks, _, rest⟩ := Except.bind_eq_ok.mp done
    obtain ⟨⟨d, n⟩, moved, last⟩ := Except.bind_eq_ok.mp rest
    obtain ⟨rfl, _⟩ := Prod.mk.inj (Except.ok.inj last)
    rfl
  unfold FileSystem.pwriteFile at result
  split at result
  · obtain ⟨rfl, _⟩ := Prod.mk.inj (Except.ok.inj result)
    rfl
  next o _ =>
  dsimp only [pwrite] at result
  split at result
  · obtain ⟨rfl, _⟩ := Prod.mk.inj (Except.ok.inj result)
    rfl
  split at result
  · obtain ⟨⟨u, q⟩, grown, last⟩ := Except.bind_eq_ok.mp result
    have kept := shelves_of_outer (ftruncate_outer grown)
    dsimp only at last
    split at last
    · obtain ⟨rfl, _⟩ := Prod.mk.inj (Except.ok.inj last)
      exact kept
    · exact written u o kept last
  · rw [Except.ok_bind] at result
    dsimp only at result
    rw [if_neg (by decide)] at result
    exact written s o rfl result

variable (nested : Nested s) (housed : Housed s) (ok : env.IoOk)
include nested housed ok

theorem Nested.renamePath {oldpath newpath : Name} (stays : ¬s.Uproots (.rename oldpath newpath)) :
    Nested (s.renamePath env oldpath newpath).1 := by
  unfold FileSystem.renamePath
  split
  · exact nested.congr rfl
  next named =>
  split
  · exact nested
  next e _ =>
  dsimp only
  split
  · next f _ => exact (nested.congr rfl).congr (shelves_of_outer (fileRename_outer newpath))
  next e' absent =>
  split
  · exact nested.congr rfl
  · have noted : Nested ((s.storeErrno e).storeErrno e') := nested.congr rfl
    refine noted.renameDirectory ((housed.storeErrno e).housed.storeErrno e').housed ok (fun none => ?_)
      fun path path' source target away => ?_
    · rw [none] at named
      simp at named
    have missing (f : FilePtr) (found : s.getCreatedFile oldpath = .ok f) : False := by
      have same : (s.storeErrno e).getCreatedFile oldpath = .ok f := found
      rw [absent] at same
      simp at same
    by_contra unsettled
    refine stays ⟨missing, path, path', source, target, away, ?_⟩
    by_cases bare : s.Shelters path
    · exact .inl bare
    by_cases taken : s.createdDirs.lookup path' = none
    · right; right
      by_contra outside
      exact unsettled ⟨bare, taken, outside⟩
    · exact .inr (.inl (Option.isSome_iff_ne_none.mpr taken))

/-- Every call that uproots no directory keeps the tree. -/
theorem Nested.call (stays : ¬s.Uproots op) (result : s.call env op = .ok (t, r)) : Nested t := by
  cases op with
  | createFile path =>
    obtain rfl : (s.createFilePath env path).1 = t := congrArg Prod.fst (Except.ok.inj result)
    refine nested.congr ?_
    have made : (s.createFile env path false).1.shelves = s.shelves := createFile_shelves path false
    unfold createFilePath
    split <;> next same =>
      rw [same] at made
      exact made
  | openFile path flags =>
    obtain ⟨⟨u, target⟩, first, last⟩ := Except.bind_eq_ok.mp result
    have found := openTarget_shelves first
    cases target with
    | none =>
      obtain ⟨rfl, _⟩ := Prod.mk.inj (Except.ok.inj last)
      exact nested.congr found
    | some f =>
      obtain rfl : (u.openFd f flags).1 = t := congrArg Prod.fst (Except.ok.inj last)
      exact nested.congr ((openFd_shelves u f flags).trans found)
  | close fd =>
    obtain rfl : (s.close env fd).1 = t := congrArg Prod.fst (Except.ok.inj result)
    exact nested.congr (close_shelves s env fd)
  | dup oldfd =>
    obtain rfl : (s.dup oldfd).1 = t := congrArg Prod.fst (Except.ok.inj result)
    unfold dup
    split
    · exact nested.congr rfl
    · exact nested.congr (openFd_shelves s _ 0)
  | unlink path =>
    obtain rfl : (s.unlink env path).1 = t := congrArg Prod.fst (Except.ok.inj result)
    exact nested.congr (shelves_of_outer (unlink_outer path))
  | rename oldpath newpath =>
    obtain rfl : (s.renamePath env oldpath newpath).1 = t := congrArg Prod.fst (Except.ok.inj result)
    exact nested.renamePath housed ok stays
  | truncatePath path size =>
    have cut : s.truncatePath env path size = .ok (t, r) := result
    unfold truncatePath at cut
    split at cut
    · obtain ⟨rfl, _⟩ := Prod.mk.inj (Except.ok.inj cut)
      exact nested.congr rfl
    · exact nested.congr (shelves_of_outer (ftruncate_outer cut))
  | truncateFd fd size =>
    have cut : s.truncateFd env fd size = .ok (t, r) := result
    unfold truncateFd at cut
    split at cut
    · obtain ⟨rfl, _⟩ := Prod.mk.inj (Except.ok.inj cut)
      exact nested.congr rfl
    · exact nested.congr (shelves_of_outer (ftruncate_outer cut))
  | pwrite fd buffer len offset => exact nested.congr (pwriteFile_shelves result)
  | pread fd len offset =>
    obtain ⟨⟨u, back, n⟩, ran, last⟩ := Except.bind_eq_ok.mp result
    obtain ⟨rfl, _⟩ := Prod.mk.inj (Except.ok.inj last)
    unfold preadFile at ran
    split at ran
    · obtain ⟨rfl, _⟩ := Prod.mk.inj (Except.ok.inj ran)
      exact nested.congr rfl
    · rcases pread_cases ran with rfl | ⟨ret, rfl⟩
      · exact nested
      · exact nested.congr rfl
  | read fd len =>
    obtain ⟨⟨u, back, n⟩, ran, last⟩ := Except.bind_eq_ok.mp result
    obtain ⟨rfl, _⟩ := Prod.mk.inj (Except.ok.inj last)
    unfold readFile at ran
    split at ran
    · obtain ⟨rfl, _⟩ := Prod.mk.inj (Except.ok.inj ran)
      exact nested.congr rfl
    · rcases pread_cases ran with rfl | ⟨ret, rfl⟩
      · exact nested
      · exact nested.congr rfl
  | seek fd offset whence =>
    obtain rfl : (s.seekFile fd offset whence).1 = t := congrArg Prod.fst (Except.ok.inj result)
    refine nested.congr ?_
    unfold seekFile
    split
    · rfl
    · cases whence <;> rfl
  | fcntl fd lockType =>
    obtain rfl : (s.fcntlFile fd lockType).1 = t := congrArg Prod.fst (Except.ok.inj result)
    refine nested.congr ?_
    unfold fcntlFile
    split
    · rfl
    · cases lockType <;> dsimp only <;> split <;> rfl
  | mkdir path => exact nested.createDirectory housed ok result
  | rmdir path =>
    obtain rfl : (s.deleteDirectory env path).1 = t := congrArg Prod.fst (Except.ok.inj result)
    exact nested.deleteDirectory housed ok stays
  | opendir path =>
    have opened := openDirectory_shelves s path
    simp only [FileSystem.call] at result
    generalize s.openDirectory path = taken at opened result
    obtain ⟨u, stream⟩ := taken
    cases stream with
    | none =>
      obtain ⟨rfl, _⟩ := Prod.mk.inj (Except.ok.inj result)
      exact nested.congr opened
    | some stream =>
      obtain ⟨rfl, _⟩ := Prod.mk.inj (Except.ok.inj result)
      exact nested.congr opened
  | readdir stream =>
    obtain ⟨⟨u, item⟩, ran, last⟩ := Except.bind_eq_ok.mp result
    obtain ⟨rfl, _⟩ := Prod.mk.inj (Except.ok.inj last)
    exact nested.readDirectory ran
  | closedir stream =>
    obtain rfl : (s.closeDirectory stream).1 = t := congrArg Prod.fst (Except.ok.inj result)
    refine nested.congr ?_
    unfold closeDirectory
    split
    · rfl
    · next d _ =>
      have returned := shelves_of_beneath (putFd_beneath s d.fd)
      exact (shelves_of_beneath (links_beneath _ d.dir _)).trans returned

end Calls

end BlockFs.FileSystem
