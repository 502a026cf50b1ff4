import BlockFs.Quiet

namespace BlockFs.FileSystem

/-- What the directory indices name is a directory object, and no two directories share a slot. Both
indices hold the same directories, each under its own name and its own handle, and a directory holds
its children under their handles. -/
structure Housed (s : FileSystem) : Prop where
  slots : ∀ i, (s.dirMetas i).dh = i
  handles : ∀ x d, s.createdDhs.lookup x = some d →
    d < s.nextDirectory ∧ (s.directories d).metaSlot = x
  paths : ∀ p d, s.createdDirs.lookup p = some d → d < s.nextDirectory
  apart : ∀ d < s.nextDirectory, ∀ d' < s.nextDirectory,
    (s.directories d).metaSlot = (s.directories d').metaSlot → d = d'
  fresh : ∀ d < s.nextDirectory, (s.directories d).metaSlot ∉ s.freeDhs
  nodup : s.freeDhs.Nodup
  named : ∀ p d, s.createdDirs.lookup p = some d →
    (s.dirMeta d).dirName = p ∧ s.createdDhs.lookup (s.directories d).metaSlot = some d
  pathed : ∀ x d, s.createdDhs.lookup x = some d → s.createdDirs.lookup (s.dirMeta d).dirName = some d
  children : ∀ d < s.nextDirectory, ∀ x c, (s.directories d).childDirMaps.lookup x = some c →
    c < s.nextDirectory ∧ (s.directories c).metaSlot = x

theorem Housed.dirMeta_dh {s : FileSystem} (housed : Housed s) (d : DirectoryPtr) :
    (s.dirMeta d).dh = (s.directories d).metaSlot := housed.slots _

/-- The directories are still there and list the same files; some may have been added. -/
structure Resettled (s s' : FileSystem) : Prop where
  housed : Housed s'
  more : s.nextDirectory ≤ s'.nextDirectory
  metaSlot : ∀ d < s.nextDirectory, (s'.directories d).metaSlot = (s.directories d).metaSlot
  itemMaps : ∀ d < s.nextDirectory, (s'.directories d).itemMaps = (s.directories d).itemMaps
  added : ∀ d, s.nextDirectory ≤ d → d < s'.nextDirectory → (s'.directories d).itemMaps = ∅

theorem Resettled.refl {s : FileSystem} (housed : Housed s) : Resettled s s :=
  ⟨housed, le_refl _, fun _ _ => rfl, fun _ _ => rfl, fun _ new bound => by omega⟩

theorem Resettled.trans {s₁ s₂ s₃ : FileSystem} (first : Resettled s₁ s₂)
    (second : Resettled s₂ s₃) : Resettled s₁ s₃ where
  housed := second.housed
  more := first.more.trans second.more
  metaSlot d bound :=
    (second.metaSlot d (bound.trans_le first.more)).trans (first.metaSlot d bound)
  itemMaps d bound :=
    (second.itemMaps d (bound.trans_le first.more)).trans (first.itemMaps d bound)
  added d new bound := by
    by_cases early : d < s₂.nextDirectory
    · exact (second.itemMaps d early).trans (first.added d new early)
    · exact second.added d (not_lt.mp early) bound

/-- The directories after a change that only touches times, names, link counts and child
directories, and that indexes no directory that was not there. -/
theorem Housed.resettled {s s' : FileSystem} (housed : Housed s)
    (dh : ∀ i, (s'.dirMetas i).dh = (s.dirMetas i).dh) (freeDhs : s'.freeDhs = s.freeDhs)
    (nextDirectory : s'.nextDirectory = s.nextDirectory)
    (metaSlot : ∀ d, (s'.directories d).metaSlot = (s.directories d).metaSlot)
    (itemMaps : ∀ d, (s'.directories d).itemMaps = (s.directories d).itemMaps)
    (handles : ∀ x d, s'.createdDhs.lookup x = some d → s.createdDhs.lookup x = some d ∨
      (d < s.nextDirectory ∧ (s.directories d).metaSlot = x))
    (paths : ∀ p d, s'.createdDirs.lookup p = some d → s.createdDirs.lookup p = some d ∨
      d < s.nextDirectory)
    (named : ∀ p d, s'.createdDirs.lookup p = some d →
      (s'.dirMeta d).dirName = p ∧ s'.createdDhs.lookup (s.directories d).metaSlot = some d)
    (pathed : ∀ x d, s'.createdDhs.lookup x = some d →
      s'.createdDirs.lookup (s'.dirMeta d).dirName = some d)
    (children : ∀ d < s.nextDirectory, ∀ x c, (s'.directories d).childDirMaps.lookup x = some c →
      (s.directories d).childDirMaps.lookup x = some c ∨
        (c < s.nextDirectory ∧ (s.directories c).metaSlot = x)) : Resettled s s' where
  housed :=
    { slots := fun i => (dh i).trans (housed.slots i)
      handles := fun x d found => by
        rw [nextDirectory, metaSlot]
        exact (handles x d found).elim (housed.handles x d) id
      paths := fun p d found => by
        rw [nextDirectory]
        exact (paths p d found).elim (housed.paths p d) id
      apart := fun d bound d' bound' same => by
        rw [nextDirectory] at bound bound'
        rw [metaSlot, metaSlot] at same
        exact housed.apart d bound d' bound' same
      fresh := fun d bound => by
        rw [nextDirectory] at bound
        rw [metaSlot, freeDhs]
        exact housed.fresh d bound
      nodup := freeDhs ▸ housed.nodup
      named := fun p d found => by
        rw [metaSlot]
        exact named p d found
      pathed := pathed
      children := fun d bound x c found => by
        rw [nextDirectory] at bound ⊢
        rw [metaSlot]
        exact (children d bound x c found).elim (housed.children d bound x c) id }
  more := nextDirectory.ge
  metaSlot d _ := metaSlot d
  itemMaps d _ := itemMaps d
  added d new bound := absurd (nextDirectory ▸ bound) (not_lt.mpr new)

theorem Housed.of_dirSide {s s' : FileSystem} (housed : Housed s) (same : s'.dirSide = s.dirSide) :
    Resettled s s' := by
  simp only [dirSide, DirSide.mk.injEq] at same
  obtain ⟨metas, free, directories, next, dirs, dhs⟩ := same
  have slot (d : DirectoryPtr) : s'.dirMeta d = s.dirMeta d := by
    rw [dirMeta, dirMeta, directories, metas]
  exact housed.resettled (fun _ => by rw [metas]) free next (fun _ => by rw [directories])
    (fun _ => by rw [directories]) (fun _ _ found => .inl (dhs ▸ found))
    (fun _ _ found => .inl (dirs ▸ found))
    (fun p d found => by rw [slot, dhs]; exact housed.named p d (dirs ▸ found))
    (fun x d found => by rw [slot, dirs]; exact housed.pathed x d (dhs ▸ found))
    fun d _ x c found => .inl (directories ▸ found)

theorem erase_of_lookup_none {κ ν : Type} [DecidableEq κ] {k : κ} {m : Map κ ν}
    (absent : m.lookup k = none) : m.erase k = m := by
  apply AList.ext
  exact List.kerase_of_notMem_keys (AList.lookup_eq_none.mp absent)

theorem lookup_of_erase {κ ν : Type} [DecidableEq κ] {m : Map κ ν} {k k' : κ} {v : ν}
    (found : (m.erase k).lookup k' = some v) : m.lookup k' = some v ∧ k' ≠ k := by
  by_cases same : k' = k
  · rw [same, AList.lookup_erase] at found
    simp at found
  · exact ⟨by rwa [AList.lookup_erase_ne same] at found, same⟩

theorem lookup_of_insert {κ ν : Type} [DecidableEq κ] {m : Map κ ν} {k k' : κ} {v v' : ν}
    (found : (m.insert k v).lookup k' = some v') :
    (k' = k ∧ v' = v) ∨ (k' ≠ k ∧ m.lookup k' = some v') := by
  by_cases same : k' = k
  · rw [same, AList.lookup_insert] at found
    exact .inl ⟨same, (Option.some.inj found).symm⟩
  · exact .inr ⟨same, by rwa [AList.lookup_insert_ne same] at found⟩

/-- The directory `d` lists a file in the slot `x`. -/
def Lists (s : FileSystem) (d : DirectoryPtr) (x : Nat) : Prop :=
  ((s.directories d).itemMaps.lookup x).isSome

/-- The directories once `dir` lists the file `f` in the slot `x`, unless it lists a file there. -/
def enlisted (dirs : Nat → Directory) (dir : DirectoryPtr) (x : Nat) (f : FilePtr) : Nat → Directory :=
  if ((dirs dir).itemMaps.lookup x).isSome then dirs
  else Function.update dirs dir { dirs dir with itemMaps := (dirs dir).itemMaps.insert x f }

/-- The directories once `dir` lists nothing in the slot `x`. -/
def delisted (dirs : Nat → Directory) (dir : DirectoryPtr) (x : Nat) : Nat → Directory :=
  Function.update dirs dir { dirs dir with itemMaps := (dirs dir).itemMaps.erase x }

theorem addChildFile_directories (s : FileSystem) (dir : DirectoryPtr) (f : FilePtr) :
    (s.addChildFile dir f).1.directories = enlisted s.directories dir (s.fileMeta f).fh f := by
  unfold addChildFile enlisted
  split <;> rfl

theorem removeChildFile_directories (s : FileSystem) (dir : DirectoryPtr) (f : FilePtr) :
    (s.removeChildFile dir f).1.directories = delisted s.directories dir (s.fileMeta f).fh := by
  unfold removeChildFile
  split
  · next absent =>
    rw [delisted, erase_of_lookup_none (Option.isNone_iff_eq_none.mp absent)]
    exact (Function.update_eq_self dir s.directories).symm
  · rfl

/-- What a directory lists is what it listed before, or the file entered last. -/
theorem lookup_enlisted {dirs : Nat → Directory} {dir d : DirectoryPtr} {x y : Nat} {f g : FilePtr}
    (found : (enlisted dirs dir x f d).itemMaps.lookup y = some g) :
    (dirs d).itemMaps.lookup y = some g ∨ d = dir ∧ y = x ∧ g = f := by
  unfold enlisted at found
  split at found
  · exact .inl found
  · by_cases here : d = dir
    · subst here
      rw [Function.update_self] at found
      rcases lookup_of_insert found with ⟨slot, same⟩ | ⟨_, found⟩
      · exact .inr ⟨rfl, slot, same⟩
      · exact .inl found
    · rw [Function.update_of_ne here] at found
      exact .inl found

theorem lookup_delisted {dirs : Nat → Directory} {dir d : DirectoryPtr} {x y : Nat} {g : FilePtr}
    (found : (delisted dirs dir x d).itemMaps.lookup y = some g) :
    (dirs d).itemMaps.lookup y = some g ∧ ¬(d = dir ∧ y = x) := by
  unfold delisted at found
  by_cases here : d = dir
  · subst here
    rw [Function.update_self] at found
    obtain ⟨there, apart⟩ := lookup_of_erase found
    exact ⟨there, fun both => apart both.2⟩
  · rw [Function.update_of_ne here] at found
    exact ⟨found, fun both => here both.1⟩

/-- A change of the files directories list, by which at most the listings of the slot `x` go. -/
structure Relisted (s s' : FileSystem) (x : Nat) : Prop where
  rest : { s'.dirSide with directories := s.directories } = s.dirSide
  metaSlot : ∀ d, (s'.directories d).metaSlot = (s.directories d).metaSlot
  childDirMaps : ∀ d, (s'.directories d).childDirMaps = (s.directories d).childDirMaps
  kept : ∀ d y, y ≠ x → s.Lists d y → s'.Lists d y

section Relisting
variable {s s' s'' : FileSystem} {x : Nat}

theorem Relisted.of_dirSide (same : s'.dirSide = s.dirSide) (x : Nat) : Relisted s s' x where
  rest := by rw [same]; rfl
  metaSlot d := by rw [show s'.directories = s.directories from congrArg DirSide.directories same]
  childDirMaps d := by
    rw [show s'.directories = s.directories from congrArg DirSide.directories same]
  kept d y _ listed := by
    rw [Lists, show s'.directories = s.directories from congrArg DirSide.directories same]
    exact listed

theorem Relisted.trans (first : Relisted s s' x) (second : Relisted s' s'' x) : Relisted s s'' x where
  rest := (congrArg (fun side : DirSide => { side with directories := s.directories })
    second.rest).trans first.rest
  metaSlot d := (second.metaSlot d).trans (first.metaSlot d)
  childDirMaps d := (second.childDirMaps d).trans (first.childDirMaps d)
  kept d y apart listed := second.kept d y apart (first.kept d y apart listed)

theorem addChildFile_relisted (s : FileSystem) (dir : DirectoryPtr) (f : FilePtr) (x : Nat) :
    Relisted s (s.addChildFile dir f).1 x := by
  unfold addChildFile
  split
  · exact .of_dirSide rfl x
  · refine ⟨rfl, fun d => view_update s.directories dir d (·.metaSlot) rfl,
      fun d => view_update s.directories dir d (·.childDirMaps) rfl, fun d y _ listed => ?_⟩
    simp only [Lists, modifyDirectory, Function.update_apply]
    split
    · next here =>
      rw [Lists, here] at listed
      by_cases same : y = (s.fileMeta f).fh
      · rw [same, AList.lookup_insert]
        rfl
      · rwa [AList.lookup_insert_ne same]
    · exact listed

theorem addChildFile_lists (s : FileSystem) (dir : DirectoryPtr) (f : FilePtr) :
    (s.addChildFile dir f).1.Lists dir (s.fileMeta f).fh := by
  unfold addChildFile
  split
  · next there => exact there
  · simp only [Lists, modifyDirectory, Function.update_self, AList.lookup_insert, Option.isSome_some]

theorem removeChildFile_relisted (s : FileSystem) (dir : DirectoryPtr) (f : FilePtr) :
    Relisted s (s.removeChildFile dir f).1 (s.fileMeta f).fh := by
  unfold removeChildFile
  split
  · exact .of_dirSide rfl _
  · refine ⟨rfl, fun d => view_update s.directories dir d (·.metaSlot) rfl,
      fun d => view_update s.directories dir d (·.childDirMaps) rfl, fun d y apart listed => ?_⟩
    simp only [Lists, modifyDirectory, Function.update_apply]
    split
    · next here =>
      rw [Lists, here] at listed
      rwa [AList.lookup_erase_ne apart]
    · exact listed

theorem Relisted.housed (relisted : Relisted s s' x) (housed : Housed s) : Housed s' := by
  have metas : s'.dirMetas = s.dirMetas := congrArg DirSide.dirMetas relisted.rest
  have free : s'.freeDhs = s.freeDhs := congrArg DirSide.freeDhs relisted.rest
  have next : s'.nextDirectory = s.nextDirectory := congrArg DirSide.nextDirectory relisted.rest
  have dirs : s'.createdDirs = s.createdDirs := congrArg DirSide.createdDirs relisted.rest
  have dhs : s'.createdDhs = s.createdDhs := congrArg DirSide.createdDhs relisted.rest
  exact
    { slots := fun i => by rw [metas]; exact housed.slots i
      handles := fun y d found => by
        rw [next, relisted.metaSlot]
        exact housed.handles y d (dhs ▸ found)
      paths := fun p d found => by
        rw [next]
        exact housed.paths p d (dirs ▸ found)
      apart := fun d bound d' bound' same => by
        rw [next] at bound bound'
        rw [relisted.metaSlot, relisted.metaSlot] at same
        exact housed.apart d bound d' bound' same
      fresh := fun d bound => by
        rw [next] at bound
        rw [relisted.metaSlot, free]
        exact housed.fresh d bound
      nodup := free ▸ housed.nodup
      named := fun p d found => by
        rw [dirMeta, relisted.metaSlot, metas, dhs]
        exact housed.named p d (dirs ▸ found)
      pathed := fun x d found => by
        rw [dirMeta, relisted.metaSlot, metas, dirs]
        exact housed.pathed x d (dhs ▸ found)
      children := fun d bound x c found => by
        rw [next] at bound ⊢
        rw [relisted.childDirMaps] at found
        rw [relisted.metaSlot]
        exact housed.children d bound x c found }

/-- A directory that some path leads to. -/
def Leads (s : FileSystem) (d : DirectoryPtr) : Prop := ∃ path, s.createdDirs.lookup path = some d

theorem getCreatedDirectory_ok {dirname : Name} {dir : DirectoryPtr}
    (found : s.getCreatedDirectory dirname = .ok dir) : s.Leads dir := by
  unfold getCreatedDirectory at found
  unfold Leads
  grind only [Except.bind_eq_ok]

theorem getCreatedFile_ok {filename : Name} {f : FilePtr}
    (found : s.getCreatedFile filename = .ok f) :
    ∃ dir name, s.Leads dir ∧ s.createdFiles.lookup ((s.dirMeta dir).dh, name) = some f := by
  have member := @getCreatedDirectory_ok s
  unfold getCreatedFile at found
  grind only [Except.bind_eq_ok]

end Relisting

section Primitives
variable {s : FileSystem} (housed : Housed s)
include housed

/-- A slot changes that keeps its name, or that no directory in the indices has. -/
theorem Housed.modifyDirMeta (i : Nat) (g : DirMeta → DirMeta) (dh : ∀ m, (g m).dh = m.dh)
    (name : (∀ m, (g m).dirName = m.dirName) ∨
      ∀ x d, s.createdDhs.lookup x = some d → (s.directories d).metaSlot ≠ i) :
    Resettled s (s.modifyDirMeta i g) := by
  have kept (x : Nat) (d : DirectoryPtr) (found : s.createdDhs.lookup x = some d) :
      ((s.modifyDirMeta i g).dirMeta d).dirName = (s.dirMeta d).dirName := by
    rcases name with same | unused
    · exact view_update s.dirMetas i (s.directories d).metaSlot (·.dirName) (same _)
    · exact congrArg DirMeta.dirName (Function.update_of_ne (unused x d found) _ _)
  refine housed.resettled (fun j => view_update s.dirMetas i j (·.dh) (dh _)) rfl rfl (fun _ => rfl)
    (fun _ => rfl) (fun _ _ => .inl) (fun _ _ => .inl) (fun p d found => ?_) (fun x d found => ?_)
    fun _ _ _ _ => .inl
  · obtain ⟨own, entry⟩ := housed.named p d found
    exact ⟨(kept _ d entry).trans own, entry⟩
  · rw [kept x d found]
    exact housed.pathed x d found

theorem Housed.modifyDirectory (d : DirectoryPtr) (g : Directory → Directory)
    (metaSlot : ∀ o, (g o).metaSlot = o.metaSlot) (itemMaps : ∀ o, (g o).itemMaps = o.itemMaps)
    (children : ∀ x c, (g (s.directories d)).childDirMaps.lookup x = some c →
      (s.directories d).childDirMaps.lookup x = some c ∨
        (c < s.nextDirectory ∧ (s.directories c).metaSlot = x)) :
    Resettled s (s.modifyDirectory d g) := by
  have slot (e : DirectoryPtr) : (s.modifyDirectory d g).dirMeta e = s.dirMeta e :=
    congrArg s.dirMetas (view_update s.directories d e (·.metaSlot) (metaSlot _))
  refine housed.resettled (fun _ => rfl) rfl rfl
    (fun e => view_update s.directories d e (·.metaSlot) (metaSlot _))
    (fun e => view_update s.directories d e (·.itemMaps) (itemMaps _)) (fun _ _ => .inl)
    (fun _ _ => .inl) (fun p e found => ?_) (fun x e found => ?_) fun e _ x c found => ?_
  · rw [slot]
    exact housed.named p e found
  · rw [slot]
    exact housed.pathed x e found
  · simp only [FileSystem.modifyDirectory, Function.update_apply] at found
    split at found
    · next here => exact here ▸ children x c found
    · exact .inl found

theorem Housed.addChildDirectory (parent : DirectoryPtr) {child : DirectoryPtr}
    (bound : child < s.nextDirectory) : Resettled s (s.addChildDirectory parent child).1 := by
  unfold FileSystem.addChildDirectory
  split
  · exact .refl housed
  · refine housed.modifyDirectory parent (fun d => { d with
      childDirMaps := d.childDirMaps.insert (s.dirMeta child).dh child }) (fun _ => rfl)
      (fun _ => rfl) fun x c found => ?_
    rcases lookup_of_insert found with ⟨rfl, rfl⟩ | ⟨_, there⟩
    · exact .inr ⟨bound, (housed.dirMeta_dh _).symm⟩
    · exact .inl there

theorem Housed.removChildDirectory (parent child : DirectoryPtr) :
    Resettled s (s.removChildDirectory parent child).1 := by
  unfold FileSystem.removChildDirectory
  split
  · exact .refl housed
  · exact housed.modifyDirectory parent (fun d => { d with
      childDirMaps := d.childDirMaps.erase (s.dirMeta child).dh }) (fun _ => rfl) (fun _ => rfl)
      fun x c found => .inl (lookup_of_erase found).1

theorem Housed.addDirectory2CreateNolock {child : DirectoryPtr} (bound : child < s.nextDirectory) :
    Resettled s (s.addDirectory2CreateNolock child).1 := by
  unfold FileSystem.addDirectory2CreateNolock
  split
  · exact .refl housed
  · next unnamed =>
    split
    · exact .refl housed
    · next unhandled =>
      have own := housed.dirMeta_dh child
      refine housed.resettled (fun _ => rfl) rfl rfl (fun _ => rfl) (fun _ => rfl)
        (fun x d found => ?_) (fun p d found => ?_) (fun p d found => ?_) (fun x d found => ?_)
        fun _ _ _ _ => .inl
      · rcases lookup_of_insert found with ⟨rfl, rfl⟩ | ⟨_, there⟩
        · exact .inr ⟨bound, own.symm⟩
        · exact .inl there
      · rcases lookup_of_insert found with ⟨rfl, rfl⟩ | ⟨_, there⟩
        · exact .inr bound
        · exact .inl there
      · rcases lookup_of_insert found with ⟨rfl, rfl⟩ | ⟨_, there⟩
        · exact ⟨rfl, by rw [← own]; exact AList.lookup_insert _⟩
        · obtain ⟨name, entry⟩ := housed.named p d there
          refine ⟨name, ?_⟩
          rw [AList.lookup_insert_ne fun same => ?_]
          · exact entry
          · rw [same] at entry
            simp [entry] at unhandled
      · rcases lookup_of_insert found with ⟨rfl, rfl⟩ | ⟨_, there⟩
        · exact AList.lookup_insert _
        · have entry := housed.pathed x d there
          have apart : (s.dirMeta d).dirName ≠ (s.dirMeta child).dirName := fun same => by
            rw [same] at entry
            simp [entry] at unnamed
          exact (AList.lookup_insert_ne apart).trans entry

/-- A directory that its name leads to leaves both indices. -/
theorem Housed.removeDirectoryFromCreateNolock {child : DirectoryPtr}
    (named : s.createdDirs.lookup (s.dirMeta child).dirName = some child) :
    s.removeDirectoryFromCreateNolock child =
        ({ s with
            createdDirs := s.createdDirs.erase (s.dirMeta child).dirName
            createdDhs := s.createdDhs.erase (s.directories child).metaSlot }, true) ∧
      Resettled s (s.removeDirectoryFromCreateNolock child).1 := by
  have own := housed.dirMeta_dh child
  have entry := (housed.named _ child named).2
  have result : s.removeDirectoryFromCreateNolock child =
      ({ s with
          createdDirs := s.createdDirs.erase (s.dirMeta child).dirName
          createdDhs := s.createdDhs.erase (s.directories child).metaSlot }, true) := by
    rw [FileSystem.removeDirectoryFromCreateNolock, named, if_neg (by simp)]
    change (if (s.createdDhs.lookup (s.dirMeta child).dh).isNone then _ else
      ({ s with
          createdDirs := s.createdDirs.erase (s.dirMeta child).dirName
          createdDhs := s.createdDhs.erase (s.dirMeta child).dh }, true)) = _
    rw [own, entry, if_neg (by simp)]
  refine ⟨result, ?_⟩
  rw [result]
  refine housed.resettled (fun _ => rfl) rfl rfl (fun _ => rfl) (fun _ => rfl)
    (fun x d found => .inl (lookup_of_erase found).1)
    (fun p d found => .inl (lookup_of_erase found).1) (fun p d found => ?_) (fun x d found => ?_)
    fun _ _ _ _ => .inl
  · obtain ⟨there, apart⟩ := lookup_of_erase found
    obtain ⟨name, entry'⟩ := housed.named p d there
    refine ⟨name, ?_⟩
    rw [AList.lookup_erase_ne fun same => ?_]
    · exact entry'
    · rw [same, entry] at entry'
      obtain rfl := Option.some.inj entry'
      exact apart name.symm
  · obtain ⟨there, apart⟩ := lookup_of_erase found
    have name := housed.pathed x d there
    have other : (s.dirMeta d).dirName ≠ (s.dirMeta child).dirName := fun same => by
      rw [same, named] at name
      obtain rfl := Option.some.inj name
      exact apart (housed.handles x _ there).2.symm
    exact (AList.lookup_erase_ne other).trans name

/-- A new directory gets a slot that no directory has. -/
theorem Housed.settled {s' : FileSystem} {x : Nat} {rest : List Nat} {o : Directory}
    (free : s.freeDhs = x :: rest) (slot : o.metaSlot = x) (items : o.itemMaps = ∅)
    (none : o.childDirMaps = ∅) (dh : ∀ i, (s'.dirMetas i).dh = i)
    (names : ∀ i, i ≠ x → (s'.dirMetas i).dirName = (s.dirMetas i).dirName)
    (freeDhs : s'.freeDhs = rest) (nextDirectory : s'.nextDirectory = s.nextDirectory + 1)
    (directories : s'.directories = Function.update s.directories s.nextDirectory o)
    (handles : s'.createdDhs = s.createdDhs) (paths : s'.createdDirs = s.createdDirs) :
    Resettled s s' := by
  have head : x ∈ s.freeDhs := by simp [free]
  have nodup := housed.nodup
  rw [free, List.nodup_cons] at nodup
  have old (d : DirectoryPtr) (bound : d < s.nextDirectory) : s'.directories d = s.directories d := by
    rw [directories, Function.update_of_ne (Nat.ne_of_lt bound)]
  have new : (s'.directories s.nextDirectory).metaSlot = x := by
    rw [directories, Function.update_self, slot]
  have among (d : DirectoryPtr) (bound : d < s'.nextDirectory) :
      d = s.nextDirectory ∨ d < s.nextDirectory := by
    rw [nextDirectory] at bound
    exact (Nat.lt_succ_iff_lt_or_eq.mp bound).symm
  have older (d : DirectoryPtr) (bound : d < s.nextDirectory) : d < s'.nextDirectory := by
    rw [nextDirectory]
    exact Nat.lt_succ_of_lt bound
  have name (d : DirectoryPtr) (bound : d < s.nextDirectory) :
      (s'.dirMeta d).dirName = (s.dirMeta d).dirName := by
    rw [dirMeta, dirMeta, old d bound]
    exact names _ fun same => housed.fresh d bound (same ▸ head)
  refine ⟨?_, by omega, fun d bound => by rw [old d bound], fun d bound => by rw [old d bound],
    fun d added bound => ?_⟩
  rotate_left
  · obtain rfl : d = s.nextDirectory := (among d bound).resolve_right (not_lt.mpr added)
    rw [directories, Function.update_self, items]
  exact
    { slots := dh
      handles := fun y d found => by
        obtain ⟨bound, slot⟩ := housed.handles y d (handles ▸ found)
        exact ⟨older d bound, by rw [old d bound, slot]⟩
      paths := fun p d found => older d (housed.paths p d (paths ▸ found))
      apart := fun d bound d' bound' same => by
        rcases among d bound with rfl | was <;> rcases among d' bound' with rfl | was'
        · rfl
        · rw [new, old d' was'] at same
          exact absurd (same ▸ head) (housed.fresh d' was')
        · rw [new, old d was] at same
          exact absurd (same ▸ head) (housed.fresh d was)
        · rw [old d was, old d' was'] at same
          exact housed.apart d was d' was' same
      fresh := fun d bound => by
        rw [freeDhs]
        rcases among d bound with rfl | was
        · rw [new]
          exact nodup.1
        · rw [old d was]
          exact fun member => housed.fresh d was (by rw [free]; exact List.mem_cons_of_mem x member)
      nodup := freeDhs ▸ nodup.2
      named := fun p d found => by
        rw [paths] at found
        rw [name d (housed.paths p d found), old d (housed.paths p d found), handles]
        exact housed.named p d found
      pathed := fun y d found => by
        rw [handles] at found
        rw [name d (housed.handles y d found).1, paths]
        exact housed.pathed y d found
      children := fun d bound y c found => by
        rcases among d bound with rfl | was
        · rw [directories, Function.update_self, none] at found
          simp at found
        · rw [old d was] at found
          obtain ⟨known, child⟩ := housed.children d was y c found
          exact ⟨older c known, by rw [old c known, child]⟩ }

theorem Housed.newFreeDirectoryNolock (env : Env) (dirname : Name) :
    Resettled s (s.newFreeDirectoryNolock env dirname).1 ∧
      ∀ d, (s.newFreeDirectoryNolock env dirname).2 = some d →
        d < (s.newFreeDirectoryNolock env dirname).1.nextDirectory := by
  unfold FileSystem.newFreeDirectoryNolock
  split
  · exact ⟨housed.of_dirSide rfl, by simp⟩
  · next x rest free =>
    split
    · exact ⟨housed.of_dirSide rfl, by simp⟩
    · refine ⟨housed.settled free rfl rfl rfl (fun i => ?_) (fun i apart => ?_) rfl rfl rfl rfl rfl,
        fun d found => ?_⟩
      · simp only [FileSystem.modifyDirMeta, Function.update_apply]
        split
        · next same => exact same.symm
        · exact housed.slots i
      · exact congrArg DirMeta.dirName (Function.update_of_ne apart _ _)
      · obtain rfl := Option.some.inj found
        exact Nat.lt_succ_self _

end Primitives

section Calls
variable [Crc32] {s : FileSystem} (housed : Housed s) (env : Env)
include housed

omit [Crc32] in
theorem Housed.newDirectory (dirname : Name) :
    Resettled s (s.newDirectory env dirname).1 ∧
      ∀ parent d, (s.newDirectory env dirname).2 = some (parent, d) →
        d < (s.newDirectory env dirname).1.nextDirectory := by
  obtain ⟨resettled, bound⟩ := housed.newFreeDirectoryNolock env dirname
  have same (e : Errno) : Resettled s { s with errno := e } := housed.of_dirSide rfl
  unfold FileSystem.newDirectory
  grind only

theorem Housed.writeDirMeta (dh : Nat) : Resettled s (s.writeDirMeta env dh).1 := by
  have sealed := housed.modifyDirMeta dh DirMeta.sealed (fun _ => rfl) (.inl fun _ => rfl)
  refine sealed.trans (sealed.housed.of_dirSide ?_)
  rw [FileSystem.writeDirMeta, pwriteDirect]
  split <;> rfl

omit housed in
/-- Writing a slot changes no index and no name. -/
theorem writeDirMeta_names (s : FileSystem) (dh : Nat) :
    (s.writeDirMeta env dh).1.createdDirs = s.createdDirs ∧
      (s.writeDirMeta env dh).1.directories = s.directories ∧
      ∀ d, ((s.writeDirMeta env dh).1.dirMeta d).dirName = (s.dirMeta d).dirName := by
  have names (d : DirectoryPtr) : ((s.modifyDirMeta dh DirMeta.sealed).dirMeta d).dirName =
      (s.dirMeta d).dirName := view_update s.dirMetas dh (s.directories d).metaSlot (·.dirName) rfl
  rw [FileSystem.writeDirMeta, pwriteDirect]
  split <;> exact ⟨rfl, rfl, names⟩

omit [Crc32] housed in
theorem removChildDirectory_names (s : FileSystem) (parent child : DirectoryPtr) :
    (s.removChildDirectory parent child).1.createdDirs = s.createdDirs ∧
      ∀ d, ((s.removChildDirectory parent child).1.dirMeta d).dirName = (s.dirMeta d).dirName := by
  unfold FileSystem.removChildDirectory
  split
  · exact ⟨rfl, fun _ => rfl⟩
  · refine ⟨rfl, fun d => congrArg (fun slot => (s.dirMetas slot).dirName) ?_⟩
    exact view_update s.directories parent d (·.metaSlot) rfl

theorem Housed.writeDirMetaRetry (dh tries : Nat) :
    Resettled s (writeDirMetaRetry env dh tries s).1 := by
  induction tries generalizing s with
  | zero => exact .refl housed
  | succ tries ih =>
    have first := housed.writeDirMeta env dh
    rw [FileSystem.writeDirMetaRetry]
    split
    · next t written => exact (congrArg Prod.fst written) ▸ first
    · next t failed =>
      rw [failed] at first
      exact first.trans (ih first.housed)

omit [Crc32] in
theorem Housed.addDirectory {parent : Option DirectoryPtr} {child : DirectoryPtr} {s' : FileSystem}
    {added : Bool} (bound : child < s.nextDirectory)
    (result : s.addDirectory parent child = .ok (s', added)) : Resettled s s' := by
  have step (p : DirectoryPtr) := housed.addChildDirectory p bound
  have enter := housed.addDirectory2CreateNolock bound
  unfold FileSystem.addDirectory at result
  split at result
  · split at result <;> simp at result
    next t done => rw [done] at enter; exact result.1 ▸ enter
  · split at result
    · simp at result
    · next p =>
      have first := step p
      split at result
      · next t failed => 
        rw [failed] at first
        simp at result
        exact result.1 ▸ first
      · next t done =>
        rw [done] at first
        have second := first.housed.addDirectory2CreateNolock (bound.trans_le first.more)
        split at result
        · next u done' =>
          rw [done'] at second
          simp at result
          exact result.1 ▸ first.trans second
        · next u failed =>
          rw [failed] at second
          have third := second.housed.removChildDirectory p child
          split at result
          · simp at result
          · next v kept =>
            rw [kept] at third
            simp at result
            exact result.1 ▸ (first.trans second).trans third

omit [Crc32] in
theorem Housed.errno (e : Errno) : Resettled s { s with errno := e } := housed.of_dirSide rfl

omit [Crc32] in
theorem Housed.storeErrno (e : Option Errno) : Resettled s (s.storeErrno e) := housed.of_dirSide rfl

theorem Housed.createDirectory {path : Name} {s' : FileSystem} {r : Int}
    (result : s.createDirectory env path = .ok (s', r)) : Resettled s s' := by
  unfold FileSystem.createDirectory at result
  dsimp only at result
  have stored := housed.storeErrno (s.checkFileExist path true).1
  generalize s.storeErrno (s.checkFileExist path true).1 = s₁ at stored result
  split at result
  · obtain ⟨rfl, _⟩ := Prod.mk.inj (Except.ok.inj result)
    exact stored
  · split at result
    · next e _ =>
      obtain ⟨rfl, _⟩ := Prod.mk.inj (Except.ok.inj result)
      exact stored.trans (stored.housed.storeErrno e)
    · next dirName _ =>
      obtain ⟨made, bound⟩ := stored.housed.newDirectory env dirName
      have made := stored.trans made
      split at result
      · next t none =>
        rw [none] at made
        obtain ⟨rfl, _⟩ := Prod.mk.inj (Except.ok.inj result)
        exact made
      · next t parent dir some_ =>
        rw [some_] at made bound
        have written := made.housed.writeDirMetaRetry env (t.dirMeta dir).dh 3
        split at result
        · next u failed =>
          rw [failed] at written
          obtain ⟨rfl, _⟩ := Prod.mk.inj (Except.ok.inj result)
          exact made.trans written
        · next u done =>
          rw [done] at written
          obtain ⟨⟨v, added⟩, entered, result⟩ := Except.bind_eq_ok.mp result
          have last := written.housed.addDirectory ((bound parent dir rfl).trans_le written.more) entered
          have all := (made.trans written).trans last
          split at result
          · obtain ⟨rfl, _⟩ := Prod.mk.inj (Except.ok.inj result)
            exact all.trans (all.housed.errno 0)
          · obtain ⟨rfl, _⟩ := Prod.mk.inj (Except.ok.inj result)
            exact all

omit [Crc32] in
theorem findDirectory_named {dirname : Name} {parent dir : DirectoryPtr}
    (found : s.findDirectory dirname = .ok (parent, dir)) :
    s.createdDirs.lookup (s.dirMeta dir).dirName = some dir := by
  unfold findDirectory at found
  split at found
  · simp at found
  · split at found
    · simp at found
    · next there =>
      obtain ⟨_, rfl⟩ := Prod.mk.inj (Except.ok.inj found)
      rw [(housed.named _ _ there).1]
      exact there

theorem Housed.deleteDirectory (path : Name) : Resettled s (s.deleteDirectory env path).1 := by
  unfold FileSystem.deleteDirectory
  dsimp only
  have stored := housed.storeErrno (s.checkFileExist path false).1
  generalize s.storeErrno (s.checkFileExist path false).1 = s₁ at stored ⊢
  split
  · exact stored
  · split
    · next e _ => exact stored.trans (stored.housed.storeErrno e)
    · next dirName _ =>
      split
      · exact stored.trans (stored.housed.errno _)
      · split
        · next e _ => exact stored.trans (stored.housed.storeErrno e)
        · next parent dir found =>
          have here := findDirectory_named stored.housed found
          split
          · exact stored.trans (stored.housed.errno _)
          · split
            · exact stored.trans (stored.housed.errno _)
            · have cleared := stored.trans (stored.housed.modifyDirMeta
                (s₁.directories dir).metaSlot (fun m => m.clear.sealed) (fun _ => rfl)
                (.inl fun _ => rfl))
              have name : ((s₁.modifyDirMeta (s₁.directories dir).metaSlot
                  fun m => m.clear.sealed).dirMeta dir).dirName = (s₁.dirMeta dir).dirName :=
                view_update s₁.dirMetas _ _ (·.dirName) rfl
              rw [← name] at here
              replace here : (s₁.modifyDirMeta (s₁.directories dir).metaSlot
                fun m => m.clear.sealed).createdDirs.lookup _ = some dir := here
              generalize s₁.modifyDirMeta (s₁.directories dir).metaSlot (fun m => m.clear.sealed) = s₂
                at cleared here ⊢
              have written := cleared.trans (cleared.housed.writeDirMeta env (s₂.dirMeta dir).dh)
              obtain ⟨dirs, _, names⟩ := writeDirMeta_names env s₂ (s₂.dirMeta dir).dh
              rw [← dirs, ← names] at here
              split
              · next t failed => exact (congrArg Prod.fst failed) ▸ written
              · next t done =>
                rw [done] at written here
                have left := written.trans (written.housed.removChildDirectory parent dir)
                obtain ⟨dirs, names⟩ := removChildDirectory_names t parent dir
                rw [← dirs, ← names] at here
                split
                · next u failed => exact (congrArg Prod.fst failed) ▸ left
                · next u done' =>
                  rw [done'] at left here
                  have gone := left.trans (left.housed.removeDirectoryFromCreateNolock here).2
                  split
                  · next v failed => exact (congrArg Prod.fst failed) ▸ gone
                  · next v done'' =>
                    rw [done''] at gone
                    exact gone.trans (gone.housed.errno 0)

theorem Housed.directoryRename {dir : DirectoryPtr}
    (here : s.createdDirs.lookup (s.dirMeta dir).dirName = some dir) (target : Name) :
    Resettled s (s.directoryRename env dir target).1 := by
  have bound := housed.paths _ _ here
  have entry := (housed.named _ _ here).2
  unfold FileSystem.directoryRename
  split
  · next e _ => exact housed.storeErrno e
  · next newParent _ =>
    split
    · next e _ => exact housed.storeErrno e
    · next oldParent _ =>
      have left := housed.removChildDirectory oldParent dir
      obtain ⟨dirs, names⟩ := removChildDirectory_names s oldParent dir
      rw [← dirs, ← names] at here
      dsimp only
      generalize (s.removChildDirectory oldParent dir).1 = s₁ at left here ⊢
      obtain ⟨result, gone⟩ := left.housed.removeDirectoryFromCreateNolock here
      have gone := left.trans gone
      rw [result] at gone ⊢
      dsimp only
      -- The directory is in neither index while its name changes.
      have absent (x : Nat) (d : DirectoryPtr)
          (found : (s₁.createdDhs.erase (s₁.directories dir).metaSlot).lookup x = some d) :
          (s₁.directories d).metaSlot ≠ (s₁.directories dir).metaSlot := by
        obtain ⟨there, apart⟩ := lookup_of_erase found
        rw [(left.housed.handles x d there).2]
        exact apart
      generalize before : ({ s₁ with
          createdDirs := s₁.createdDirs.erase (s₁.dirMeta dir).dirName
          createdDhs := s₁.createdDhs.erase (s₁.directories dir).metaSlot } : FileSystem) = t
        at gone ⊢
      have named := gone.trans (gone.housed.modifyDirMeta (s₁.directories dir).metaSlot
        (fun m => m.setDirName target) (fun _ => rfl) (.inr (by subst before; exact absent)))
      generalize t.modifyDirMeta (s₁.directories dir).metaSlot (fun m => m.setDirName target) = s₂
        at named ⊢
      have entered := named.trans
        (named.housed.addDirectory2CreateNolock (bound.trans_le named.more))
      generalize (s₂.addDirectory2CreateNolock dir).1 = s₃ at entered ⊢
      have added := entered.trans
        (entered.housed.addChildDirectory newParent (bound.trans_le entered.more))
      generalize (s₃.addChildDirectory newParent dir).1 = s₄ at added ⊢
      have written := added.trans (added.housed.writeDirMeta env (s₄.dirMeta dir).dh)
      split
      · next u failed => exact (congrArg Prod.fst failed) ▸ written
      · next u done' => exact (congrArg Prod.fst done') ▸ written

theorem Housed.renameDirectory (source target : Name) :
    Resettled s (s.renameDirectory env source target).1 := by
  unfold FileSystem.renameDirectory
  dsimp only
  have stored := housed.storeErrno (s.checkFileExist target true).1
  generalize s.storeErrno (s.checkFileExist target true).1 = s₁ at stored ⊢
  split
  · exact stored
  · split
    · exact stored.trans (stored.housed.errno _)
    · split
      · next e _ => exact stored.trans (stored.housed.storeErrno e)
      · next fromDirName _ =>
        split
        · next e _ => exact stored.trans (stored.housed.storeErrno e)
        · next toDirName _ =>
          split
          · next e _ => exact stored.trans (stored.housed.storeErrno e)
          · next parent dir found =>
            have here := findDirectory_named stored.housed found
            have moved := stored.trans (stored.housed.directoryRename env here toDirName)
            split
            · exact moved
            · exact moved.trans (moved.housed.errno 0)

omit [Crc32] in
theorem Housed.openDirectory (path : Name) : Resettled s (s.openDirectory path).1 := by
  unfold FileSystem.openDirectory
  split
  · exact housed.errno _
  · exact housed.errno _
  · next dir _ =>
    have taken : Resettled s s.getFd.1 := housed.of_dirSide (by unfold getFd; split <;> rfl)
    split
    next t fd same =>
      rw [same] at taken
      split
      · exact taken
      · have linked := taken.housed.modifyDirectory dir (fun d => { d with nlink := d.nlink + 1 })
          (fun _ => rfl) (fun _ => rfl) fun _ _ => .inl
        exact (taken.trans linked).trans (linked.housed.of_dirSide rfl)

theorem Housed.readDirectory {stream : Nat} {s' : FileSystem} {item : Option BlockFsDirent}
    (result : s.readDirectory env stream = .ok (s', item)) : Resettled s s' := by
  have stamped (d : DirectoryPtr) := housed.modifyDirMeta (s.directories d).metaSlot (fun m =>
    ({ m with mtime := env.now, ctime := env.now } : DirMeta).sealed) (fun _ => rfl)
    (.inl fun _ => rfl)
  have stream (t : FileSystem) (kept : Resettled s t) (streams : Map Nat DirStream) :
      Resettled s { t with dirStreams := streams } := kept.trans (kept.housed.of_dirSide rfl)
  unfold FileSystem.readDirectory at result
  grind only [Except.bind_eq_ok, Resettled.refl]

omit [Crc32] in
theorem Housed.closeDirectory (stream : Nat) : Resettled s (s.closeDirectory stream).1 := by
  unfold FileSystem.closeDirectory
  split
  · exact .refl housed
  · next d _ =>
    have put : Resettled s (s.putFd d.fd) := housed.of_dirSide (by unfold putFd; split <;> rfl)
    have unlinked := put.trans (put.housed.modifyDirectory d.dir
      (fun dir => { dir with nlink := dir.nlink - 1 }) (fun _ => rfl) (fun _ => rfl) fun _ _ => .inl)
    exact unlinked.trans (unlinked.housed.of_dirSide rfl)

end Calls

end BlockFs.FileSystem
