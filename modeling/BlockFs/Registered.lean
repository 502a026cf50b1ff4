import BlockFs.Remove

namespace BlockFs.FileSystem

/-- The fds that are open on a file. -/
def openers (s : FileSystem) (f : FilePtr) : Finset Nat :=
  s.openFiles.keys.toFinset.filter fun fd => s.openedFile fd = some f

theorem mem_openers {s : FileSystem} {f : FilePtr} {fd : Nat} :
    fd ∈ s.openers f ↔ s.openedFile fd = some f := by
  rw [openers, Finset.mem_filter, List.mem_toFinset]
  refine ⟨fun member => member.2, fun opened => ⟨?_, opened⟩⟩
  rw [openedFile, Option.map_eq_some_iff] at opened
  obtain ⟨o, found, _⟩ := opened
  exact AList.mem_keys.mp (AList.lookup_isSome.mp (by rw [found]; rfl))

/-- A file is registered under the handle of its slot. -/
def IsRegistered (s : FileSystem) (f : FilePtr) : Prop :=
  s.createdFhs.lookup (s.files f).metaSlot = some f

/-- The indices of files agree with the files: an entry names the slot and the name its file has,
and whatever is open, named or has content is registered. -/
structure Registered (s : FileSystem) : Prop where
  live : ∀ x f, s.createdFhs.lookup x = some f → f < s.nextFile
  slots : ∀ f < s.nextFile, ∀ g, s.createdFhs.lookup (s.files f).metaSlot = some g → g = f
  names : ∀ K f, s.createdFiles.lookup K = some f → K = s.key f ∧ s.IsRegistered f
  opens : ∀ fd f, s.openedFile fd = some f → s.IsRegistered f
  links : ∀ f < s.nextFile, ((s.openers f).card : Int) ≤ (s.files f).nlink
  held : ∀ f < s.nextFile, s.attached f ≠ [] → s.IsRegistered f

namespace Registered
variable {s s' : FileSystem} (registered : Registered s) {f : FilePtr}
include registered

theorem bound (here : s.IsRegistered f) : f < s.nextFile := registered.live _ f here

theorem entered {K : Nat × Name} (entry : s.createdFiles.lookup K = some f) : f < s.nextFile :=
  registered.bound (registered.names K f entry).2

end Registered

/-- A change that leaves the indices and the names of all files alone. -/
structure SameIndex (s s' : FileSystem) : Prop where
  nextFile : s'.nextFile = s.nextFile
  createdFhs : s'.createdFhs = s.createdFhs
  createdFiles : s'.createdFiles = s.createdFiles
  opened : ∀ fd, s'.openedFile fd = s.openedFile fd
  metaSlot : ∀ f, (s'.files f).metaSlot = (s.files f).metaSlot
  nlink : ∀ f, (s'.files f).nlink = (s.files f).nlink
  key : ∀ f < s.nextFile, s'.key f = s.key f

section SameIndex
variable {s s' : FileSystem}

theorem Quiet.sameIndex (quiet : Quiet s s') : SameIndex s s' where
  nextFile := quiet.resources.nextFile
  createdFhs := quiet.createdFhs
  createdFiles := quiet.createdFiles
  opened := quiet.opened
  metaSlot := quiet.resources.metaSlot
  nlink := quiet.nlink
  key f _ := by simp only [FileSystem.key, fileMeta, quiet.resources.metaSlot, quiet.dh, quiet.fileName]

theorem openers_eq (opened : ∀ fd, s'.openedFile fd = s.openedFile fd) (f : FilePtr) :
    s'.openers f = s.openers f := by
  ext fd
  rw [mem_openers, mem_openers, opened]

theorem SameIndex.isRegistered (same : SameIndex s s') (f : FilePtr) :
    s'.IsRegistered f ↔ s.IsRegistered f := by
  rw [IsRegistered, IsRegistered, same.createdFhs, same.metaSlot]

/-- With the indices left alone, only what newly has content must be registered. -/
theorem Registered.of_sameIndex (registered : Registered s) (same : SameIndex s s')
    (held : ∀ f < s.nextFile, s'.attached f ≠ [] → s.attached f ≠ [] ∨ s.IsRegistered f) :
    Registered s' where
  live x f found := by
    rw [same.nextFile]
    exact registered.live x f (same.createdFhs ▸ found)
  slots f bound g found := by
    rw [same.nextFile] at bound
    rw [same.createdFhs, same.metaSlot] at found
    exact registered.slots f bound g found
  names K f found := by
    rw [same.createdFiles] at found
    obtain ⟨name, here⟩ := registered.names K f found
    rw [same.key f (registered.bound here), same.isRegistered]
    exact ⟨name, here⟩
  opens fd f opened := by
    rw [same.opened] at opened
    exact (same.isRegistered f).mpr (registered.opens fd f opened)
  links f bound := by
    rw [same.nextFile] at bound
    rw [openers_eq same.opened, same.nlink]
    exact registered.links f bound
  held f bound some_ := by
    rw [same.nextFile] at bound
    rw [same.isRegistered]
    exact (held f bound some_).elim (registered.held f bound) id

theorem Registered.of_quiet (registered : Registered s) (quiet : Quiet s s') : Registered s' := by
  refine registered.of_sameIndex quiet.sameIndex fun f _ some_ => .inl ?_
  rwa [(quiet.resources.sameFile f).attached_eq] at some_

/-- No fd is open on a file without links. -/
theorem Registered.not_opened {f : FilePtr} (registered : Registered s) (bound : f < s.nextFile)
    (idle : (s.files f).nlink ≤ 0) (fd : Nat) : s.openedFile fd ≠ some f := by
  intro opened
  have count := registered.links f bound
  have positive := Finset.card_pos.mpr ⟨fd, mem_openers.mpr opened⟩
  omega

end SameIndex

/-- A file has been entered anew, under a slot and a name that may have changed. -/
structure Reentered (s s' : FileSystem) (f : FilePtr) : Prop where
  nextFile : s'.nextFile = s.nextFile
  opened : ∀ fd, s'.openedFile fd = s.openedFile fd
  nlink : ∀ g, (s'.files g).nlink = (s.files g).nlink
  others : ∀ g < s.nextFile, g ≠ f → SameFile s s' g ∧ s'.key g = s.key g
  unshared : ∀ g < s.nextFile, g ≠ f → (s.files g).metaSlot ≠ (s'.files f).metaSlot
  createdFhs : ∃ fhs, (fhs = s.createdFhs ∨ fhs = s.createdFhs.erase (s.files f).metaSlot) ∧
    s'.createdFhs = fhs.insert (s'.files f).metaSlot f
  createdFiles : ∃ names, ((names = s.createdFiles ∧ s'.key f = s.key f) ∨
    names = s.createdFiles.erase (s.key f)) ∧ s'.createdFiles = names.insert (s'.key f) f

section Reentered
variable {s s' : FileSystem} {f : FilePtr}

theorem Reentered.lookup_fh (reentered : Reentered s s' f) {x : Nat} {g : FilePtr} (apart : x ≠ (s'.files f).metaSlot)
    (found : s'.createdFhs.lookup x = some g) : s.createdFhs.lookup x = some g := by
  obtain ⟨fhs, from_, into⟩ := reentered.createdFhs
  rw [into, AList.lookup_insert_ne apart] at found
  rcases from_ with rfl | rfl
  · exact found
  · by_cases old : x = (s.files f).metaSlot
    · rw [old, AList.lookup_erase] at found
      simp at found
    · rwa [AList.lookup_erase_ne old] at found

theorem Reentered.self (reentered : Reentered s s' f) : s'.IsRegistered f := by
  obtain ⟨fhs, _, into⟩ := reentered.createdFhs
  rw [IsRegistered, into, AList.lookup_insert]

/-- After the new entry the name is that of the file, whoever had it before. -/
theorem Registered.reentered [Crc32] {lost : Lost} (registered : Registered s)
    (consistent : Consistent s lost) (bound : f < s.nextFile) (reentered : Reentered s s' f) :
    Registered s' := by
  have kept (g : FilePtr) (there : s.IsRegistered g) : s'.IsRegistered g := by
    by_cases same : g = f
    · exact same ▸ reentered.self
    · have hg := registered.bound there
      obtain ⟨fhs, from_, into⟩ := reentered.createdFhs
      have apart : (s.files g).metaSlot ≠ (s.files f).metaSlot := fun slots =>
        same (consistent.metaSlot_unique hg bound slots)
      rw [IsRegistered, (reentered.others g hg same).1.metaSlot, into,
        AList.lookup_insert_ne (reentered.unshared g hg same)]
      rcases from_ with rfl | rfl
      · exact there
      · rw [AList.lookup_erase_ne apart]
        exact there
  exact
    { live := fun x g found => by
        rw [reentered.nextFile]
        by_cases at_ : x = (s'.files f).metaSlot
        · obtain ⟨fhs, _, into⟩ := reentered.createdFhs
          rw [at_, into, AList.lookup_insert] at found
          exact Option.some.inj found ▸ bound
        · exact registered.live x g (reentered.lookup_fh at_ found)
      slots := fun g hg h found => by
        rw [reentered.nextFile] at hg
        by_cases same : g = f
        · subst same
          obtain ⟨fhs, _, into⟩ := reentered.createdFhs
          rw [into, AList.lookup_insert] at found
          exact (Option.some.inj found).symm
        · rw [(reentered.others g hg same).1.metaSlot] at found
          exact registered.slots g hg h (reentered.lookup_fh (reentered.unshared g hg same) found)
      names := fun K g found => by
        obtain ⟨names, from_, into⟩ := reentered.createdFiles
        rw [into] at found
        by_cases new : K = s'.key f
        · rw [new, AList.lookup_insert] at found
          obtain rfl := Option.some.inj found
          exact ⟨new, reentered.self⟩
        · rw [AList.lookup_insert_ne new] at found
          have old : s.createdFiles.lookup K = some g ∧ K ≠ s.key f := by
            rcases from_ with ⟨rfl, same⟩ | rfl
            · exact ⟨found, same ▸ new⟩
            · by_cases gone : K = s.key f
              · rw [gone, AList.lookup_erase] at found
                simp at found
              · exact ⟨by rwa [AList.lookup_erase_ne gone] at found, gone⟩
          obtain ⟨name, there⟩ := registered.names K g old.1
          have apart : g ≠ f := fun same => old.2 (same ▸ name)
          exact ⟨name.trans (reentered.others g (registered.bound there) apart).2.symm, kept g there⟩
      opens := fun fd g opened => by
        rw [reentered.opened] at opened
        exact kept g (registered.opens fd g opened)
      links := fun g hg => by
        rw [reentered.nextFile] at hg
        rw [openers_eq reentered.opened, reentered.nlink]
        exact registered.links g hg
      held := fun g hg some_ => by
        rw [reentered.nextFile] at hg
        by_cases same : g = f
        · exact same ▸ reentered.self
        · rw [(reentered.others g hg same).1.attached_eq] at some_
          exact kept g (registered.held g hg some_) }

end Reentered

section Created
variable [Crc32] {s s' : FileSystem} {lost : Lost} {x : Nat} {rest : List Nat} {m : FileMeta}

omit [Crc32] in
theorem Created.openedFile (created : Created s s' x rest m) (fd : Nat) :
    s'.openedFile fd = s.openedFile fd := by
  rw [FileSystem.openedFile, FileSystem.openedFile, created.openFiles]

theorem Registered.created (registered : Registered s) (consistent : Consistent s lost)
    (created : Created s s' x rest m) : Registered s' := by
  have head : x ∈ s.freeFhs := by simp [created.free]
  have file (g : FilePtr) (bound : g < s.nextFile) : s'.files g = s.files g := by
    rw [created.files, Function.update_of_ne (Nat.ne_of_lt bound)]
  have slot (g : FilePtr) (bound : g < s.nextFile) : (s.files g).metaSlot ≠ x :=
    consistent.metaSlot_not_free bound head
  have new : s'.files s.nextFile =
      { metaSlot := x, nlink := 0, locked := false, deleted := false, itemMaps := ∅ } := by
    rw [created.files, Function.update_self]
  have kept (g : FilePtr) (here : s.IsRegistered g) : s'.IsRegistered g := by
    have bound := registered.bound here
    rw [IsRegistered, file g bound, created.createdFhs, AList.lookup_insert_ne (slot g bound)]
    exact here
  have self : s'.IsRegistered s.nextFile := by
    rw [IsRegistered, new, created.createdFhs, AList.lookup_insert]
  have key (g : FilePtr) (bound : g < s.nextFile) : s'.key g = s.key g := by
    rw [FileSystem.key, FileSystem.key, fileMeta, fileMeta, file g bound, created.fileMetas,
      Function.update_of_ne (slot g bound)]
  have newKey : s'.key s.nextFile = (m.dh, m.fileName) := by
    rw [FileSystem.key, fileMeta, new, created.fileMetas, Function.update_self]
  have openers := openers_eq created.openedFile
  exact
    { live := fun y f found => by
        rw [created.nextFile]
        rw [created.createdFhs] at found
        by_cases here : y = x
        · subst here
          rw [AList.lookup_insert] at found
          obtain rfl := Option.some.inj found
          exact Nat.lt_succ_self _
        · rw [AList.lookup_insert_ne here] at found
          exact Nat.lt_succ_of_lt (registered.live y f found)
      slots := fun f bound g found => by
        rw [created.nextFile] at bound
        rw [created.createdFhs] at found
        by_cases here : f = s.nextFile
        · subst here
          rw [new, AList.lookup_insert] at found
          exact (Option.some.inj found).symm
        · have old : f < s.nextFile := by omega
          rw [file f old, AList.lookup_insert_ne (slot f old)] at found
          exact registered.slots f old g found
      names := fun K f found => by
        rw [created.createdFiles] at found
        by_cases here : K = (m.dh, m.fileName)
        · subst here
          rw [AList.lookup_insert] at found
          obtain rfl := Option.some.inj found
          exact ⟨newKey.symm, self⟩
        · rw [AList.lookup_insert_ne here] at found
          obtain ⟨name, here⟩ := registered.names K f found
          exact ⟨name.trans (key f (registered.bound here)).symm, kept f here⟩
      opens := fun fd f opened => kept f (registered.opens fd f (created.openedFile fd ▸ opened))
      links := fun f bound => by
        rw [created.nextFile] at bound
        rw [openers]
        by_cases here : f = s.nextFile
        · subst here
          have none : s.openers s.nextFile = ∅ := by
            refine Finset.eq_empty_of_forall_notMem fun fd member => ?_
            have bound := registered.bound (registered.opens fd _ (mem_openers.mp member))
            exact lt_irrefl _ bound
          rw [none, new]
          rfl
        · have old : f < s.nextFile := by omega
          rw [file f old]
          exact registered.links f old
      held := fun f bound some_ => by
        rw [created.nextFile] at bound
        by_cases here : f = s.nextFile
        · exact here ▸ self
        · have old : f < s.nextFile := by omega
          rw [attached, file f old] at some_
          exact kept f (registered.held f old some_) }

end Created

section Emptied
variable [Crc32] {s s' : FileSystem} {f : FilePtr} {dir : DirectoryPtr} {lost : Lost}

theorem Emptied.openedFile (emptied : Emptied s s' f) (fd : Nat) :
    s'.openedFile fd = s.openedFile fd := by
  rw [FileSystem.openedFile, FileSystem.openedFile, emptied.openFiles]

theorem Emptied.attached_eq (emptied : Emptied s s' f) (g : FilePtr) :
    s'.attached g = if g = f then [] else s.attached g := by
  rw [attached, emptied.files]
  split
  · next same => rw [same, Function.update_self]; rfl
  · next other => rw [Function.update_of_ne other]; rfl

theorem Emptied.metaSlot (emptied : Emptied s s' f) (g : FilePtr) :
    (s'.files g).metaSlot = (s.files g).metaSlot := by
  rw [emptied.files, Function.update_apply]
  split
  · next same => rw [same]
  · rfl

theorem Emptied.nlink (emptied : Emptied s s' f) (g : FilePtr) :
    (s'.files g).nlink = (s.files g).nlink := by
  rw [emptied.files, Function.update_apply]
  split
  · next same => rw [same]
  · rfl

theorem Emptied.key_eq (emptied : Emptied s s' f) (g : FilePtr) : s'.key g = s.key g := by
  rw [key, key, fileMeta, fileMeta, emptied.metaSlot, emptied.fileMetas, Function.update_apply]
  split
  · next same => rw [same]; rfl
  · rfl

theorem Registered.removed (registered : Registered s) (consistent : Consistent s lost)
    (bound : f < s.nextFile) (idle : (s.files f).nlink ≤ 0) (removed : Removed s s' dir f) :
    Registered s' := by
  have emptied := removed.toEmptied
  rcases removed.index with ⟨fhs, names, _⟩ | ⟨fhs, names⟩
  · refine registered.of_sameIndex
      { nextFile := emptied.nextFile
        createdFhs := fhs
        createdFiles := names
        opened := emptied.openedFile
        metaSlot := emptied.metaSlot
        nlink := emptied.nlink
        key := fun g _ => emptied.key_eq g } fun g _ some_ => .inl ?_
    rw [emptied.attached_eq] at some_
    split at some_
    · exact absurd rfl some_
    · exact some_
  · have kept (g : FilePtr) (here : s.IsRegistered g) (apart : g ≠ f) : s'.IsRegistered g := by
      rw [IsRegistered, emptied.metaSlot, fhs, AList.lookup_erase_ne]
      · exact here
      · exact fun same => apart (consistent.metaSlot_unique (registered.bound here) bound same)
    exact
      { live := fun x g found => by
          rw [emptied.nextFile]
          rw [fhs] at found
          by_cases here : x = (s.files f).metaSlot
          · rw [here, AList.lookup_erase] at found
            simp at found
          · rw [AList.lookup_erase_ne here] at found
            exact registered.live x g found
        slots := fun g hg h found => by
          rw [emptied.nextFile] at hg
          rw [emptied.metaSlot, fhs] at found
          by_cases here : (s.files g).metaSlot = (s.files f).metaSlot
          · rw [here, AList.lookup_erase] at found
            simp at found
          · rw [AList.lookup_erase_ne here] at found
            exact registered.slots g hg h found
        names := fun K g found => by
          rw [names] at found
          by_cases here : K = s.key f
          · rw [here, AList.lookup_erase] at found
            simp at found
          · rw [AList.lookup_erase_ne here] at found
            obtain ⟨name, there⟩ := registered.names K g found
            have apart : g ≠ f := fun same => here (same ▸ name)
            exact ⟨name.trans (emptied.key_eq g).symm, kept g there apart⟩
        opens := fun fd g opened => by
          rw [emptied.openedFile] at opened
          refine kept g (registered.opens fd g opened) fun same => ?_
          exact registered.not_opened bound idle fd (same ▸ opened)
        links := fun g hg => by
          rw [emptied.nextFile] at hg
          rw [openers_eq emptied.openedFile, emptied.nlink]
          exact registered.links g hg
        held := fun g hg some_ => by
          rw [emptied.nextFile] at hg
          rw [emptied.attached_eq] at some_
          split at some_
          · exact absurd rfl some_
          · next apart => exact kept g (registered.held g hg some_) apart }

end Emptied

end BlockFs.FileSystem
