import BlockFs.FreeLists
import BlockFs.Registry

namespace BlockFs.FileSystem

/-- Every name leads to the file that carries it, entered under its handle and listed by its
directory, and a directory lists no other files than those whose slot names it. -/
structure Filed (s : FileSystem) : Prop where
  fhs : ∀ i, (s.fileMetas i).fh = i
  apart : ∀ f < s.nextFile, ∀ g < s.nextFile, (s.files f).metaSlot = (s.files g).metaSlot → f = g
  live : ∀ x f, s.createdFhs.lookup x = some f → f < s.nextFile
  slots : ∀ f < s.nextFile, ∀ g, s.createdFhs.lookup (s.files f).metaSlot = some g → g = f
  names : ∀ K f, s.createdFiles.lookup K = some f → K = s.key f ∧ s.IsRegistered f
  placed : ∀ K f, s.createdFiles.lookup K = some f → s.Placed f
  listed : ∀ d < s.nextDirectory, ∀ x f, (s.directories d).itemMaps.lookup x = some f →
    f < s.nextFile ∧ (s.files f).metaSlot = x ∧ (s.directories d).metaSlot = (s.fileMeta f).dh

section Filed
variable {s s' : FileSystem} {f g : FilePtr}

/-- The same entries keep the files filed. -/
theorem Filed.congr (filed : Filed s) (same : s'.registry = s.registry) : Filed s' := by
  have nextFile : s'.nextFile = s.nextFile := congrArg Registry.nextFile same
  have metaSlots (f : FilePtr) : (s'.files f).metaSlot = (s.files f).metaSlot :=
    congrFun (congrArg Registry.metaSlots same) f
  have fhs (i : Nat) : (s'.fileMetas i).fh = (s.fileMetas i).fh :=
    congrFun (congrArg Registry.fhs same) i
  have tags (i : Nat) : ((s'.fileMetas i).dh, (s'.fileMetas i).fileName) =
      ((s.fileMetas i).dh, (s.fileMetas i).fileName) := congrFun (congrArg Registry.tags same) i
  have createdFiles : s'.createdFiles = s.createdFiles := congrArg Registry.createdFiles same
  have createdFhs : s'.createdFhs = s.createdFhs := congrArg Registry.createdFhs same
  have nextDirectory : s'.nextDirectory = s.nextDirectory := congrArg Registry.nextDirectory same
  have homes (d : DirectoryPtr) : (s'.directories d).metaSlot = (s.directories d).metaSlot :=
    congrFun (congrArg Registry.homes same) d
  have items (d : DirectoryPtr) : (s'.directories d).itemMaps = (s.directories d).itemMaps :=
    congrFun (congrArg Registry.items same) d
  have names (f : FilePtr) : s'.key f = s.key f := by
    rw [key, key, fileMeta, fileMeta, metaSlots]
    exact tags _
  have dh (f : FilePtr) : (s'.fileMeta f).dh = (s.fileMeta f).dh := congrArg Prod.fst (names f)
  constructor
  · exact fun i => (fhs i).trans (filed.fhs i)
  · intro f known g known' slot
    rw [metaSlots, metaSlots] at slot
    exact filed.apart f (nextFile ▸ known) g (nextFile ▸ known') slot
  · intro x f found
    rw [createdFhs] at found
    exact nextFile ▸ filed.live x f found
  · intro f known g found
    rw [metaSlots, createdFhs] at found
    exact filed.slots f (nextFile ▸ known) g found
  · intro K f found
    rw [createdFiles] at found
    rw [names, IsRegistered, metaSlots, createdFhs]
    exact filed.names K f found
  · intro K f found
    rw [createdFiles] at found
    obtain ⟨d, ⟨bound, home⟩, lists⟩ := filed.placed K f found
    refine ⟨d, ⟨nextDirectory ▸ bound, ?_⟩, ?_⟩
    · rw [homes, dh, home]
    · rw [Lists, items, metaSlots]
      exact lists
  · intro d known x f found
    rw [items] at found
    rw [nextFile, metaSlots, homes, dh]
    exact filed.listed d (nextDirectory ▸ known) x f found

/-- A slot that no file has may take any directory and name. -/
theorem Filed.retags (filed : Filed s) {i : Nat} (off : ∀ f < s.nextFile, (s.files f).metaSlot ≠ i)
    (g : FileMeta → FileMeta) (fh : (g (s.fileMetas i)).fh = (s.fileMetas i).fh) :
    Filed (s.modifyFileMeta i g) := by
  have own {f : FilePtr} (known : f < s.nextFile) : (s.modifyFileMeta i g).fileMeta f = s.fileMeta f :=
    Function.update_of_ne (off f known) _ _
  have registered {K : Nat × Name} {f : FilePtr} (found : s.createdFiles.lookup K = some f) :
      f < s.nextFile := filed.live _ f (filed.names K f found).2
  constructor
  · exact fun j => (view_update s.fileMetas i j (·.fh) fh).trans (filed.fhs j)
  · exact filed.apart
  · exact filed.live
  · exact filed.slots
  · intro K f found
    rw [key, own (registered found)]
    exact filed.names K f found
  · intro K f found
    obtain ⟨d, ⟨bound, home⟩, lists⟩ := filed.placed K f found
    exact ⟨d, ⟨bound, by rw [own (registered found)]; exact home⟩, lists⟩
  · intro d known x f found
    obtain ⟨bound, slot, home⟩ := filed.listed d known x f found
    exact ⟨bound, slot, by rw [own bound]; exact home⟩

/-- A file sits in no other item map than that of its directory, and there under its handle. -/
theorem Filed.sole (filed : Filed s) (housed : Housed s) {dir d : DirectoryPtr} (home : s.IsHome dir f)
    (bound : d < s.nextDirectory) {x : Nat}
    (found : (s.directories d).itemMaps.lookup x = some f) : d = dir ∧ x = (s.files f).metaSlot := by
  obtain ⟨_, slot, at_⟩ := filed.listed d bound x f found
  exact ⟨housed.apart d bound dir home.1 (at_.trans home.2.symm), slot.symm⟩

/-- The entry under the slot of a file is the file itself. -/
theorem Filed.entry (filed : Filed s) (bound : f < s.nextFile) {d : DirectoryPtr}
    (known : d < s.nextDirectory)
    (found : (s.directories d).itemMaps.lookup (s.files f).metaSlot = some g) : g = f := by
  obtain ⟨bound', slot, _⟩ := filed.listed d known _ g found
  exact filed.apart g bound' f bound slot

/-- A file that has no name and that no directory lists. -/
structure Absent (s : FileSystem) (f : FilePtr) : Prop where
  unnamed : ∀ K, s.createdFiles.lookup K ≠ some f
  unlisted : ∀ d < s.nextDirectory, ∀ x, (s.directories d).itemMaps.lookup x ≠ some f

/-- A file that leaves its directory is nowhere else, and the others stay where they are. -/
theorem Filed.leaves (filed : Filed s) (housed : Housed s) (bound : f < s.nextFile) {dir : DirectoryPtr}
    (home : s.IsHome dir f) : Filed (s.removeFileFromoDirectory dir f).1 ∧
      (s.removeFileFromoDirectory dir f).1.Absent f := by
  have handle : (s.fileMeta f).fh = (s.files f).metaSlot := filed.fhs _
  have listing := removeChildFile_directories s dir f
  rw [handle] at listing
  -- What matters of the two outcomes: both maps only lose entries, none of them of another file's slot.
  suffices step : ∀ (names : Map (Nat × Name) FilePtr) (fhs : Map Nat FilePtr),
      (∀ K g, names.lookup K = some g → s.createdFiles.lookup K = some g ∧ g ≠ f) →
      (∀ x g, fhs.lookup x = some g → s.createdFhs.lookup x = some g) →
      (∀ x g, x ≠ (s.files f).metaSlot → s.createdFhs.lookup x = some g → fhs.lookup x = some g) →
      Filed { s with
          directories := (s.removeChildFile dir f).1.directories
          createdFiles := names
          createdFhs := fhs } ∧
        Absent { s with
          directories := (s.removeChildFile dir f).1.directories
          createdFiles := names
          createdFhs := fhs } f by
    obtain ⟨done, ⟨result, cause⟩ | result⟩ := removeFileFromoDirectory_cases s dir f
    · rw [result]
      refine step s.createdFiles s.createdFhs (fun K g found => ⟨found, ?_⟩) (fun _ _ => id)
        fun _ _ _ => id
      rintro rfl
      obtain ⟨rfl, _⟩ := filed.names K g found
      rcases cause with nameless | unlisted
      · rw [nameless] at found
        simp at found
      · obtain ⟨d, at_, lists⟩ := filed.placed _ g found
        obtain rfl := housed.apart d at_.1 dir home.1 (at_.2.trans home.2.symm)
        rw [Lists, ← handle, unlisted] at lists
        simp at lists
    · rw [result]
      refine step _ _ (fun K g found => ?_) (fun x g found => (lookup_of_erase found).1)
        fun x g other found => ?_
      · obtain ⟨before, other⟩ := lookup_of_erase found
        refine ⟨before, ?_⟩
        rintro rfl
        exact other (filed.names K g before).1
      · rw [handle, AList.lookup_erase_ne other]
        exact found
  intro names fhs named handled kept
  have metaSlot (d : DirectoryPtr) : ((s.removeChildFile dir f).1.directories d).metaSlot =
      (s.directories d).metaSlot := (removeChildFile_relisted s dir f).metaSlot d
  have items {d : DirectoryPtr} {x : Nat} {g : FilePtr}
      (found : ((s.removeChildFile dir f).1.directories d).itemMaps.lookup x = some g) :
      (s.directories d).itemMaps.lookup x = some g ∧ ¬(d = dir ∧ x = (s.files f).metaSlot) := by
    rw [listing] at found
    exact lookup_delisted found
  refine ⟨⟨filed.fhs, filed.apart, ?_, ?_, ?_, ?_, ?_⟩, ⟨?_, ?_⟩⟩
  · exact fun x g found => filed.live x g (handled x g found)
  · exact fun g known h found => filed.slots g known h (handled _ h found)
  · intro K g found
    obtain ⟨old, other⟩ := named K g found
    obtain ⟨name, here⟩ := filed.names K g old
    refine ⟨name, kept _ g (fun slot => other ?_) here⟩
    exact filed.apart g (filed.live _ g here) f bound slot
  · intro K g found
    obtain ⟨old, other⟩ := named K g found
    have known := filed.live _ g (filed.names K g old).2
    obtain ⟨d, ⟨bound', at_⟩, lists⟩ := filed.placed K g old
    refine ⟨d, ⟨bound', (metaSlot d).trans at_⟩, ?_⟩
    have relisted := removeChildFile_relisted s dir f
    refine relisted.kept d _ ?_ lists
    rw [handle]
    exact fun slot => other (filed.apart g known f bound slot)
  · intro d known x g found
    obtain ⟨bound', slot, at_⟩ := filed.listed d known x g (items found).1
    exact ⟨bound', slot, (metaSlot d).trans at_⟩
  · exact fun K found => (named K f found).2 rfl
  · intro d known x found
    obtain ⟨old, other⟩ := items found
    exact other (filed.sole housed home known old)

/-- A file has been given the slot `w`, and entered under the directory and name in it. -/
structure Entered (s s' : FileSystem) (f : FilePtr) (dir : DirectoryPtr) (w : Nat) : Prop where
  nextFile : s'.nextFile = s.nextFile
  metaSlots : ∀ g, (s'.files g).metaSlot = if g = f then w else (s.files g).metaSlot
  fhs : ∀ i, (s'.fileMetas i).fh = (s.fileMetas i).fh
  tags : ∀ i, i ≠ w → (s'.fileMetas i).dh = (s.fileMetas i).dh ∧
    (s'.fileMetas i).fileName = (s.fileMetas i).fileName
  dh : (s'.fileMetas w).dh = (s.directories dir).metaSlot
  createdFiles : s'.createdFiles = s.createdFiles.insert (s'.key f) f
  createdFhs : s'.createdFhs = s.createdFhs.insert w f
  nextDirectory : s'.nextDirectory = s.nextDirectory
  directories : s'.directories = enlisted s.directories dir w f

theorem enlisted_eq {dirs : Nat → Directory} {dir : DirectoryPtr} {x : Nat} {f : FilePtr}
    (vacant : (dirs dir).itemMaps.lookup x = none) : enlisted dirs dir x f =
      Function.update dirs dir { dirs dir with itemMaps := (dirs dir).itemMaps.insert x f } := by
  rw [enlisted, vacant]
  rfl

/-- The slot of a file that no directory lists is vacant in every item map. -/
theorem Filed.vacant (filed : Filed s) (absent : s.Absent f) {w : Nat}
    (off : ∀ g < s.nextFile, g ≠ f → (s.files g).metaSlot ≠ w) {d : DirectoryPtr}
    (known : d < s.nextDirectory) : (s.directories d).itemMaps.lookup w = none := by
  rw [Option.eq_none_iff_forall_not_mem]
  intro g found
  obtain ⟨bound, slot, _⟩ := filed.listed d known w g found
  by_cases own : g = f
  · exact absent.unlisted d known w (own ▸ found)
  · exact off g bound own slot

theorem Entered.filed {dir : DirectoryPtr} {w : Nat} (entered : Entered s s' f dir w) (filed : Filed s)
    (absent : s.Absent f) (bound : f < s.nextFile) (known : dir < s.nextDirectory)
    (off : ∀ g < s.nextFile, g ≠ f → (s.files g).metaSlot ≠ w) : Filed s' := by
  have own : (s'.files f).metaSlot = w := by rw [entered.metaSlots, if_pos rfl]
  have old {g : FilePtr} (other : g ≠ f) : (s'.files g).metaSlot = (s.files g).metaSlot := by
    rw [entered.metaSlots, if_neg other]
  have name {g : FilePtr} (here : g < s.nextFile) (other : g ≠ f) : s'.key g = s.key g := by
    obtain ⟨dh, fileName⟩ := entered.tags (s.files g).metaSlot (off g here other)
    rw [key, key, fileMeta, fileMeta, old other, dh, fileName]
  have vacant := filed.vacant absent off known
  have listing := entered.directories.trans (enlisted_eq vacant)
  have homes (d : DirectoryPtr) : (s'.directories d).metaSlot = (s.directories d).metaSlot := by
    rw [listing]
    exact view_update s.directories dir d (·.metaSlot) rfl
  have names {K : Nat × Name} {g : FilePtr} (found : s'.createdFiles.lookup K = some g) :
      (K = s'.key f ∧ g = f) ∨ (s.createdFiles.lookup K = some g ∧ g ≠ f) := by
    rw [entered.createdFiles] at found
    rcases lookup_of_insert found with same | ⟨_, old⟩
    · exact .inl same
    · exact .inr ⟨old, fun same => absent.unnamed K (same ▸ old)⟩
  constructor
  · exact fun i => (entered.fhs i).trans (filed.fhs i)
  · intro g here h here' slots
    rw [entered.nextFile] at here here'
    by_cases mine : g = f <;> by_cases mine' : h = f
    · rw [mine, mine']
    · rw [mine, own, old mine'] at slots
      exact absurd slots.symm (off h here' mine')
    · rw [mine', own, old mine] at slots
      exact absurd slots (off g here mine)
    · rw [old mine, old mine'] at slots
      exact filed.apart g here h here' slots
  · intro x g found
    rw [entered.createdFhs] at found
    rw [entered.nextFile]
    rcases lookup_of_insert found with ⟨_, rfl⟩ | ⟨_, before⟩
    · exact bound
    · exact filed.live x g before
  · intro g here h found
    rw [entered.nextFile] at here
    rw [entered.createdFhs] at found
    by_cases mine : g = f
    · rw [mine, own, AList.lookup_insert] at found
      rw [mine, Option.some.inj found]
    · rw [old mine, AList.lookup_insert_ne (off g here mine)] at found
      exact filed.slots g here h found
  · intro K g found
    rcases names found with ⟨same, rfl⟩ | ⟨before, other⟩
    · refine ⟨same, ?_⟩
      rw [IsRegistered, own, entered.createdFhs, AList.lookup_insert]
    · obtain ⟨same, here⟩ := filed.names K g before
      have known' := filed.live _ g here
      refine ⟨same.trans (name known' other).symm, ?_⟩
      rw [IsRegistered, old other, entered.createdFhs, AList.lookup_insert_ne (off g known' other)]
      exact here
  · intro K g found
    rcases names found with ⟨_, rfl⟩ | ⟨before, other⟩
    · refine ⟨dir, ⟨entered.nextDirectory ▸ known, ?_⟩, ?_⟩
      · rw [homes, fileMeta, own, entered.dh]
      · rw [Lists, own, listing, Function.update_self, AList.lookup_insert]
        rfl
    · have known' := filed.live _ g (filed.names K g before).2
      obtain ⟨d, ⟨bound', at_⟩, lists⟩ := filed.placed K g before
      refine ⟨d, ⟨entered.nextDirectory ▸ bound', ?_⟩, ?_⟩
      · rw [homes, at_]
        exact (congrArg Prod.fst (name known' other)).symm
      · rw [Lists, old other, listing]
        by_cases here : d = dir
        · subst here
          rw [Function.update_self, AList.lookup_insert_ne (off g known' other)]
          exact lists
        · rw [Function.update_of_ne here]
          exact lists
  · intro d here x g found
    rw [entered.nextDirectory] at here
    rw [entered.directories] at found
    rw [entered.nextFile, homes]
    rcases lookup_enlisted found with before | ⟨rfl, rfl, rfl⟩
    · obtain ⟨bound', slot, at_⟩ := filed.listed d here x g before
      have other : g ≠ f := fun same => absent.unlisted d here x (same ▸ before)
      exact ⟨bound', (old other).trans slot,
        at_.trans (congrArg Prod.fst (name bound' other)).symm⟩
    · exact ⟨bound, own, by rw [fileMeta, own, entered.dh]⟩

/-- A file in the clean slot at the head of the free list is filed. -/
theorem Created.filed {x : Nat} {rest : List Nat} {m : FileMeta} (created : Created s s' x rest m)
    (filed : Filed s) (housed : Housed s) (free : ∀ f < s.nextFile, (s.files f).metaSlot ∉ s.freeFhs) :
    Filed s' := by
  have off {g : FilePtr} (known : g < s.nextFile) : (s.files g).metaSlot ≠ x := by
    intro same
    exact free g known (by rw [same, created.free]; exact List.mem_cons_self)
  have new : (s'.files s.nextFile).metaSlot = x := by rw [created.files, Function.update_self]
  have old {g : FilePtr} (known : g < s.nextFile) : s'.files g = s.files g := by
    rw [created.files, Function.update_of_ne known.ne]
  have own : s'.fileMeta s.nextFile = m := by rw [fileMeta, new, created.fileMetas, Function.update_self]
  have kept {g : FilePtr} (known : g < s.nextFile) : s'.fileMeta g = s.fileMeta g := by
    rw [fileMeta, old known, created.fileMetas, Function.update_of_ne (off known), fileMeta]
  have split {g : FilePtr} (known : g < s'.nextFile) : g = s.nextFile ∨ g < s.nextFile :=
    (Nat.lt_succ_iff_lt_or_eq.mp (known.trans_eq created.nextFile)).symm
  have more {g : FilePtr} (known : g < s.nextFile) : g < s'.nextFile :=
    (Nat.lt_succ_of_lt known).trans_eq created.nextFile.symm
  have homes : ∀ d, (s'.directories d).metaSlot = (s.directories d).metaSlot := created.relisted.metaSlot
  have next : s'.nextDirectory = s.nextDirectory := congrArg DirSide.nextDirectory created.relisted.rest
  constructor
  · intro i
    rw [created.fileMetas]
    by_cases here : i = x
    · rw [here, Function.update_self, created.fh]
    · rw [Function.update_of_ne here, filed.fhs]
  · intro f known g known' slots
    rcases split known with rfl | before <;> rcases split known' with rfl | before'
    · rfl
    · rw [new, old before'] at slots
      exact absurd slots.symm (off before')
    · rw [new, old before] at slots
      exact absurd slots (off before)
    · rw [old before, old before'] at slots
      exact filed.apart f before g before' slots
  · intro y g found
    rw [created.createdFhs] at found
    rcases lookup_of_insert found with ⟨_, rfl⟩ | ⟨_, before⟩
    · rw [created.nextFile]
      exact Nat.lt_succ_self _
    · exact more (filed.live y g before)
  · intro f known g found
    rw [created.createdFhs] at found
    rcases split known with rfl | before
    · rw [new, AList.lookup_insert] at found
      exact (Option.some.inj found).symm
    · rw [old before, AList.lookup_insert_ne (off before)] at found
      exact filed.slots f before g found
  · intro K g found
    rw [created.createdFiles] at found
    rcases lookup_of_insert found with ⟨rfl, rfl⟩ | ⟨_, before⟩
    · refine ⟨by rw [key, own], ?_⟩
      rw [IsRegistered, new, created.createdFhs, AList.lookup_insert]
    · obtain ⟨same, here⟩ := filed.names K g before
      have known := filed.live _ g here
      refine ⟨by rw [key, kept known]; exact same, ?_⟩
      rw [IsRegistered, old known, created.createdFhs, AList.lookup_insert_ne (off known)]
      exact here
  · intro K g found
    rw [created.createdFiles] at found
    rcases lookup_of_insert found with ⟨_, rfl⟩ | ⟨_, before⟩
    · obtain ⟨dir, leads, home, lists⟩ := created.placed
      exact created.relisted.placed housed leads (by rw [own]; exact home) (by rw [new]; exact lists)
    · have known := filed.live _ g (filed.names K g before).2
      exact (filed.placed K g before).relisted created.relisted (by rw [old known])
        (by rw [kept known]) (off known)
  · intro d known y g found
    rw [next] at known
    rw [homes]
    obtain ⟨dir, ⟨path, leads⟩, home, listing⟩ := created.listing
    rw [listing] at found
    rcases lookup_enlisted found with before | ⟨rfl, rfl, rfl⟩
    · obtain ⟨bound, slot, at_⟩ := filed.listed d known y g before
      exact ⟨more bound, by rw [old bound, slot], by rw [kept bound, at_]⟩
    · exact ⟨by rw [created.nextFile]; exact Nat.lt_succ_self _, new, by
        rw [own, home, housed.dirMeta_dh]⟩

/-- What happens to the directories alone leaves the files filed. -/
theorem Filed.of_fileSide (filed : Filed s) (same : s'.fileSide = s.fileSide)
    (resettled : Resettled s s') : Filed s' := by
  have files : s'.files = s.files := congrArg FileSide.files same
  have metas : s'.fileMetas = s.fileMetas := congrArg FileSide.fileMetas same
  have nextFile : s'.nextFile = s.nextFile := congrArg FileSide.nextFile same
  have createdFiles : s'.createdFiles = s.createdFiles := congrArg FileSide.createdFiles same
  have createdFhs : s'.createdFhs = s.createdFhs := congrArg FileSide.createdFhs same
  have slot (f : FilePtr) : s'.fileMeta f = s.fileMeta f := by rw [fileMeta, fileMeta, files, metas]
  constructor
  · rw [metas]
    exact filed.fhs
  · rw [nextFile, files]
    exact filed.apart
  · rw [createdFhs, nextFile]
    exact filed.live
  · rw [createdFhs, nextFile, files]
    exact filed.slots
  · intro K f found
    rw [createdFiles] at found
    rw [key, slot, IsRegistered, files, createdFhs]
    exact filed.names K f found
  · intro K f found
    rw [createdFiles] at found
    exact (filed.placed K f found).resettled resettled (by rw [files]) (by rw [slot])
  · intro d known x f found
    rw [nextFile, files, slot]
    by_cases before : d < s.nextDirectory
    · rw [resettled.itemMaps d before] at found
      rw [resettled.metaSlot d before]
      exact filed.listed d before x f found
    · rw [resettled.added d (not_lt.mp before) known, AList.lookup_empty] at found
      simp at found

variable [Crc32] {env : Env} {r : Int}

omit [Crc32] in
theorem addChildFile_eq (s : FileSystem) (dir : DirectoryPtr) (f : FilePtr) :
    (s.addChildFile dir f).1 =
      { s with directories := enlisted s.directories dir (s.fileMeta f).fh f } := by
  unfold addChildFile enlisted
  split <;> rfl

omit [Crc32] in
/-- The switch of a shrinking file to the slot `w`, which no file has. -/
theorem Filed.shrinkSwitch (filed : Filed s) (housed : Housed s) (bound : f < s.nextFile)
    {dir : DirectoryPtr} (home : s.IsHome dir f) {w : Nat}
    (off : ∀ g < s.nextFile, (s.files g).metaSlot ≠ w)
    (dh : (s.fileMetas w).dh = (s.fileMeta f).dh) : Filed (s.shrinkSwitch dir f w) := by
  obtain ⟨left, absent⟩ := filed.leaves housed bound home
  have outer := removeFileFromoDirectory_outer s f dir
  have frame : (s.removeFileFromoDirectory dir f).1.fileMetas = s.fileMetas ∧
      (s.removeFileFromoDirectory dir f).1.files = s.files := by
    obtain ⟨done, ⟨result, _⟩ | result⟩ := removeFileFromoDirectory_cases s dir f <;> rw [result] <;>
      exact ⟨rfl, rfl⟩
  unfold FileSystem.shrinkSwitch
  generalize (s.removeFileFromoDirectory dir f).1 = t at left absent outer frame
  have nextFile : t.nextFile = s.nextFile := congrArg Outer.nextFile outer
  have nextDirectory : t.nextDirectory = s.nextDirectory := congrArg Outer.nextDirectory outer
  have slot : (t.directories dir).metaSlot = (s.directories dir).metaSlot :=
    congrFun (congrArg Outer.dirSlots outer) dir
  have off' : ∀ g < t.nextFile, g ≠ f → (t.files g).metaSlot ≠ w := by
    rw [nextFile, frame.2]
    exact fun g known _ => off g known
  have own : ((t.modifyFile f fun o => { o with metaSlot := w }).files f).metaSlot = w := by
    rw [modifyFile_here]
  have handle : ((t.modifyFile f fun o => { o with metaSlot := w }).fileMeta f).fh = w := by
    rw [fileMeta, own]
    exact left.fhs w
  have entered : Entered t ((t.modifyFile f fun o => { o with metaSlot := w }).addFileToDirectory dir f)
      f dir w := by
    rw [addFileToDirectory, addChildFile_eq, addFileNoLock, handle]
    exact
      { nextFile := rfl
        metaSlots := fun g => by
          by_cases same : g = f
          · rw [same, if_pos rfl]
            exact own
          · rw [if_neg same]
            exact congrArg File.metaSlot (Function.update_of_ne same _ _)
        fhs := fun _ => rfl
        tags := fun _ _ => ⟨rfl, rfl⟩
        dh := by
          change (t.fileMetas w).dh = _
          rw [frame.1, dh, slot]
          exact home.2.symm
        createdFiles := rfl
        createdFhs := congrArg (fun i => t.createdFhs.insert i f) handle
        nextDirectory := rfl
        directories := rfl }
  exact entered.filed left absent (nextFile ▸ bound) (nextDirectory ▸ home.1) off'

theorem Filed.shrinkFile (filed : Filed s) (sheltered : Sheltered s) (bound : f < s.nextFile)
    (free : ∀ g < s.nextFile, (s.files g).metaSlot ∉ s.freeFhs) {offset : Nat}
    (result : s.shrinkFile env f offset = .ok (s', r)) : Filed s' := by
  rcases shrinkFile_registry result with ⟨_, same⟩ | ⟨w, rest, listed, handle, outcome⟩
  · exact filed.congr same
  · have off (g : FilePtr) (known : g < s.nextFile) : (s.files g).metaSlot ≠ w := fun same =>
      free g known (by rw [same, listed]; exact List.mem_cons_self)
    have named : Filed (s.childSlot f w) := filed.retags off _ handle.symm
    have own : (s.childSlot f w).fileMeta f = s.fileMeta f := Function.update_of_ne (off f bound) _ _
    have child : ((s.childSlot f w).fileMetas w).dh = (s.fileMeta f).dh := by simp [childSlot]
    rcases outcome with ⟨_, same⟩ | ⟨t, dir, same, outer, found, ended⟩
    · exact named.congr same
    · have housed := (sheltered.congr (shelves_of_outer outer)).housed
      have nextFile : t.nextFile = s.nextFile := congrArg Outer.nextFile outer
      have slots (g : FilePtr) : (t.files g).metaSlot = (s.files g).metaSlot :=
        congrFun (congrArg Registry.metaSlots same) g
      refine (Filed.shrinkSwitch (named.congr same) housed (nextFile ▸ bound)
        (housed.handles _ dir found) (fun g known => ?_) ?_).congr ended
      · rw [slots]
        exact off g (nextFile ▸ known)
      · rw [(tag_of_registry same w).1, fileMeta_dh_of_registry same, own, child]

theorem Filed.ftruncate (filed : Filed s) (sheltered : Sheltered s) (bound : f < s.nextFile)
    (free : ∀ g < s.nextFile, (s.files g).metaSlot ∉ s.freeFhs) {offset : Nat}
    (result : s.ftruncate env f offset = .ok (s', r)) : Filed s' := by
  unfold FileSystem.ftruncate at result
  split at result
  · exact filed.congr (extendFile_registry result)
  · split at result
    · exact filed.shrinkFile sheltered bound free result
    · obtain ⟨rfl, _⟩ := Prod.mk.inj (Except.ok.inj result)
      exact filed

theorem Filed.unlinkFileNolock (filed : Filed s) (sheltered : Sheltered s) (fh : Nat) :
    Filed (s.unlinkFileNolock env fh).1 := by
  rcases @unlinkFileNolock_registry _ s env fh with same | ⟨t, g, dir, same, outer, found, home, gone⟩
  · exact filed.congr same
  · have housed := (sheltered.congr (shelves_of_outer outer)).housed
    have nextFile : t.nextFile = s.nextFile := congrArg Registry.nextFile same
    have left := (filed.congr same).leaves housed (nextFile ▸ filed.live fh g found)
      (housed.handles _ dir home)
    exact left.1.congr gone

omit [Crc32] in
/-- A file is at home in the directory it is found in. -/
theorem Filed.home (filed : Filed s) (housed : Housed s) {dir : DirectoryPtr} {name : Name}
    (leads : s.Leads dir) (entry : s.createdFiles.lookup ((s.dirMeta dir).dh, name) = some f) :
    s.IsHome dir f := by
  obtain ⟨path, found⟩ := leads
  have same := (filed.names _ f entry).1
  refine ⟨housed.paths path dir found, ?_⟩
  rw [← housed.dirMeta_dh]
  exact congrArg Prod.fst same

omit [Crc32] in
theorem Filed.found (filed : Filed s) (housed : Housed s) {dir : DirectoryPtr} {dirname name : Name}
    (found : s.findFile dirname name = .ok (dir, f)) : s.IsHome dir f ∧ f < s.nextFile := by
  obtain ⟨leads, entry⟩ := findFile_ok found
  exact ⟨filed.home housed leads entry, filed.live _ f (filed.names _ f entry).2⟩

theorem Filed.unlink (filed : Filed s) (sheltered : Sheltered s) (path : Name) :
    Filed (s.unlink env path).1 := by
  rcases @unlink_registry _ s env path with same | ⟨t, g, dir, dirname, name, same, outer, found, gone⟩
  · exact filed.congr same
  · obtain ⟨home, bound⟩ := filed.found sheltered.housed found
    have housed := (sheltered.congr (shelves_of_outer outer)).housed
    have nextFile : t.nextFile = s.nextFile := congrArg Registry.nextFile same
    have next : t.nextDirectory = s.nextDirectory := congrArg Registry.nextDirectory same
    have slot : (t.directories dir).metaSlot = (s.directories dir).metaSlot :=
      congrFun (congrArg Registry.homes same) dir
    have left := (filed.congr same).leaves housed (nextFile ▸ bound)
      ⟨next ▸ home.1, by rw [slot, fileMeta_dh_of_registry same, home.2]⟩
    exact left.1.congr gone

omit [Crc32] in
/-- The files are filed again once one of them has been renamed. -/
theorem Renamed.filed {m : FileMeta} (renamed : Renamed s s' f m) (filed : Filed s) (housed : Housed s)
    (named : s.createdFiles.lookup (s.key f) = some f) : Filed s' := by
  obtain ⟨oldDir, dir, home, ⟨path, leads⟩, dh, listing⟩ := renamed.listing
  have here := (filed.names _ f named).2
  have bound := filed.live _ f here
  have handle : (s.fileMeta f).fh = (s.files f).metaSlot := filed.fhs _
  have oldHome : s.IsHome oldDir f := housed.handles _ oldDir home
  obtain ⟨left, absent⟩ := filed.leaves housed bound oldHome
  have delisting := removeChildFile_directories s oldDir f
  rw [handle] at delisting
  have state : (s.removeFileFromoDirectory oldDir f).1 =
      { s with
        directories := delisted s.directories oldDir (s.files f).metaSlot
        createdFiles := s.createdFiles.erase (s.key f)
        createdFhs := s.createdFhs.erase (s.files f).metaSlot } := by
    obtain ⟨done, ⟨_, nameless | unlisted⟩ | result⟩ := removeFileFromoDirectory_cases s oldDir f
    · rw [nameless] at named
      simp at named
    · obtain ⟨d, at_, lists⟩ := filed.placed _ f named
      obtain rfl := housed.apart d at_.1 oldDir oldHome.1 (at_.2.trans oldHome.2.symm)
      rw [Lists, ← handle, unlisted] at lists
      simp at lists
    · rw [result, delisting, handle]
  have homes (d : DirectoryPtr) : (delisted s.directories oldDir (s.files f).metaSlot d).metaSlot =
      (s.directories d).metaSlot := view_update s.directories oldDir d (·.metaSlot) rfl
  rw [state] at left absent
  have entered : Entered
      { s with
        directories := delisted s.directories oldDir (s.files f).metaSlot
        createdFiles := s.createdFiles.erase (s.key f)
        createdFhs := s.createdFhs.erase (s.files f).metaSlot } s' f dir (s.files f).metaSlot :=
    { nextFile := renamed.resources.nextFile
      metaSlots := fun g => by
        rw [renamed.files]
        split
        · next same => rw [same]
        · rfl
      fhs := renamed.resources.fh
      tags := fun i other => by
        rw [renamed.fileMetas, Function.update_of_ne other]
        exact ⟨rfl, rfl⟩
      dh := by
        rw [renamed.fileMetas, Function.update_self, dh, housed.dirMeta_dh]
        exact (homes dir).symm
      createdFiles := by
        rw [renamed.createdFiles, key, key, fileMeta, fileMeta, renamed.files, renamed.fileMetas,
          Function.update_self]
      createdFhs := renamed.createdFhs
      nextDirectory := congrArg DirSide.nextDirectory renamed.relisted.rest
      directories := listing }
  exact entered.filed left absent bound (housed.paths path dir leads) fun g known other same =>
    other (filed.apart g known f bound same)

theorem enterRenamed_done (ok : env.IoOk) {newDir : DirectoryPtr} (target : Name)
    (vacant : (s.directories newDir).itemMaps.lookup (s.fileMeta f).fh = none) :
    (s.enterRenamed env f newDir target).2 = 0 := by
  have fh : ((((s.modifyFileMeta (s.files f).metaSlot fun m =>
      { (m.setFileName (getFileName target)) with dh := (s.dirMeta newDir).dh }).updateTimeStamp f
        env.now).addFileNoLock f).fileMeta f).fh = (s.fileMeta f).fh := by
    simp [updateTimeStamp, addFileNoLock, fileMeta, FileMeta.setFileName]
  unfold enterRenamed
  dsimp only
  rw [addChildFile, fh]
  have dirs : (((s.modifyFileMeta (s.files f).metaSlot fun m =>
      { (m.setFileName (getFileName target)) with dh := (s.dirMeta newDir).dh }).updateTimeStamp f
        env.now).addFileNoLock f).directories = s.directories := rfl
  rw [dirs, vacant]
  simp only [Option.isSome_none, Bool.false_eq_true, if_false]
  rw [writeMeta, writeFileMeta_ok ok]

/-- A file that a path leads to is renamed unless the target has no directory. -/
theorem Filed.fileRename_cases (filed : Filed s) (housed : Housed s) (ok : env.IoOk) {path : Name}
    (found : s.getCreatedFile path = .ok f) (target : Name) :
    (∃ e, s.getCreatedDirectory (getDirName target) = .error e ∧
      s.fileRename env f target = (s.storeErrno e, -1)) ∨
    ∃ dir u m, s.getCreatedDirectory (getDirName target) = .ok dir ∧
      s.fileRename env f target = (u, 0) ∧
      (m.dh, m.fileName) = ((s.dirMeta dir).dh, (getFileName target).take kBlockFsMaxFileNameLen) ∧
      Renamed s u f m := by
  obtain ⟨oldDir, name, leads, entry⟩ := getCreatedFile_ok found
  obtain ⟨same, here⟩ := filed.names _ f entry
  have named : s.createdFiles.lookup (s.key f) = some f := same ▸ entry
  have handle : (s.fileMeta f).fh = (s.files f).metaSlot := filed.fhs _
  have oldHome := filed.home housed leads entry
  obtain ⟨oldPath, oldLeads⟩ := leads
  have home : s.createdDhs.lookup (s.fileMeta f).dh = some oldDir := by
    rw [← oldHome.2]
    exact (housed.named oldPath oldDir oldLeads).2
  cases newLeads : s.getCreatedDirectory (getDirName target) with
  | error e =>
    refine .inl ⟨e, rfl, ?_⟩
    rw [fileRename, home]
    dsimp only
    rw [newLeads]
  | ok dir =>
    obtain ⟨newPath, at_⟩ := getCreatedDirectory_ok newLeads
    obtain ⟨left, absent⟩ := filed.leaves housed (filed.live _ f here) oldHome
    -- The file leaves its directory and both indices.
    have removed : ∃ t u, s.removeChildFile oldDir f = (t, true) ∧ t.removeFileNoLock f = (u, true) := by
      obtain ⟨d, placed, lists⟩ := filed.placed _ f entry
      obtain rfl := housed.apart d placed.1 oldDir oldHome.1 (placed.2.trans oldHome.2.symm)
      obtain ⟨g, listed⟩ := Option.isSome_iff_exists.mp lists
      rw [removeChildFile, handle, listed]
      rcases removeFileNoLock_cases (s.modifyDirectory d fun o =>
          { o with itemMaps := o.itemMaps.erase (s.files f).metaSlot }) f with ⟨nameless, _⟩ | ⟨done, gone, last⟩
      · exact absurd (nameless.symm.trans named) (by simp)
      · have present : (s.createdFhs.lookup (s.fileMeta f).fh).isSome := by
          rw [handle, show s.createdFhs.lookup (s.files f).metaSlot = some f from here]
          rfl
        rw [last.trans present] at gone
        exact ⟨_, _, rfl, gone⟩
    obtain ⟨t, u, first, second⟩ := removed
    have state : (s.removeFileFromoDirectory oldDir f).1 = u := by
      rw [removeFileFromoDirectory, first]
      exact congrArg Prod.fst second
    have outer := removeFileFromoDirectory_outer s f oldDir
    have frame : (s.removeFileFromoDirectory oldDir f).1.fileMetas = s.fileMetas ∧
        (s.removeFileFromoDirectory oldDir f).1.files = s.files := by
      obtain ⟨done, ⟨result, _⟩ | result⟩ := removeFileFromoDirectory_cases s oldDir f <;> rw [result] <;>
        exact ⟨rfl, rfl⟩
    rw [state] at left absent outer frame
    have nextFile : u.nextFile = s.nextFile := congrArg Outer.nextFile outer
    have next : u.nextDirectory = s.nextDirectory := congrArg Outer.nextDirectory outer
    have vacant := left.vacant absent (w := (s.files f).metaSlot) (d := dir) (by
      rw [nextFile, frame.2]
      exact fun g known other same => other (filed.apart g known f (filed.live _ f here) same))
      (next ▸ housed.paths newPath dir at_)
    have answer : (s.fileRename env f target).2 = 0 := by
      rw [fileRename, home]
      dsimp only
      rw [newLeads]
      dsimp only
      rw [first]
      dsimp only
      rw [second]
      refine enterRenamed_done ok target ?_
      rw [fileMeta, frame.1, frame.2, filed.fhs]
      exact vacant
    rcases BlockFs.FileSystem.fileRename_cases filed.fhs here ok named target with
      ⟨e, refused, _⟩ | ⟨dir', m, leads', key, renamed⟩
    · rw [refused] at answer
      simp at answer
    · obtain rfl := Except.ok.inj (newLeads.symm.trans leads')
      exact .inr ⟨dir, _, m, rfl, Prod.ext rfl answer, key, renamed⟩

omit [Crc32] in
theorem registry_of_beneath (same : s'.beneath = s.beneath) : s'.registry = s.registry :=
  congrArg (fun b : Beneath =>
    { nextFile := b.nextFile
      metaSlots := b.fileSlots
      fhs := fun i => (b.fileMetas i).fh
      tags := fun i => ((b.fileMetas i).dh, (b.fileMetas i).fileName)
      createdFiles := b.createdFiles
      createdFhs := b.createdFhs
      nextDirectory := b.nextDirectory
      homes := b.dirSlots
      items := b.dirItems
      createdDhs := b.createdDhs : Registry }) same

/-- Every turn keeps the files filed. -/
theorem Filed.turn (filed : Filed s) (settled : Settled s) (sheltered : Sheltered s) (ok : env.IoOk)
    (turn : Turn env s s') : Filed s' := by
  have housed := sheltered.housed
  have free : ∀ f < s.nextFile, (s.files f).metaSlot ∉ s.freeFhs := by
    obtain ⟨_, _, _, stocked⟩ := settled
    exact fun f => stocked.metaSlot_not_free
  cases turn with
  | surface same => exact filed.congr (registry_of_beneath same)
  | created path tmpfile =>
    have clean : CleanFhs s := by
      obtain ⟨_, _, _, stocked⟩ := settled
      exact ⟨stocked.slots, stocked.cleanFhs⟩
    rcases createFile_cases clean ok path tmpfile with ⟨u, refused, same⟩ | ⟨u, x, rest, m, done, created, _⟩
    · rw [refused]
      exact filed.of_fileSide same.fileSide (housed.of_dirSide same.dirSide)
    · rw [done]
      exact created.filed filed housed free
  | truncated known result => exact filed.ftruncate sheltered (settled.accessible known) free result
  | stamped => exact filed.congr (updateTimeStamp_registry _)
  | discarded => exact filed.unlinkFileNolock sheltered _
  | unlinked path => exact filed.unlink sheltered path
  | renamed found target =>
    rcases filed.fileRename_cases housed ok found target with
      ⟨e, _, refused⟩ | ⟨dir, u, m, _, done, _, renamed⟩
    · rw [refused]
      exact filed.congr rfl
    · obtain ⟨_, _, _, entry⟩ := getCreatedFile_ok found
      rw [done]
      exact renamed.filed filed housed ((filed.names _ _ entry).1 ▸ entry)
  | madeDirectory result =>
    exact filed.of_fileSide (createDirectory_fileSide s env result) (housed.createDirectory env result)
  | droppedDirectory path =>
    exact filed.of_fileSide (deleteDirectory_fileSide s env path) (housed.deleteDirectory env path)
  | movedDirectory source target =>
    exact filed.of_fileSide (renameDirectory_fileSide s env source target)
      (housed.renameDirectory env source target)
  | readDirectory result =>
    exact filed.of_fileSide (readDirectory_fileSide s env result) (housed.readDirectory env result)

/-- Every call keeps the files filed, whatever its result. -/
theorem Filed.call (filed : Filed s) (settled : Settled s) (sheltered : Sheltered s) (ok : env.IoOk)
    {op : Op} (result : s.call env op = .ok (s', r)) : Filed s' := by
  have turns := call_turns result
  clear result
  suffices all : Filed s' ∧ Settled s' ∧ Sheltered s' from all.1
  induction turns with
  | refl => exact ⟨filed, settled, sheltered⟩
  | tail _ turn ih =>
    exact ⟨ih.1.turn ih.2.1 ih.2.2 ok turn, ih.2.1.turn ok turn, ih.2.2.turn turn⟩

/-- No file is entered anywhere on a fresh mount. -/
theorem filed_mounted {d : Disk} (large : 675282944 ≤ d.size) (env : Env) (attempts : Nat) :
    Filed (mounted d env attempts) := by
  have coherent := coherent_mounted large env attempts
  have entries : (mounted d env attempts).createdFhs = ∅ := rfl
  exact
    { fhs := coherent.consistent.slots
      apart := fun f bound => absurd bound (Nat.not_lt_zero f)
      live := fun x f found => by simp [entries] at found
      slots := fun f bound => absurd bound (Nat.not_lt_zero f)
      names := coherent.registered.names
      placed := fun K f found => by simp [mounted, initialized, unmounted] at found
      listed := fun d known x f found => by simp [mounted, initialized, unmounted] at found }

end Filed

section Run
variable [Crc32] {s : FileSystem} {guard : FileSystem → Op → Prop}

/-- The files are filed in every state of every run. -/
theorem Reachable.filed (reach : Reachable guard s) : Filed s := by
  refine reach.reached_invariant Filed (fun s fresh => ?_) fun s e s' before filed ok step => ?_
  · obtain ⟨d, env, attempts, rfl, large⟩ := fresh.eq_mounted
    exact filed_mounted large env attempts
  · obtain ⟨settled, sheltered⟩ := Reachable.settled before
    obtain ⟨r, result⟩ := step.call
    exact filed.call settled sheltered ok.1 result

end Run

end BlockFs.FileSystem
