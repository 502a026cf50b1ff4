import BlockFs.Alive

namespace BlockFs.FileSystem

/-- Every registered file is entered under its name and its handle, and the directories list
registered files only, each in its own directory under its own handle. -/
structure Indexed (s : FileSystem) : Prop where
  named : ∀ f, s.IsRegistered f → s.createdFiles.lookup (s.key f) = some f
  handled : ∀ x f, s.createdFhs.lookup x = some f → (s.files f).metaSlot = x
  filed : ∀ d < s.nextDirectory, ∀ y f, (s.directories d).itemMaps.lookup y = some f →
    s.IsRegistered f ∧ (s.files f).metaSlot = y ∧ (s.directories d).metaSlot = (s.fileMeta f).dh

section Indexed
variable [Crc32] {s s' : FileSystem} {env : Env} {lost : Lost} {f : FilePtr} {n : Nat} {r : Int}

omit [Crc32] in
theorem SameIndex.indexed (same : SameIndex s s') (registered : Registered s) (indexed : Indexed s)
    (resettled : Resettled s s') : Indexed s' where
  named f here := by
    have there := (same.isRegistered f).mp here
    rw [same.createdFiles, same.key f (registered.bound there)]
    exact indexed.named f there
  handled x f found := by
    rw [same.metaSlot]
    exact indexed.handled x f (same.createdFhs ▸ found)
  filed d bound y f found := by
    by_cases new : s.nextDirectory ≤ d
    · rw [resettled.added d new bound] at found
      simp at found
    · have old := not_le.mp new
      rw [resettled.itemMaps d old] at found
      obtain ⟨here, slot, home⟩ := indexed.filed d old y f found
      refine ⟨(same.isRegistered f).mpr here, (same.metaSlot f).trans slot, ?_⟩
      rw [resettled.metaSlot d old, home]
      exact (key_dh (same.key f (registered.bound here))).symm

omit [Crc32] in
theorem Relinked.indexed (relinked : Relinked s s') (indexed : Indexed s) : Indexed s' where
  named f here := by
    rw [relinked.createdFiles, relinked.key_eq]
    exact indexed.named f ((relinked.isRegistered f).mp here)
  handled x f found := by
    rw [relinked.metaSlot]
    exact indexed.handled x f (relinked.createdFhs ▸ found)
  filed d bound y f found := by
    have dirs : s'.directories = s.directories := congrArg DirSide.directories relinked.dirSide
    have next : s'.nextDirectory = s.nextDirectory :=
      congrArg DirSide.nextDirectory relinked.dirSide
    rw [dirs] at found ⊢
    obtain ⟨here, slot, home⟩ := indexed.filed d (next ▸ bound) y f found
    refine ⟨(relinked.isRegistered f).mpr here, (relinked.metaSlot f).trans slot, home.trans ?_⟩
    exact (key_dh (relinked.key_eq f)).symm

theorem Created.indexed (coherent : Coherent s lost) (indexed : Indexed s) {x : Nat}
    {rest : List Nat} {m : FileMeta} (created : Created s s' x rest m)
    (fair : s.createdFiles.lookup (m.dh, m.fileName) = none) : Indexed s' := by
  have consistent := coherent.consistent
  have head : x ∈ s.freeFhs := by simp [created.free]
  have slot : (s'.files s.nextFile).metaSlot = x := by rw [created.files, Function.update_self]
  have own : s'.fileMeta s.nextFile = m := by
    rw [fileMeta, slot, created.fileMetas, Function.update_self]
  have self : s'.IsRegistered s.nextFile := by
    rw [IsRegistered, slot, created.createdFhs, AList.lookup_insert]
  have old {g : FilePtr} (hg : g < s.nextFile) :
      (s'.files g).metaSlot = (s.files g).metaSlot ∧ s'.key g = s.key g := by
    have file := (created.sameFile consistent hg).metaSlot
    refine ⟨file, ?_⟩
    rw [key, key, fileMeta, file, created.fileMetas,
      Function.update_of_ne (consistent.metaSlot_not_free hg head)]
    rfl
  have kept {g : FilePtr} (here : s.IsRegistered g) : s'.IsRegistered g := by
    have hg := coherent.registered.bound here
    rw [IsRegistered, (old hg).1, created.createdFhs,
      AList.lookup_insert_ne (consistent.metaSlot_not_free hg head)]
    exact here
  have among {y : Nat} {g : FilePtr} (found : s'.createdFhs.lookup y = some g) :
      (y = x ∧ g = s.nextFile) ∨ s.createdFhs.lookup y = some g := by
    rw [created.createdFhs] at found
    exact (lookup_of_insert found).imp_right And.right
  refine ⟨fun g here => ?_, fun y g found => ?_, fun d bound y g found => ?_⟩
  · rw [created.createdFiles]
    rcases among here with ⟨_, rfl⟩ | there
    · rw [key, own]
      exact AList.lookup_insert _
    · have hg := coherent.registered.live _ g there
      rw [(old hg).1] at there
      have entry := indexed.named g there
      rw [(old hg).2, AList.lookup_insert_ne fun same => ?_]
      · exact entry
      · rw [same, fair] at entry
        simp at entry
  · rcases among found with ⟨rfl, rfl⟩ | there
    · exact slot
    · rw [(old (coherent.registered.live y g there)).1]
      exact indexed.handled y g there
  · obtain ⟨dir, ⟨path, leads⟩, home, listing⟩ := created.listing
    have next : s'.nextDirectory = s.nextDirectory :=
      congrArg DirSide.nextDirectory created.relisted.rest
    rw [listing] at found
    rw [created.relisted.metaSlot]
    rcases lookup_enlisted found with there | ⟨rfl, rfl, rfl⟩
    · obtain ⟨here, slot', home'⟩ := indexed.filed d (next ▸ bound) y g there
      have hg := coherent.registered.bound here
      exact ⟨kept here, (old hg).1.trans slot', home'.trans (key_dh (old hg).2).symm⟩
    · exact ⟨self, slot, by rw [own, home, coherent.housed.dirMeta_dh]⟩

/-- A registered file is listed by its directory. -/
theorem Indexed.lists (coherent : Coherent s lost) (indexed : Indexed s) (here : s.IsRegistered f)
    {d : DirectoryPtr} (home : s.IsHome d f) : s.Lists d (s.files f).metaSlot := by
  obtain ⟨d', home', lists⟩ := coherent.placed _ f (indexed.named f here)
  obtain rfl := coherent.housed.apart d home.1 d' home'.1 (home.2.trans home'.2.symm)
  exact lists

theorem Removed.indexed (coherent : Coherent s lost) (indexed : Indexed s) {dir : DirectoryPtr}
    (here : s.IsRegistered f) (home : s.IsHome dir f) (removed : Removed s s' dir f) :
    Indexed s' := by
  have consistent := coherent.consistent
  have bound := coherent.registered.bound here
  have lists := indexed.lists coherent here home
  have slot (g : FilePtr) := removed.toEmptied.metaSlot g
  have name (g : FilePtr) := removed.toEmptied.key_eq g
  obtain ⟨fhs, names⟩ : s'.createdFhs = s.createdFhs.erase (s.files f).metaSlot ∧
      s'.createdFiles = s.createdFiles.erase (s.key f) := by
    rcases removed.index with ⟨_, _, absent | absent⟩ | done
    · rw [indexed.named f here] at absent
      simp at absent
    · rw [Lists, absent] at lists
      simp at lists
    · exact done
  have among {y : Nat} {g : FilePtr} (found : s'.createdFhs.lookup y = some g) :
      s.createdFhs.lookup y = some g ∧ y ≠ (s.files f).metaSlot := lookup_of_erase (fhs ▸ found)
  refine ⟨fun g there => ?_, fun y g found => ?_, fun d hd y g found => ?_⟩
  · obtain ⟨there, apart⟩ := among there
    rw [slot] at there apart
    have entry := indexed.named g there
    rw [names, name, AList.lookup_erase_ne fun same => ?_]
    · exact entry
    · rw [same, indexed.named f here] at entry
      exact apart (by rw [Option.some.inj entry])
  · rw [slot]
    exact indexed.handled y g (among found).1
  · have next : s'.nextDirectory = s.nextDirectory :=
      congrArg DirSide.nextDirectory removed.relisted.rest
    rw [removed.listing] at found
    rw [removed.relisted.metaSlot, slot, IsRegistered, slot, fhs]
    obtain ⟨there, elsewhere⟩ := lookup_delisted found
    obtain ⟨here', slot', home'⟩ := indexed.filed d (next ▸ hd) y g there
    refine ⟨?_, slot', home'.trans (key_dh (name g)).symm⟩
    have apart : (s.files g).metaSlot ≠ (s.files f).metaSlot := fun same => by
      obtain rfl := consistent.metaSlot_unique (coherent.registered.bound here') bound same
      exact elsewhere ⟨coherent.housed.apart d (next ▸ hd) dir home.1 (home'.trans home.2.symm),
        slot'.symm⟩
    rw [AList.lookup_erase_ne apart]
    exact here'

/-- A file that changes its slot, its directory or its name takes its entries along. -/
theorem Reentered.indexed (coherent : Coherent s lost) (indexed : Indexed s) (here : s.IsRegistered f)
    (reentered : Reentered s s' f)
    (fhs : s'.createdFhs = (s.createdFhs.erase (s.files f).metaSlot).insert (s'.files f).metaSlot f)
    (fair : ∀ g, s.createdFiles.lookup (s'.key f) = some g → g = f)
    (relisted : Relisted s s' (s.files f).metaSlot) {oldDir dir : DirectoryPtr}
    (left : s.createdDhs.lookup (s.fileMeta f).dh = some oldDir)
    (home : (s.directories dir).metaSlot = (s'.fileMeta f).dh)
    (listing : s'.directories =
      enlisted (delisted s.directories oldDir (s.files f).metaSlot) dir (s'.files f).metaSlot f) :
    Indexed s' := by
  have consistent := coherent.consistent
  have bound := coherent.registered.bound here
  obtain ⟨oldBound, oldHome⟩ := coherent.housed.handles _ oldDir left
  have kept {g : FilePtr} (there : s.IsRegistered g) (apart : g ≠ f) : s'.IsRegistered g := by
    have hg := coherent.registered.bound there
    have distinct : (s.files g).metaSlot ≠ (s.files f).metaSlot := fun same =>
      apart (consistent.metaSlot_unique hg bound same)
    rw [IsRegistered, (reentered.others g hg apart).1.metaSlot, fhs,
      AList.lookup_insert_ne (reentered.unshared g hg apart), AList.lookup_erase_ne distinct]
    exact there
  have among {y : Nat} {g : FilePtr} (found : s'.createdFhs.lookup y = some g) :
      (y = (s'.files f).metaSlot ∧ g = f) ∨ (s.createdFhs.lookup y = some g ∧ g ≠ f) := by
    rw [fhs] at found
    rcases lookup_of_insert found with same | ⟨_, found⟩
    · exact .inl same
    · obtain ⟨there, apart⟩ := lookup_of_erase found
      exact .inr ⟨there, fun same => apart (same ▸ (indexed.handled y g there).symm)⟩
  refine ⟨fun g there => ?_, fun y g found => ?_, fun d hd y g found => ?_⟩
  · obtain ⟨names, from_, into⟩ := reentered.createdFiles
    rw [into]
    rcases among there with ⟨_, rfl⟩ | ⟨there, apart⟩
    · exact AList.lookup_insert _
    · have hg := coherent.registered.live _ g there
      obtain ⟨file, name⟩ := reentered.others g hg apart
      rw [file.metaSlot] at there
      have entry := indexed.named g there
      have other : s.key g ≠ s.key f := fun same => by
        rw [same, indexed.named f here] at entry
        exact apart (Option.some.inj entry).symm
      have vacant : s.key g ≠ s'.key f := fun same => apart (fair g (by rw [← same]; exact entry))
      rw [name, AList.lookup_insert_ne vacant]
      rcases from_ with ⟨rfl, _⟩ | rfl
      · exact entry
      · rw [AList.lookup_erase_ne other]
        exact entry
  · rcases among found with ⟨rfl, rfl⟩ | ⟨there, apart⟩
    · rfl
    · rw [(reentered.others g (coherent.registered.live y g there) apart).1.metaSlot]
      exact indexed.handled y g there
  · have next : s'.nextDirectory = s.nextDirectory :=
      congrArg DirSide.nextDirectory relisted.rest
    rw [listing] at found
    rw [relisted.metaSlot]
    rcases lookup_enlisted found with before | ⟨rfl, rfl, rfl⟩
    · obtain ⟨there, elsewhere⟩ := lookup_delisted before
      obtain ⟨here', slot', home'⟩ := indexed.filed d (next ▸ hd) y g there
      have apart : g ≠ f := fun same => by
        subst same
        exact elsewhere ⟨coherent.housed.apart d (next ▸ hd) oldDir oldBound
          (home'.trans oldHome.symm), slot'.symm⟩
      obtain ⟨file, name⟩ := reentered.others g (coherent.registered.bound here') apart
      exact ⟨kept here' apart, file.metaSlot.trans slot', home'.trans (key_dh name).symm⟩
    · exact ⟨reentered.self, rfl, home⟩

theorem Change.indexed (coherent : Coherent s lost) (indexed : Indexed s)
    (change : Change False s s') : Indexed s' := by
  cases change with
  | quiet quiet resettled =>
    exact quiet.sameIndex.indexed coherent.registered indexed resettled
  | created created fair => exact created.indexed coherent indexed (fair id)
  | removed here idle home removed => exact removed.indexed coherent indexed here home
  | opened known opened => exact opened.toRelinked.indexed indexed
  | closed found closed => exact closed.toRelinked.indexed indexed
  | @renamed f m known renamed fair =>
    have here := known.registered coherent.registered
    have reentered := renamed.reentered coherent.consistent (coherent.registered.bound here)
    have slot : (s'.files f).metaSlot = (s.files f).metaSlot := by rw [renamed.files]
    have own : s'.fileMeta f = m := by
      rw [fileMeta, slot, renamed.fileMetas, Function.update_self]
    obtain ⟨oldDir, dir, left, leads, home, listing⟩ := renamed.listing
    refine reentered.indexed coherent indexed here (slot ▸ renamed.createdFhs) (fun g taken => ?_)
      renamed.relisted left ?_ (by rw [slot]; exact listing)
    · rw [key, own] at taken
      exact fair id g taken
    · rw [own, home, coherent.housed.dirMeta_dh]

theorem Truncation.indexed (coherent : Coherent s lost) (indexed : Indexed s)
    (here : s.IsRegistered f) (truncation : Truncation s env f n s' r) : Indexed s' := by
  have bound := coherent.registered.bound here
  cases truncation with
  | grow _ extension =>
    exact extension.sameIndex.indexed coherent.registered indexed
      (coherent.housed.of_dirSide extension.dirSide)
  | shrink shrinks entries shrinkage =>
    rcases shrinkage.outcome coherent.consistent bound entries shrinks with ⟨_, same⟩ | ⟨_, shifted⟩
    · exact same.sameIndex.indexed coherent.registered indexed
        (coherent.housed.of_dirSide same.dirSide)
    · obtain ⟨dir, found, listing⟩ := shifted.listing
      have home := coherent.housed.handles _ dir found
      have entry := indexed.named f here
      refine shifted.reentered.indexed coherent indexed here (shifted.handed ?_ fun dir' found' => ?_)
        (fun g taken => ?_) shifted.relisted found (home.2.trans (key_dh shifted.key).symm) listing
      · rw [entry]
        simp
      · exact indexed.lists coherent here (coherent.housed.handles _ dir' found')
      · rw [shifted.key, entry] at taken
        exact (Option.some.inj taken).symm
  | keep => exact indexed

/-- Every call that enters no file under a name another file has keeps the indices in step. -/
theorem Outcome.indexed {op : Op} (coherent : Coherent s lost) (indexed : Indexed s)
    (apart : ¬s.Collides op) (outcome : Outcome s env op s' r) : Indexed s' := by
  have follow {t u : FileSystem} {lost' : Lost} (before : Coherent t lost') (there : Indexed t)
      (path : Relation.ReflTransGen (Change (s.Collides op)) t u) : Indexed u := by
    rw [eq_false apart] at path
    induction path with
    | refl => exact there
    | tail steps change ih => exact change.indexed (coherent_of_changes before steps) ih
  cases outcome with
  | plain _ path => exact follow coherent indexed path
  | truncated _ same known truncation path _ =>
    have coherent' := same.coherent coherent
    have indexed' := (Quiet.of_fileSide same.fileSide).sameIndex.indexed coherent.registered indexed
      (coherent.housed.of_dirSide same.dirSide)
    have here := known.registered coherent'.registered
    obtain ⟨_, _, _, after⟩ := truncation.coherent coherent' here
    exact follow after (truncation.indexed coherent' indexed' here) path
  | @wrote fd buffer len offset f b blocks t u data _ _ opened _ grown _ _ _ quiet homes =>
    have settle {lost' : Lost} (before : Coherent t lost') (there : Indexed t) :
        Indexed (u.stored data) := by
      have after := quiet.sameIndex.indexed before.registered there
        (before.housed.of_dirSide homes)
      exact ⟨after.named, after.handled, after.filed⟩
    rcases grown with ⟨_, rfl⟩ | ⟨n, _, truncation⟩
    · exact settle coherent indexed
    · have here := coherent.registered.opens fd f opened
      obtain ⟨_, _, _, after⟩ := truncation.coherent coherent here
      exact settle after (truncation.indexed coherent indexed here)

theorem indexed_mounted (d : Disk) (env : Env) (attempts : Nat) :
    Indexed (mounted d env attempts) where
  named f here := by simp [IsRegistered, mounted, initialized, unmounted] at here
  handled x f found := by simp [mounted, initialized, unmounted] at found
  filed d bound y f found := by
    obtain rfl := Nat.lt_one_iff.mp bound
    simp [mounted] at found

theorem Reachable.indexed (reach : Reachable (fun s op => s.NarrowCall op ∧ ¬s.Collides op) s) :
    ∃ lost, Coherent s lost ∧ Indexed s := by
  refine reach.invariant (fun s => ∃ lost, Coherent s lost ∧ Indexed s) (fun s fresh => ?_)
    fun s e s' hyp guard step => ?_
  · obtain ⟨d, env, attempts, rfl, large⟩ := fresh.eq_mounted
    exact ⟨_, coherent_mounted large env attempts, indexed_mounted d env attempts⟩
  · obtain ⟨lost, coherent, indexed⟩ := hyp
    obtain ⟨r, outcome⟩ := step_outcome coherent guard.1 guard.2.1 step
    obtain ⟨lost', _, after⟩ := outcome.coherent coherent
    exact ⟨lost', after, outcome.indexed coherent indexed guard.2.2⟩

end Indexed

/-- The three indices of files agree with the live files, and no two live files share a key. -/
structure IndexesAgree (s : FileSystem) : Prop where
  names : ∀ dh name f, s.createdFiles.lookup (dh, name) = some f ↔
    f ∈ s.liveFiles ∧ (s.fileMeta f).dh = dh ∧ (s.fileMeta f).fileName = name
  handles : ∀ fh f, s.createdFhs.lookup fh = some f ↔ f ∈ s.liveFiles ∧ (s.fileMeta f).fh = fh
  items : ∀ dh dir, s.createdDhs.lookup dh = some dir → ∀ fh f,
    (s.directories dir).itemMaps.lookup fh = some f ↔
      f ∈ s.liveFiles ∧ (s.fileMeta f).dh = dh ∧ (s.fileMeta f).fh = fh
  unshared : ∀ f ∈ s.liveFiles, ∀ g ∈ s.liveFiles, s.key f = s.key g → f = g

section Agreement
variable [Crc32] {s : FileSystem} {lost : Lost}

theorem Indexed.agree (coherent : Coherent s lost) (indexed : Indexed s) : s.IndexesAgree := by
  have registered := coherent.registered
  have live (f : FilePtr) : f ∈ s.liveFiles ↔ s.IsRegistered f := by
    rw [mem_liveFiles]
    constructor
    · rintro (⟨x, found⟩ | ⟨fd, opened⟩)
      · rw [IsRegistered, indexed.handled x f found]
        exact found
      · exact registered.opens fd f opened
    · exact fun here => .inl ⟨_, here⟩
  have fh (f : FilePtr) : (s.fileMeta f).fh = (s.files f).metaSlot := coherent.consistent.fileMeta_fh f
  refine ⟨fun dh name f => ?_, fun x f => ?_, fun dh dir found x f => ?_, fun f hf g hg same => ?_⟩
  · rw [live]
    constructor
    · intro entry
      obtain ⟨key, here⟩ := registered.names _ f entry
      exact ⟨here, (congrArg Prod.fst key).symm, (congrArg Prod.snd key).symm⟩
    · rintro ⟨here, rfl, rfl⟩
      exact indexed.named f here
  · rw [live, fh]
    constructor
    · intro entry
      have slot := indexed.handled x f entry
      exact ⟨by rw [IsRegistered, slot]; exact entry, slot⟩
    · rintro ⟨here, rfl⟩
      exact here
  · rw [live, fh]
    obtain ⟨bound, slot⟩ := coherent.housed.handles dh dir found
    constructor
    · intro item
      obtain ⟨here, own, home⟩ := indexed.filed dir bound x f item
      exact ⟨here, home.symm.trans slot, own⟩
    · rintro ⟨here, rfl, rfl⟩
      have lists := indexed.lists coherent here ⟨bound, slot⟩
      obtain ⟨g, item⟩ := Option.isSome_iff_exists.mp lists
      obtain ⟨there, own, _⟩ := indexed.filed dir bound _ g item
      obtain rfl := coherent.consistent.metaSlot_unique (registered.bound there)
        (registered.bound here) own
      exact item
  · have entry := indexed.named f ((live f).mp hf)
    rw [same, indexed.named g ((live g).mp hg)] at entry
    exact (Option.some.inj entry).symm

/-- In a run that enters no file under a name another file has, and whose truncations need no more
blocks than 32 bits can count, the three indices of files agree in every state. -/
theorem Reachable.indexesAgree
    (reach : Reachable (fun s op => s.NarrowCall op ∧ ¬s.Collides op) s) : s.IndexesAgree := by
  obtain ⟨lost, coherent, indexed⟩ := reach.indexed
  exact indexed.agree coherent

/-- Decides whether a call enters a file under a name that is taken. -/
def collides (s : FileSystem) : Op → Bool
  | .openFile path flags =>
    (isNeedCreateTempFile flags).2 &&
      ((s.newKey path [] true).bind fun K => s.createdFiles.lookup K).isSome
  | .rename oldpath newpath =>
    match s.getCreatedFile newpath, s.getCreatedFile oldpath,
        s.getCreatedDirectory (getDirName newpath) with
    | .error _, .ok f, .ok dir =>
      (s.createdFiles.lookup ((s.dirMeta dir).dh,
        (getFileName newpath).take kBlockFsMaxFileNameLen)).any (· != f)
    | _, _, _ => false
  | _ => false

omit [Crc32] in
theorem Collides.detected {op : Op} (collision : s.Collides op) : s.collides op = true := by
  cases op with
  | openFile path flags =>
    obtain ⟨temp, K, g, key, taken⟩ := collision
    simp [collides, temp, key, taken]
  | rename oldpath newpath =>
    obtain ⟨f, dir, g, absent, found, target, taken, other⟩ := collision
    cases lookup : s.getCreatedFile newpath with
    | ok h => exact absurd lookup (absent h)
    | error e => simp [collides, lookup, found, target, taken, other]
  | _ => exact collision.elim

/-- A narrow call that enters no file under a name that is taken. -/
def isFairCall (s : FileSystem) (op : Op) : Bool := s.isNarrowCall op && !s.collides op

omit [Crc32] in
theorem isFairCall_sound (s : FileSystem) (op : Op) (passed : s.isFairCall op = true) :
    s.NarrowCall op ∧ ¬s.Collides op := by
  rw [isFairCall, Bool.and_eq_true, Bool.not_eq_true'] at passed
  refine ⟨isNarrowCall_sound s op passed.1, fun collision => ?_⟩
  rw [collision.detected] at passed
  exact absurd passed.2 (by decide)

omit [Crc32] in
/-- A temporary file, a file that moves to another slot when it is cut, and one that is renamed. -/
theorem Reachable.indexesAgree_moved :
    ∃ s : FileSystem, (s.fileMeta 1).fh = 2 ∧ (s.fileMeta 1).fileName = ['b'] ∧ s.IndexesAgree := by
  let _ := zeroCrc
  obtain ⟨s, reach, slot, name⟩ := Reachable.exists_run
    [.openFile ['/'] 0o20200002, .openFile ['/', 'a'] 0o102, .truncateFd 1 12582912,
      .truncateFd 1 6291456, .rename ['/', 'a'] ['/', 'b']]
    (fun s => (s.fileMeta 1).fh = 2 ∧ (s.fileMeta 1).fileName = ['b'])
    (freshDevice_fresh 8 fun _ => 0) steadyEnv_ok isFairCall_sound (by decide +kernel)
  exact ⟨s, slot, name, reach.indexesAgree⟩

/-- A path whose last component is one character longer than a slot can store. -/
def longPath (last : Char) : Name := '/' :: (List.replicate 64 'x' ++ [last])

omit [Crc32] in
/-- Two files renamed to names that agree in the 64 characters a slot stores share one key, and the
first can no longer be reached by name. -/
theorem not_indexesAgree : ∃ s, @Reachable zeroCrc anyCall s ∧ ¬s.IndexesAgree := by
  let _ := zeroCrc
  obtain ⟨s, reach, live, entry⟩ := Reachable.exists_run
    [.createFile ['/', 'a'], .createFile ['/', 'b'], .rename ['/', 'a'] (longPath '1'),
      .rename ['/', 'b'] (longPath '2')]
    (fun s => 0 ∈ s.liveFiles ∧ s.createdFiles.lookup (s.key 0) = some 1)
    (freshDevice_fresh 8 fun _ => 0) steadyEnv_ok anyCall_sound (by decide +kernel)
  refine ⟨s, reach, fun agree => ?_⟩
  have own := (agree.names _ _ 0).mpr ⟨live, rfl, rfl⟩
  exact absurd (entry.symm.trans own) (by decide)

end Agreement

end BlockFs.FileSystem
