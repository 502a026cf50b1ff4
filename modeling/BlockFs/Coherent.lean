import BlockFs.Truncate

namespace BlockFs.FileSystem

/-- The directory `d` is the one the slot of a file names. -/
def IsHome (s : FileSystem) (d : DirectoryPtr) (f : FilePtr) : Prop :=
  d < s.nextDirectory ∧ (s.directories d).metaSlot = (s.fileMeta f).dh

/-- The directory of a file lists it. -/
def Placed (s : FileSystem) (f : FilePtr) : Prop :=
  ∃ d, s.IsHome d f ∧ s.Lists d (s.files f).metaSlot

/-- A file that a descriptor or a name leads to. -/
def Accessible (s : FileSystem) (f : FilePtr) : Prop :=
  (∃ fd, s.openedFile fd = some f) ∨ ∃ K, s.createdFiles.lookup K = some f

section Placed
variable {s s' : FileSystem} {f : FilePtr}

theorem Placed.relisted {x : Nat} (placed : s.Placed f) (relisted : Relisted s s' x)
    (slot : (s'.files f).metaSlot = (s.files f).metaSlot)
    (dh : (s'.fileMeta f).dh = (s.fileMeta f).dh) (apart : (s.files f).metaSlot ≠ x) :
    s'.Placed f := by
  obtain ⟨d, ⟨bound, home⟩, lists⟩ := placed
  have next : s'.nextDirectory = s.nextDirectory := congrArg DirSide.nextDirectory relisted.rest
  refine ⟨d, ⟨next ▸ bound, by rw [relisted.metaSlot, home, dh]⟩, ?_⟩
  rw [slot]
  exact relisted.kept d _ apart lists

theorem Placed.resettled (placed : s.Placed f) (resettled : Resettled s s')
    (slot : (s'.files f).metaSlot = (s.files f).metaSlot)
    (dh : (s'.fileMeta f).dh = (s.fileMeta f).dh) : s'.Placed f := by
  obtain ⟨d, ⟨bound, home⟩, lists⟩ := placed
  refine ⟨d, ⟨bound.trans_le resettled.more, by rw [resettled.metaSlot d bound, home, dh]⟩, ?_⟩
  rw [slot, Lists, resettled.itemMaps d bound]
  exact lists

/-- A file listed by the directory its slot names is placed. -/
theorem Relisted.placed {x : Nat} {d : DirectoryPtr} (relisted : Relisted s s' x) (housed : Housed s)
    (leads : s.Leads d) (dh : (s'.fileMeta f).dh = (s.dirMeta d).dh)
    (lists : s'.Lists d (s'.files f).metaSlot) : s'.Placed f := by
  obtain ⟨path, found⟩ := leads
  have next : s'.nextDirectory = s.nextDirectory := congrArg DirSide.nextDirectory relisted.rest
  refine ⟨d, ⟨next ▸ housed.paths path d found, ?_⟩, lists⟩
  rw [relisted.metaSlot, dh, housed.dirMeta_dh]

end Placed

/-- The changes calls are made of, apart from those of the content of a file. Unless the call
collides with a name, a file is entered under a name that no other file has. -/
inductive Change [Crc32] (collides : Prop) (s : FileSystem) : FileSystem → Prop
  | quiet {s'} (quiet : Quiet s s') (resettled : Resettled s s') : Change collides s s'
  | created {s' x rest m} (created : Created s s' x rest m)
    (fair : ¬collides → s.createdFiles.lookup (m.dh, m.fileName) = none) : Change collides s s'
  | removed {s' dir f} (here : s.IsRegistered f) (idle : (s.files f).nlink ≤ 0)
    (home : s.IsHome dir f) (removed : Removed s s' dir f) : Change collides s s'
  | opened {s' fd f} (known : s.Accessible f) (opened : Opened s s' fd f) : Change collides s s'
  | closed {s' fd f} (found : s.openedFile fd = some f) (closed : Closed s s' fd f) :
    Change collides s s'
  | renamed {s' f m} (known : s.Accessible f) (renamed : Renamed s s' f m)
    (fair : ¬collides → ∀ g, s.createdFiles.lookup (m.dh, m.fileName) = some g → g = f) :
    Change collides s s'

section Coherence
variable [Crc32] {s s' : FileSystem} {lost lost' : Lost} {f : FilePtr} {collides : Prop}

/-- The accounts balance, the indices agree with the files, every named file is listed by its
directory, and the slot of every file within reach is in use. -/
structure Coherent (s : FileSystem) (lost : Lost) : Prop where
  consistent : Consistent s lost
  registered : Registered s
  housed : Housed s
  placed : ∀ K f, s.createdFiles.lookup K = some f → s.Placed f
  alive : ∀ f, s.Accessible f → (s.fileMeta f).used = true

omit [Crc32] in
theorem Accessible.registered {s : FileSystem} {f : FilePtr} (known : s.Accessible f)
    (registered : Registered s) : s.IsRegistered f := by
  rcases known with ⟨fd, opened⟩ | ⟨K, entry⟩
  · exact registered.opens fd f opened
  · exact (registered.names K f entry).2

omit [Crc32] in
theorem SameIndex.accessible {s s' : FileSystem} (same : SameIndex s s') {f : FilePtr} :
    s'.Accessible f ↔ s.Accessible f := by
  simp only [Accessible, same.opened, same.createdFiles]

omit [Crc32] in
theorem key_dh {s s' : FileSystem} {f : FilePtr} (same : s'.key f = s.key f) :
    (s'.fileMeta f).dh = (s.fileMeta f).dh := congrArg Prod.fst same

/-- A file that is removed is entered under no name afterwards. -/
theorem Removed.unentered (coherent : Coherent s lost) {dir : DirectoryPtr} (home : s.IsHome dir f)
    (removed : Removed s s' dir f) (K : Nat × Name) : s'.createdFiles.lookup K ≠ some f := by
  intro found
  rcases removed.index with ⟨_, names, absent | unlisted⟩ | ⟨_, names⟩
  · rw [names] at found
    have name := (coherent.registered.names K f found).1
    rw [name, absent] at found
    simp at found
  · rw [names] at found
    obtain ⟨d, ⟨bound, slot⟩, lists⟩ := coherent.placed K f found
    obtain rfl := coherent.housed.apart d bound dir home.1 (slot.trans home.2.symm)
    rw [Lists, unlisted] at lists
    simp at lists
  · rw [names] at found
    obtain ⟨there, apart⟩ := lookup_of_erase found
    exact apart (coherent.registered.names K f there).1

/-- A removed file is out of reach. -/
theorem Removed.inaccessible (coherent : Coherent s lost) {dir : DirectoryPtr} (bound : f < s.nextFile)
    (idle : (s.files f).nlink ≤ 0) (home : s.IsHome dir f) (removed : Removed s s' dir f) :
    ¬s'.Accessible f := by
  rintro (⟨fd, opened⟩ | ⟨K, entry⟩)
  · rw [removed.toEmptied.openedFile] at opened
    exact coherent.registered.not_opened bound idle fd opened
  · exact removed.unentered coherent home K entry

theorem Removed.accessible {dir : DirectoryPtr} {g : FilePtr} (removed : Removed s s' dir f)
    (reached : s'.Accessible g) : s.Accessible g := by
  rcases reached with ⟨fd, opened⟩ | ⟨K, entry⟩
  · rw [removed.toEmptied.openedFile] at opened
    exact .inl ⟨fd, opened⟩
  · rcases removed.index with ⟨_, names, _⟩ | ⟨_, names⟩
    · exact .inr ⟨K, names ▸ entry⟩
    · rw [names] at entry
      exact .inr ⟨K, (lookup_of_erase entry).1⟩

omit [Crc32] in
theorem Created.accessible {x : Nat} {rest : List Nat} {m : FileMeta} {g : FilePtr}
    (created : Created s s' x rest m) (reached : s'.Accessible g) :
    g = s.nextFile ∨ s.Accessible g := by
  rcases reached with ⟨fd, opened⟩ | ⟨K, entry⟩
  · rw [created.openedFile] at opened
    exact .inr (.inl ⟨fd, opened⟩)
  · rw [created.createdFiles] at entry
    rcases lookup_of_insert entry with ⟨_, rfl⟩ | ⟨_, entry⟩
    · exact .inl rfl
    · exact .inr (.inr ⟨K, entry⟩)

omit [Crc32] in
theorem Opened.accessible {fd : Nat} {g : FilePtr} (opened : Opened s s' fd f)
    (reached : s'.Accessible g) : g = f ∨ s.Accessible g := by
  rcases reached with ⟨fd', there⟩ | ⟨K, entry⟩
  · rw [opened.opened] at there
    split at there
    · exact .inl (Option.some.inj there).symm
    · exact .inr (.inl ⟨fd', there⟩)
  · exact .inr (.inr ⟨K, opened.toRelinked.createdFiles ▸ entry⟩)

omit [Crc32] in
theorem Closed.accessible {fd : Nat} {g : FilePtr} (closed : Closed s s' fd f)
    (reached : s'.Accessible g) : s.Accessible g := by
  rcases reached with ⟨fd', there⟩ | ⟨K, entry⟩
  · rw [closed.opened] at there
    split at there
    · simp at there
    · exact .inl ⟨fd', there⟩
  · exact .inr ⟨K, closed.toRelinked.createdFiles ▸ entry⟩

omit [Crc32] in
theorem Reentered.accessible {g : FilePtr} (reentered : Reentered s s' f)
    (reached : s'.Accessible g) : g = f ∨ s.Accessible g := by
  rcases reached with ⟨fd, opened⟩ | ⟨K, entry⟩
  · exact .inr (.inl ⟨fd, (reentered.opened fd) ▸ opened⟩)
  · obtain ⟨names, from_, into⟩ := reentered.createdFiles
    rw [into] at entry
    rcases lookup_of_insert entry with ⟨_, rfl⟩ | ⟨_, entry⟩
    · exact .inl rfl
    · rcases from_ with ⟨rfl, _⟩ | rfl
      · exact .inr (.inr ⟨K, entry⟩)
      · exact .inr (.inr ⟨K, (lookup_of_erase entry).1⟩)

omit [Crc32] in
theorem Relinked.used (relinked : Relinked s s') (g : FilePtr) :
    (s'.fileMeta g).used = (s.fileMeta g).used := by
  rw [fileMeta, fileMeta, relinked.metaSlot, relinked.fileMetas]

theorem Relinked.coherent (coherent : Coherent s lost) (relinked : Relinked s s')
    (registered : Registered s') (known : ∀ g, s'.Accessible g → s.Accessible g) :
    Coherent s' lost where
  alive g reached := (relinked.used g).trans (coherent.alive g (known g reached))
  consistent := coherent.consistent.congr relinked.resources
  registered := registered
  housed := (coherent.housed.of_dirSide relinked.dirSide).housed
  placed K f found :=
    (coherent.placed K f (relinked.createdFiles ▸ found)).resettled
      (coherent.housed.of_dirSide relinked.dirSide) (relinked.metaSlot f)
      (key_dh (relinked.key_eq f))

theorem Reentered.placed {x : Nat} (coherent : Coherent s lost) (bound : f < s.nextFile)
    (reentered : Reentered s s' f) (relisted : Relisted s s' x) (old : x = (s.files f).metaSlot)
    (self : s'.Placed f) (K : Nat × Name) (g : FilePtr) (found : s'.createdFiles.lookup K = some g) :
    s'.Placed g := by
  by_cases same : g = f
  · exact same ▸ self
  · obtain ⟨names, from_, into⟩ := reentered.createdFiles
    rw [into] at found
    have there : s.createdFiles.lookup K = some g := by
      rcases lookup_of_insert found with ⟨_, rfl⟩ | ⟨_, found⟩
      · exact absurd rfl same
      · rcases from_ with ⟨rfl, _⟩ | rfl
        · exact found
        · exact (lookup_of_erase found).1
    have hg := coherent.registered.entered there
    obtain ⟨file, name⟩ := reentered.others g hg same
    refine (coherent.placed K g there).relisted relisted file.metaSlot (key_dh name) ?_
    rw [old]
    exact fun slots => same (coherent.consistent.metaSlot_unique hg bound slots)

theorem Change.coherent (coherent : Coherent s lost) (change : Change collides s s') : Coherent s' lost := by
  have consistent := coherent.consistent
  have registered := coherent.registered
  have housed := coherent.housed
  cases change with
  | quiet quiet resettled =>
    exact
      { consistent := consistent.congr quiet.resources
        registered := registered.of_quiet quiet
        housed := resettled.housed
        alive := fun f reached => by
          rw [fileMeta, quiet.resources.metaSlot, quiet.resources.used]
          exact coherent.alive f (quiet.sameIndex.accessible.mp reached)
        placed := fun K f found => by
          rw [quiet.createdFiles] at found
          exact (coherent.placed K f found).resettled resettled (quiet.resources.metaSlot f)
            (key_dh (quiet.sameIndex.key f (registered.entered found))) }
  | @created x rest m created _ =>
    have head : x ∈ s.freeFhs := by simp [created.free]
    exact
      { consistent := consistent.created created
        registered := registered.created consistent created
        housed := created.relisted.housed housed
        alive := fun f reached => by
          have own : s'.fileMeta s.nextFile = m := by
            rw [fileMeta, created.files, created.fileMetas, Function.update_self,
              Function.update_self]
          have kept (old : s.Accessible f) : (s'.fileMeta f).used = true :=
            (created.sameFile consistent (registered.bound (old.registered registered))).used.trans
              (coherent.alive f old)
          rcases created.accessible reached with rfl | old
          · rw [own]
            exact created.used
          · exact kept old
        placed := fun K f found => by
          rw [created.createdFiles] at found
          rcases lookup_of_insert found with ⟨_, rfl⟩ | ⟨_, found⟩
          · obtain ⟨dir, leads, home, lists⟩ := created.placed
            have slot : (s'.files s.nextFile).metaSlot = x := by
              rw [created.files, Function.update_self]
            have own : s'.fileMeta s.nextFile = m := by
              rw [fileMeta, slot, created.fileMetas, Function.update_self]
            refine created.relisted.placed housed leads ?_ ?_
            · rw [own]
              exact home
            · rw [slot]
              exact lists
          · have bound := registered.entered found
            have same := created.sameFile consistent bound
            have apart := consistent.metaSlot_not_free bound head
            refine (coherent.placed K f found).relisted created.relisted same.metaSlot ?_ apart
            rw [fileMeta, fileMeta, same.metaSlot, created.fileMetas, Function.update_of_ne apart] }
  | @removed dir f here idle home removed =>
    have bound := registered.bound here
    exact
      { consistent := consistent.emptied bound removed.toEmptied
        registered := registered.removed consistent bound idle removed
        housed := removed.relisted.housed housed
        alive := fun g reached => by
          have apart : g ≠ f := fun same =>
            removed.inaccessible coherent bound idle home (same ▸ reached)
          have old := removed.accessible reached
          have hg := registered.bound (old.registered registered)
          exact (removed.toEmptied.sameFile consistent bound hg apart).used.trans (coherent.alive g old)
        placed := fun K g found => by
          have apart : g ≠ f := fun same => removed.unentered coherent home K (same ▸ found)
          have there : s.createdFiles.lookup K = some g := by
            rcases removed.index with ⟨_, names, _⟩ | ⟨_, names⟩
            · rwa [names] at found
            · rw [names] at found
              exact (lookup_of_erase found).1
          exact (coherent.placed K g there).relisted removed.relisted
            (removed.toEmptied.metaSlot g) (key_dh (removed.toEmptied.key_eq g))
            fun same => apart (consistent.metaSlot_unique (registered.entered there) bound same) }
  | opened known opened =>
    refine opened.toRelinked.coherent coherent
      (registered.opened (known.registered registered) opened) fun g reached => ?_
    rcases opened.accessible reached with rfl | old
    · exact known
    · exact old
  | closed found closed =>
    exact closed.toRelinked.coherent coherent (registered.closed found closed) fun g reached =>
      closed.accessible reached
  | @renamed f m known renamed _ =>
    have bound := registered.bound (known.registered registered)
    have reentered := renamed.reentered consistent bound
    have own : s'.fileMeta f = m := by
      rw [fileMeta, renamed.files, renamed.fileMetas, Function.update_self]
    obtain ⟨dir, leads, home, lists⟩ := renamed.placed
    exact
      { consistent := consistent.congr renamed.resources
        registered := registered.reentered consistent bound reentered
        housed := renamed.relisted.housed housed
        alive := fun g reached => by
          have old := reentered.accessible reached
          by_cases same : g = f
          · rw [same, own, renamed.used]
            exact coherent.alive f known
          · have there := old.resolve_left same
            have hg := registered.bound (there.registered registered)
            exact (reentered.others g hg same).1.used.trans (coherent.alive g there)
        placed := reentered.placed coherent bound renamed.relisted rfl
          (renamed.relisted.placed housed leads (by rw [own]; exact home)
            (by rw [renamed.files]; exact lists)) }

theorem Quiet.coherent (coherent : Coherent s lost) (quiet : Quiet s s') (resettled : Resettled s s') :
    Coherent s' lost :=
  have change : Change False s s' := .quiet quiet resettled
  change.coherent coherent

/-- What a call makes of a coherent file system by changes that do not concern contents. -/
theorem coherent_of_changes (coherent : Coherent s lost)
    (path : Relation.ReflTransGen (Change collides) s s') : Coherent s' lost := by
  induction path with
  | refl => exact coherent
  | tail _ change ih => exact change.coherent ih

omit [Crc32] in
theorem placed_of_sameIndex (registered : Registered s) (housed : Housed s)
    (placed : ∀ K f, s.createdFiles.lookup K = some f → s.Placed f) (same : SameIndex s s')
    (dirSide : s'.dirSide = s.dirSide) (K : Nat × Name) (f : FilePtr)
    (found : s'.createdFiles.lookup K = some f) : s'.Placed f := by
  rw [same.createdFiles] at found
  exact (placed K f found).resettled (housed.of_dirSide dirSide) (same.metaSlot f)
    (key_dh (same.key f (registered.entered found)))

variable {env : Env} {offset : Nat} {r : Int}

omit [Crc32] in
theorem Extension.dirSide [Crc32] (extension : Extension s env f offset s' r) :
    s'.dirSide = s.dirSide := by
  cases extension <;> rfl

/-- Truncating keeps a file system coherent; a failure half-way loses what it has in hand. -/
theorem Truncation.coherent (coherent : Coherent s lost) (here : s.IsRegistered f)
    (truncation : Truncation s env f offset s' r) :
    ∃ lost', (¬(offset < (s.fileMeta f).size ∧ s.LosesSlot f offset) → lost'.fhs = lost.fhs) ∧
      (¬s.Leaks f offset → lost'.fbhs = lost.fbhs ∧ lost'.ids = lost.ids) ∧ Coherent s' lost' := by
  have registered := coherent.registered
  have housed := coherent.housed
  have bound := registered.bound here
  obtain ⟨lost', fhs, blocks, consistent⟩ := truncation.consistent coherent.consistent bound
  refine ⟨lost', fhs, blocks, consistent,
    truncation.registered registered coherent.consistent here, ?_, ?_, ?_⟩
  · cases truncation with
    | grow _ extension => exact (housed.of_dirSide extension.dirSide).housed
    | shrink shrinks entries shrinkage =>
      rcases shrinkage.outcome coherent.consistent bound entries shrinks with
        ⟨_, same⟩ | ⟨_, shifted⟩
      · exact (housed.of_dirSide same.dirSide).housed
      · exact shifted.relisted.housed housed
    | keep => exact housed
  · cases truncation with
    | grow _ extension =>
      exact placed_of_sameIndex registered housed coherent.placed extension.sameIndex
        extension.dirSide
    | shrink shrinks entries shrinkage =>
      rcases shrinkage.outcome coherent.consistent bound entries shrinks with
        ⟨_, same⟩ | ⟨_, shifted⟩
      · exact placed_of_sameIndex registered housed coherent.placed same.sameIndex same.dirSide
      · obtain ⟨dir, found, lists⟩ := shifted.listed
        obtain ⟨known, slot⟩ := housed.handles _ dir found
        have next : s'.nextDirectory = s.nextDirectory :=
          congrArg DirSide.nextDirectory shifted.relisted.rest
        exact shifted.reentered.placed coherent bound shifted.relisted rfl
          ⟨dir, ⟨next ▸ known, by rw [shifted.relisted.metaSlot, slot, key_dh shifted.key]⟩, lists⟩
    | keep => exact coherent.placed
  · intro g reached
    cases truncation with
    | grow _ extension =>
      exact (extension.used g).trans (coherent.alive g (extension.sameIndex.accessible.mp reached))
    | shrink shrinks entries shrinkage =>
      rcases shrinkage.outcome coherent.consistent bound entries shrinks with
        ⟨_, same⟩ | ⟨_, shifted⟩
      · have old := same.sameIndex.accessible.mp reached
        have hg := registered.bound (old.registered registered)
        exact (same.sameFile g hg).used.trans (coherent.alive g old)
      · by_cases self : g = f
        · rw [self]
          exact shifted.used
        · have old := (shifted.reentered.accessible reached).resolve_left self
          have hg := registered.bound (old.registered registered)
          exact (shifted.others g hg self).used.trans (coherent.alive g old)
    | keep => exact coherent.alive g reached

/-- A fresh mount has lost nothing and holds no file. -/
theorem coherent_mounted {d : Disk} (large : 675282944 ≤ d.size) (env : Env) (attempts : Nat) :
    Coherent (mounted d env attempts) ⟨0, 0, 0⟩ := by
  have root : ((mounted d env attempts).directories 0).metaSlot = 0 := by
    simp [mounted]
  exact
    { consistent := consistent_mounted large env attempts
      registered :=
        { live := fun x f found => by simp [mounted, initialized, unmounted] at found
          slots := fun f bound => absurd bound (Nat.not_lt_zero f)
          names := fun K f found => by simp [mounted, initialized, unmounted] at found
          opens := fun fd f opened => by
            simp [openedFile, mounted, initialized, unmounted] at opened
          links := fun f bound => absurd bound (Nat.not_lt_zero f)
          held := fun f bound => absurd bound (Nat.not_lt_zero f) }
      housed :=
        { slots := fun i => by
            simp only [mounted, rootTable, Function.update_apply]
            split
            · next same => exact same.symm
            · rfl
          handles := fun x d' found => by
            rcases lookup_of_insert found with ⟨rfl, rfl⟩ | ⟨_, found⟩
            · exact ⟨Nat.zero_lt_one, root⟩
            · simp at found
          paths := fun p d' found => by
            rcases lookup_of_insert found with ⟨rfl, rfl⟩ | ⟨_, found⟩
            · exact Nat.zero_lt_one
            · simp at found
          apart := fun d' bound d'' bound' _ =>
            (Nat.lt_one_iff.mp bound).trans (Nat.lt_one_iff.mp bound').symm
          fresh := fun d' bound => by
            obtain rfl := Nat.lt_one_iff.mp bound
            rw [root]
            simp [mounted]
          nodup := List.nodup_range'
          named := fun p d' found => by
            rcases lookup_of_insert found with ⟨rfl, rfl⟩ | ⟨_, found⟩
            · refine ⟨?_, ?_⟩
              · rw [dirMeta, root]
                rfl
              · rw [root]
                exact AList.lookup_insert _
            · simp at found
          pathed := fun x d' found => by
            rcases lookup_of_insert found with ⟨rfl, rfl⟩ | ⟨_, found⟩
            · rw [dirMeta, root]
              exact AList.lookup_insert _
            · simp at found
          children := fun d' bound x c found => by
            obtain rfl := Nat.lt_one_iff.mp bound
            simp [mounted] at found }
      placed := fun K f found => by simp [mounted, initialized, unmounted] at found
      alive := fun f reached => by
        rcases reached with ⟨fd, opened⟩ | ⟨K, entry⟩
        · simp [openedFile, mounted, initialized, unmounted] at opened
        · simp [mounted, initialized, unmounted] at entry }

end Coherence

end BlockFs.FileSystem
