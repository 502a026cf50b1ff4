import BlockFs.Remounting

namespace BlockFs.FileSystem

section Reborn
variable [Crc32] {s m : FileSystem} {f g : FilePtr}

/-- The mount leaves a file slot as the image has it, or clears that of a temporary file. -/
theorem Booted.fileSlot {d : Disk} (booted : Booted d m) (i : Nat) :
    (m.fileMetas i = d.fileMetas i ∧
      (i < d.superMeta.maxFileNum → (d.fileMetas i).used = true → (d.fileMetas i).isTemp = false)) ∨
    m.fileMetas i = (d.fileMetas i).clear.sealed := by
  by_cases stays : i < d.superMeta.maxFileNum → (d.fileMetas i).used = true → (d.fileMetas i).isTemp = false
  · exact .inl ⟨booted.fileMetas i stays, stays⟩
  · simp only [not_forall, Bool.not_eq_false] at stays
    obtain ⟨bound, used, temp⟩ := stays
    exact .inr (booted.fileTemps i bound used temp)

theorem Booted.fileBlockSlot {d : Disk} (booted : Booted d m) (i : Nat) :
    (m.fileBlockMetas i = d.fileBlockMetas i ∧ (i < d.superMeta.maxFileBlockNum → (d.fileBlockMetas i).used = true →
      (d.fileBlockMetas i).isTemp = false)) ∨
    m.fileBlockMetas i = (d.fileBlockMetas i).clear.sealed := by
  by_cases stays : i < d.superMeta.maxFileBlockNum → (d.fileBlockMetas i).used = true →
    (d.fileBlockMetas i).isTemp = false
  · exact .inl ⟨booted.fileBlockMetas i stays, stays⟩
  · simp only [not_forall, Bool.not_eq_false] at stays
    obtain ⟨bound, used, temp⟩ := stays
    exact .inr (booted.fileBlockTemps i bound used temp)

theorem Booted.registered_iff {d : Disk} (booted : Booted d m) : m.IsRegistered g ↔ g < m.nextFile := by
  rw [IsRegistered, booted.fhs]
  exact and_iff_left rfl

theorem Booted.not_opened {d : Disk} (booted : Booted d m) (fd : Nat) : m.openedFile fd = none := by
  simp [openedFile, booted.openFiles]

variable (lasting : Lasting s) (booted : Booted s.disk m)
include lasting booted

theorem Lasting.booted_dirHandles : m.dirHandles = s.dirHandles := by
  ext x
  change (m.createdDhs.lookup x).isSome ↔ (s.createdDhs.lookup x).isSome
  rw [Option.isSome_iff_exists, Option.isSome_iff_exists, ← lasting.seats, ← booted.directories]
  constructor
  · rintro ⟨e, found⟩
    exact ⟨e, (booted.dhs x e).mp found⟩
  · rintro ⟨e, bound, slot⟩
    exact ⟨e, (booted.dhs x e).mpr ⟨bound, slot⟩⟩

theorem Lasting.booted_flushed : Flushed m := by
  have files (i : Nat) : (m.fileMetas i).AtRest m.dirHandles := by
    rw [lasting.booted_dirHandles booted]
    rcases booted.fileSlot i with ⟨same, _⟩ | cleared
    · rw [same]
      exact lasting.flushed.files.device_good i (Set.notMem_empty i)
    · rw [cleared]
      exact FileMeta.sealed_atRest (FileMeta.clear_steady _ _)
  have fileBlocks (i : Nat) : (m.fileBlockMetas i).Intact := by
    rcases booted.fileBlockSlot i with ⟨same, _⟩ | cleared
    · rw [same]
      exact lasting.flushed.fileBlocks.device_good i (Set.notMem_empty i)
    · rw [cleared]
      exact FileBlockMeta.sealed_intact _
  have dirs (i : Nat) : (m.dirMetas i).Intact := by
    rw [booted.dirMetas]
    exact lasting.flushed.dirs.device_good i (Set.notMem_empty i)
  have disk := booted.disk
  have super := booted.superMeta.trans lasting.flushed.superMeta
  exact
    { superMeta := by rw [disk, booted.superMeta]
      dirMetaSize := by rw [super, lasting.flushed.dirMetaSize]
      fileMetaSize := by rw [super, lasting.flushed.fileMetaSize]
      dirs := ⟨fun i _ => dirs i, fun i _ => by rw [disk, ← booted.dirMetas]; exact dirs i,
        fun i _ => by rw [disk, ← booted.dirMetas]⟩
      files := ⟨fun i _ => files i, fun i _ => by rw [disk]; exact files i, fun i _ => by rw [disk]⟩
      fileBlocks := ⟨fun i _ => fileBlocks i, fun i _ => by rw [disk]; exact fileBlocks i,
        fun i _ => by rw [disk]⟩ }

theorem Lasting.booted_nested : Nested m where
  root := by
    obtain ⟨d, found⟩ := Option.isSome_iff_exists.mp lasting.nested.root
    obtain ⟨e, there, _⟩ := lasting.dirs_booted booted _ d found
    exact Option.isSome_iff_exists.mpr ⟨e, there⟩
  named p e found := by
    obtain ⟨d, there, _⟩ := lasting.booted_dirs booted p e found
    exact lasting.nested.named p d there
  parented p e found inner := by
    obtain ⟨d, there, _⟩ := lasting.booted_dirs booted p e found
    obtain ⟨q, above, _⟩ := lasting.nested.parented p d there inner
    obtain ⟨q', above', _⟩ := lasting.dirs_booted booted _ q above
    obtain ⟨bound, name⟩ := (booted.paths p e).mp found
    have path : (s.disk.dirMetas (m.directories e).metaSlot).dirName = p := name
    refine ⟨q', above', (booted.children q' _ e).mpr ⟨bound, rfl, ?_, ?_⟩⟩
    · rw [path, isMountPoint]
      exact beq_eq_false_iff_ne.mpr inner
    · rw [path]
      exact above'
  used x := by
    have same : (m.createdDhs.lookup x).isSome ↔ (s.createdDhs.lookup x).isSome :=
      iff_of_eq (congrArg (x ∈ ·) (lasting.booted_dirHandles booted))
    rw [booted.dirMetas, (lasting.flushed.dirSlot x).1, lasting.nested.used]
    exact (Bool.eq_iff_iff.mpr same).symm
  bounded x known := by
    obtain ⟨lost, coherent⟩ := lasting.coherent
    have layout := coherent.consistent.layout.1
    rcases known with free | entered
    · rw [booted.freeDhs, lasting.flushed.superMeta, layout] at free
      exact mem_slots.mp (List.mem_of_mem_filter free)
    · obtain ⟨e, found⟩ := Option.isSome_iff_exists.mp entered
      have seats := (booted.directories x).mp ⟨e, (booted.dhs x e).mp found⟩
      have bound := seats.1
      rwa [lasting.flushed.superMeta, layout] at bound

theorem Lasting.booted_housed : Housed m where
  slots i := by
    obtain ⟨lost, coherent⟩ := lasting.coherent
    rw [booted.dirMetas, (lasting.flushed.dirSlot i).2.2, coherent.housed.slots]
  handles x e found := (booted.dhs x e).mp found
  paths p e found := ((booted.paths p e).mp found).1
  apart := booted.dirsApart
  fresh e bound := by
    have seats := (booted.directories _).mp ⟨e, bound, rfl⟩
    rw [booted.freeDhs]
    intro free
    have unused := (List.mem_filter.mp free).2
    rw [seats.2] at unused
    exact Bool.noConfusion unused
  nodup := by
    rw [booted.freeDhs]
    exact List.Nodup.filter _ List.nodup_range'
  named p e found := by
    obtain ⟨bound, name⟩ := (booted.paths p e).mp found
    refine ⟨?_, (booted.dhs _ e).mpr ⟨bound, rfl⟩⟩
    rw [dirMeta, booted.dirMetas]
    exact name
  pathed x e found := by
    obtain ⟨bound, _⟩ := (booted.dhs x e).mp found
    rw [dirMeta, booted.dirMetas]
    exact (booted.paths _ e).mpr ⟨bound, rfl⟩
  children p _ x c found := by
    obtain ⟨bound, slot, _⟩ := (booted.children p x c).mp found
    exact ⟨bound, slot⟩

/-- Every file of the mounted device is one that remained, under the same slot and with the same key. -/
theorem Lasting.origin (bound : g < m.nextFile) :
    ∃ f, s.Remains f ∧ (s.files f).metaSlot = (m.files g).metaSlot ∧
      m.fileMeta g = s.disk.fileMetas (m.files g).metaSlot ∧ m.key g = s.key f := by
  obtain ⟨f, remains, slot⟩ := lasting.boards.mp ((booted.files _).mp ⟨g, bound, rfl⟩)
  have boards := (booted.files _).mp ⟨g, bound, rfl⟩
  have same : m.fileMeta g = s.disk.fileMetas (m.files g).metaSlot := booted.fileMetas _ fun _ _ => boards.2.2
  refine ⟨f, remains, slot, same, ?_⟩
  have key : (s.disk.fileMetas (s.files f).metaSlot).key = s.key f := (lasting.flushed.fileSlot _).2.2.2.1
  rw [← key, slot, ← same]
  rfl

theorem Lasting.booted_registered : Registered m where
  live x g found := ((booted.fhs x g).mp found).1
  slots g bound g' found := by
    obtain ⟨bound', slot⟩ := (booted.fhs _ g').mp found
    exact booted.filesApart g' bound' g bound slot
  names K g entry := by
    obtain ⟨⟨bound, _, key⟩, _⟩ := (booted.names K g).mp entry
    obtain ⟨_, _, _, same, _⟩ := lasting.origin booted bound
    refine ⟨?_, booted.registered_iff.mpr bound⟩
    change K = (m.fileMeta g).key
    rw [same]
    exact key.symm
  opens fd g opened := by
    rw [booted.not_opened] at opened
    simp at opened
  links g _ := by
    have none : m.openers g = ∅ := by
      ext fd
      rw [mem_openers, booted.not_opened]
      simp
    rw [none, (booted.closed g).1]
    exact le_rfl
  held g bound _ := booted.registered_iff.mpr bound

theorem Lasting.booted_indexed : Indexed m where
  named g here := by
    have bound := booted.registered_iff.mp here
    obtain ⟨f, remains, slot, _, key⟩ := lasting.origin booted bound
    obtain ⟨g', bound', slot', entry⟩ := lasting.file_booted booted remains
    obtain rfl := booted.filesApart g' bound' g bound (slot'.trans slot)
    rw [key]
    exact entry
  handled x g found := ((booted.fhs x g).mp found).2
  filed p _ x g found := by
    obtain ⟨bound, slot, _, home⟩ := (booted.listed p x g).mp found
    obtain ⟨_, _, _, same, _⟩ := lasting.origin booted bound
    refine ⟨booted.registered_iff.mpr bound, slot, ?_⟩
    rw [same, slot]
    exact home

theorem Lasting.booted_placed {K : Nat × Name} (entry : m.createdFiles.lookup K = some g) : m.Placed g := by
  have bound := ((booted.names K g).mp entry).1.1
  obtain ⟨_, _, _, same, _⟩ := lasting.origin booted bound
  have boards := (booted.files _).mp ⟨g, bound, rfl⟩
  obtain ⟨e, below, home⟩ := (booted.directories _).mpr (lasting.manned.home _ boards)
  refine ⟨e, ⟨below, ?_⟩, ?_⟩
  · rw [same]
    exact home
  · rw [Lists, (booted.listed e _ g).mpr ⟨bound, rfl, below, home⟩]
    rfl

theorem Lasting.booted_alive (known : m.Accessible g) : (m.fileMeta g).used = true := by
  rcases known with ⟨fd, opened⟩ | ⟨K, entry⟩
  · rw [booted.not_opened] at opened
    simp at opened
  · have bound := ((booted.names K g).mp entry).1.1
    obtain ⟨_, _, _, same, _⟩ := lasting.origin booted bound
    rw [same]
    exact ((booted.files _).mp ⟨g, bound, rfl⟩).2.1

theorem Lasting.booted_tenanted : Tenanted m := by
  obtain ⟨lost, coherent⟩ := lasting.coherent
  intro i inUse
  rcases booted.fileSlot i with ⟨same, stays⟩ | cleared
  · rw [same] at inUse
    have used := (lasting.flushed.fileSlot i).1.symm.trans inUse
    obtain ⟨f, here, slot⟩ := lasting.tenanted i used
    have small : i < s.disk.superMeta.maxFileNum := by
      rw [lasting.flushed.superMeta, coherent.consistent.layout.1, ← slot]
      exact coherent.consistent.slot_lt (coherent.registered.bound here)
    obtain ⟨g, bound, slot'⟩ := (booted.files i).mpr ⟨small, inUse, stays small inUse⟩
    exact ⟨g, booted.registered_iff.mpr bound, slot'⟩
  · rw [cleared] at inUse
    exact Bool.noConfusion inUse

theorem Lasting.booted_tidy : Tidy m where
  leased b inUse := by
    obtain ⟨lost, coherent⟩ := lasting.coherent
    rcases booted.fileBlockSlot b with ⟨same, stays⟩ | cleared
    · rw [same] at inUse
      have used : (s.fileBlockMetas b).used = true := by
        rw [← lasting.flushed.fileBlockSlot]
        exact inUse
      obtain ⟨f, bound, member⟩ := lasting.tidy.leased b used
      have small : b < s.disk.superMeta.maxFileBlockNum := by
        rw [lasting.flushed.superMeta, coherent.consistent.layout.2.1]
        exact coherent.consistent.fileBlock_lt bound member
      obtain ⟨f, remains, entries, _⟩ := lasting.backed ⟨small, inUse, stays small inUse⟩
      obtain ⟨g, below, slot, _⟩ := lasting.file_booted booted remains
      refine ⟨g, below, ?_⟩
      rw [attached, lasting.booted_entries booted remains below slot, entries]
      exact List.mem_singleton_self b
    · rw [cleared] at inUse
      exact Bool.noConfusion inUse
  blank i unused := by
    rcases booted.fileSlot i with ⟨same, _⟩ | cleared
    · obtain ⟨used, _, _, _, size⟩ := lasting.flushed.fileSlot i
      rw [same] at unused ⊢
      rw [size]
      exact lasting.tidy.blank i (used.symm.trans unused)
    · rw [cleared]
      rfl
  empty b unused := by
    rcases booted.fileBlockSlot b with ⟨same, _⟩ | cleared
    · rw [same, lasting.flushed.fileBlockSlot] at unused ⊢
      exact lasting.tidy.empty b unused
    · rw [cleared]
      rfl

theorem Lasting.booted_rep (bound : g < m.nextFile) : m.FileRep g := by
  obtain ⟨lost, coherent⟩ := lasting.coherent
  obtain ⟨f, remains, slot, same, _⟩ := lasting.origin booted bound
  have entries := lasting.booted_entries booted remains bound slot.symm
  have size := (lasting.booted_fileMeta booted remains slot.symm).2
  obtain ⟨_, temp, fh, _⟩ := lasting.flushed.fileSlot (m.files g).metaSlot
  rw [← slot] at temp fh
  cases coherent.consistent.rep f (coherent.registered.bound remains.1) with
  | empty none only => exact .empty (size.trans none) (entries.trans only)
  | backed b positive only backs =>
    have block : m.fileBlockMetas b = s.fileBlockMetas b :=
      (booted.fileBlockMetas b fun _ _ => (lasting.lists remains only).1.2.2).trans (lasting.flushed.fileBlockSlot b)
    refine .backed b (size ▸ positive) (entries.trans only) ?_
    rw [block]
    exact
      { used := backs.used
        fileCut := backs.fileCut
        fh := by rw [same, ← slot, fh]; exact backs.fh
        isTemp := by rw [same, ← slot, temp]; exact backs.isTemp
        covers := by rw [size]; exact backs.covers
        bounded := backs.bounded }

/-- A mounted file holds what the file held that it was, so the accounts of the mounted device balance
where nothing that is free now was held. -/
theorem Lasting.inherits {stock free free' lost : Multiset Nat} {held held' : FilePtr → Multiset Nat}
    (ledger : Ledger.Balanced stock free (Finset.range s.nextFile) held lost) (nodup : stock.Nodup)
    (same : ∀ f, s.Remains f → ∀ g < m.nextFile, (m.files g).metaSlot = (s.files f).metaSlot → held' g = held f)
    (once : free'.Nodup) (inside : ∀ a ∈ free', a ∈ stock) (given : ∀ f, s.Remains f → ∀ a ∈ held f, a ∉ free') :
    ∃ lost, Ledger.Balanced stock free' (Finset.range m.nextFile) held' lost := by
  obtain ⟨_, coherent⟩ := lasting.coherent
  have twin (g : FilePtr) (owner : g ∈ Finset.range m.nextFile) : ∃ f, s.Remains f ∧ f ∈ Finset.range s.nextFile ∧
      (s.files f).metaSlot = (m.files g).metaSlot ∧ held' g = held f := by
    have bound := Finset.mem_range.mp owner
    obtain ⟨f, remains, slot, _⟩ := lasting.origin booted bound
    exact ⟨f, remains, Finset.mem_range.mpr (coherent.registered.bound remains.1), slot,
      same f remains g bound slot.symm⟩
  refine Ledger.exists_balanced once inside (fun g owner => ?_) (fun g owner a member => ?_)
    fun g owner g' owner' a member member' => ?_
  · obtain ⟨f, _, owner', _, holds⟩ := twin g owner
    rw [holds]
    exact ledger.holding_nodup nodup owner'
  · obtain ⟨f, remains, owner', _, holds⟩ := twin g owner
    rw [holds] at member
    exact ⟨Multiset.mem_of_le (ledger.holding_le owner') member, given f remains a member⟩
  · obtain ⟨f, _, below, slot, holds⟩ := twin g owner
    obtain ⟨f', _, below', slot', holds'⟩ := twin g' owner'
    rw [holds] at member
    rw [holds'] at member'
    obtain rfl := ledger.owner_unique nodup below below' member member'
    exact booted.filesApart g (Finset.mem_range.mp owner) g' (Finset.mem_range.mp owner') (slot.symm.trans slot')

omit [Crc32] lasting booted in
/-- What is listed as free has a slot that is not in use. -/
theorem not_mem_free {count i : Nat} {used : Nat → Bool} (inUse : used i = true) :
    i ∉ (((List.range' 0 count).filter fun i => !used i : List Nat) : Multiset Nat) := by
  intro member
  have unused := (List.mem_filter.mp (Multiset.mem_coe.mp member)).2
  rw [inUse] at unused
  exact Bool.noConfusion unused

omit [Crc32] lasting booted in
theorem free_nodup (count : Nat) (used : Nat → Bool) :
    (((List.range' 0 count).filter fun i => !used i : List Nat) : Multiset Nat).Nodup :=
  Multiset.coe_nodup.mpr (List.Nodup.filter _ List.nodup_range')

omit [Crc32] lasting booted in
theorem mem_range_of_free {count i : Nat} {used : Nat → Bool}
    (member : i ∈ (((List.range' 0 count).filter fun i => !used i : List Nat) : Multiset Nat)) :
    i ∈ Multiset.range count :=
  Multiset.mem_range.mpr (mem_slots.mp (List.mem_of_mem_filter (Multiset.mem_coe.mp member)))

theorem Lasting.booted_handles : ∃ lost, Ledger.Balanced (Multiset.range kMaxFileNum) m.freeFhs
    (Finset.range m.nextFile) (fun g => {(m.files g).metaSlot}) lost := by
  obtain ⟨lost, coherent⟩ := lasting.coherent
  have free := booted.freeFhs
  rw [lasting.flushed.superMeta, coherent.consistent.layout.1] at free
  rw [free]
  refine lasting.inherits booted coherent.consistent.handles (Multiset.nodup_range _)
    (fun f _ g _ slot => congrArg _ slot) (free_nodup _ _) (fun _ => mem_range_of_free) fun f remains x member => ?_
  obtain rfl := Multiset.mem_singleton.mp member
  exact not_mem_free (lasting.boards.mpr ⟨f, remains, rfl⟩).2.1

theorem Lasting.booted_fileBlocks : ∃ lost, Ledger.Balanced (Multiset.range 133554) m.freeFbhs
    (Finset.range m.nextFile) (fun g => (m.attached g : Multiset Nat)) lost := by
  obtain ⟨lost, coherent⟩ := lasting.coherent
  have free := booted.freeFbhs
  rw [lasting.flushed.superMeta, coherent.consistent.layout.2.1] at free
  rw [free]
  refine lasting.inherits booted coherent.consistent.fileBlocks (Multiset.nodup_range _)
    (fun f remains g bound slot => ?_) (free_nodup _ _) (fun _ => mem_range_of_free) fun f remains b member => ?_
  · rw [attached, attached, lasting.booted_entries booted remains bound slot]
  · cases coherent.consistent.rep f (coherent.registered.bound remains.1) with
    | empty _ none => simp [attached, none] at member
    | backed c _ entries _ =>
      obtain rfl : b = c := by simpa [attached, entries] using member
      exact not_mem_free (lasting.lists remains entries).1.2.1

theorem Lasting.booted_blocks : ∃ lost, Ledger.Balanced (Multiset.range m.maxBlockNum) m.blockIdPool
    (Finset.range m.nextFile) (fun g => (m.blockIds g : Multiset Nat)) lost := by
  obtain ⟨lost, coherent⟩ := lasting.coherent
  have pool := (lasting.survived booted).pool
  have count : m.maxBlockNum = s.maxBlockNum := by
    rw [booted.maxBlockNum, Disk.blockNum, lasting.flushed.superMeta, coherent.consistent.layout.2.2.2.2.1]
  rw [count]
  refine lasting.inherits booted coherent.consistent.blocks (Multiset.nodup_range _)
    (fun f remains g bound slot => ?_) (Multiset.coe_nodup.mpr booted.once) (fun id member => ?_)
    fun f remains id member listed => ?_
  · rw [lasting.booted_blockIds booted remains bound slot]
  · exact Multiset.mem_range.mpr ((pool id).mp (Multiset.mem_coe.mp member)).1
  · exact ((pool id).mp (Multiset.mem_coe.mp listed)).2 f remains (Multiset.mem_coe.mp member)

/-- The accounts of the mounted device balance; the slots of temporary files are in none of them. -/
theorem Lasting.booted_consistent : ∃ lost, Consistent m lost := by
  obtain ⟨lost, coherent⟩ := lasting.coherent
  have consistent := coherent.consistent
  obtain ⟨fhs, handles⟩ := lasting.booted_handles booted
  obtain ⟨fbhs, fileBlocks⟩ := lasting.booted_fileBlocks booted
  obtain ⟨ids, blocks⟩ := lasting.booted_blocks booted
  have size : m.disk.size = s.disk.size := by rw [booted.disk]
  have super := booted.superMeta.trans lasting.flushed.superMeta
  exact ⟨⟨fhs, fbhs, ids⟩,
    { super := by rw [super, size, consistent.super]
      large := by rw [size]; exact consistent.large
      count := by
        rw [booted.maxBlockNum, Disk.blockNum, lasting.flushed.superMeta, consistent.layout.2.2.2.2.1, size,
          consistent.count]
      parents := booted.parentFiles
      slots := fun i => by
        have own : (s.disk.fileMetas i).fh = i := by rw [(lasting.flushed.fileSlot i).2.2.1, consistent.slots]
        rcases booted.fileSlot i with ⟨same, _⟩ | cleared
        · rw [same, own]
        · rw [cleared]
          exact own
      handles := handles
      fileBlocks := fileBlocks
      blocks := blocks
      cleanFhs := fun i free => by
        rw [booted.freeFhs, List.mem_filter, Bool.not_eq_true'] at free
        have same := booted.fileMetas i fun _ used => absurd (free.2.symm.trans used) Bool.false_ne_true
        have unused : (m.fileMetas i).used = false := by rw [same, free.2]
        exact ⟨unused, (lasting.booted_tidy booted).blank i unused⟩
      cleanFbhs := fun b free => by
        rw [booted.freeFbhs, List.mem_filter, Bool.not_eq_true'] at free
        have same := booted.fileBlockMetas b fun _ used => absurd (free.2.symm.trans used) Bool.false_ne_true
        have unused : (m.fileBlockMetas b).used = false := by rw [same, free.2]
        exact ⟨unused, (lasting.booted_tidy booted).empty b unused⟩
      rep := fun _ bound => lasting.booted_rep booted bound }⟩

/-- What the mount of a device that lasts leaves will last. -/
theorem Lasting.reborn : Lasting m where
  coherent := by
    obtain ⟨lost, consistent⟩ := lasting.booted_consistent booted
    exact ⟨lost,
      { consistent := consistent
        registered := lasting.booted_registered booted
        housed := lasting.booted_housed booted
        placed := fun _ _ entry => lasting.booted_placed booted entry
        alive := fun _ known => lasting.booted_alive booted known }⟩
  indexed := lasting.booted_indexed booted
  flushed := lasting.booted_flushed booted
  tenanted := lasting.booted_tenanted booted
  tidy := lasting.booted_tidy booted
  nested := lasting.booted_nested booted

end Reborn

section Sessions
variable [Crc32] {s : FileSystem}

/-- One call of a session, or the end of it and the next mount of the device. -/
inductive SessionEvent
  | call (e : Event)
  | remount (env : Env)

def SessionEvent.Step (s : FileSystem) : SessionEvent → FileSystem → Prop
  | .call e, s' => FileSystem.Step s e s'
  | .remount env, s' => mountFileSystem env s.disk = .ok (s', 0)

/-- The I/O succeeds, and calls are such that the device keeps up. -/
def SessionEvent.Allowed (s : FileSystem) : SessionEvent → Prop
  | .call e => e.env.IoOk ∧ s.LastingCall e.op
  | .remount env => env.IoOk

/-- The states of a device over any number of sessions, from the first mount behind its format. -/
def Lived : FileSystem → Prop := Transition.Reaches FreshlyMounted SessionEvent.Allowed SessionEvent.Step

/-- What lasts is kept by the calls and by the mounts. -/
theorem Lived.lasting (lived : Lived s) : Lasting s := by
  refine lived.invariant Lasting (fun s fresh => ?_) fun s e s' lasting allowed taken => ?_
  · obtain ⟨d, env, attempts, rfl, large⟩ := fresh.eq_mounted
    exact lasting_mounted env attempts large
  · cases e with
    | call e =>
      obtain ⟨r, result⟩ := FileSystem.Step.call taken
      exact lasting.call allowed.1 allowed.2 result
    | remount env => exact lasting.reborn (mountFileSystem_booted lasting.regular allowed taken)

/-- The states of one session are among them. -/
theorem Reachable.lived (reach : Reachable (fun s op => s.LastingCall op) s) : Lived s :=
  reach.map id (fun _ e => .call e) (fun _ fresh => fresh) fun _ _ _ allowed taken => ⟨allowed, taken⟩

omit [Crc32] in
/-- A session in which a file grows, is cut and gets another name. -/
theorem exists_renamed : ∃ s : FileSystem, @Lived zeroCrc s ∧ s.blockIds 0 = [0, 3] ∧
    s.getCreatedFile ['/', 'd', '/', 'b'] = .ok 0 ∧ (s.fileMeta 0).isTemp = false ∧ (s.fileMeta 0).size = 6291456 := by
  let _ := zeroCrc
  obtain ⟨s, reach, ends⟩ := Reachable.exists_run
    [.mkdir ['/', 'd'], .openFile ['/', 'a'] 0o102, .truncateFd 0 12582912, .truncateFd 0 6291456,
      .rename ['/', 'a'] ['/', 'd', '/', 'b']]
    (fun s => s.blockIds 0 = [0, 3] ∧ s.getCreatedFile ['/', 'd', '/', 'b'] = .ok 0 ∧
      (s.fileMeta 0).isTemp = false ∧ (s.fileMeta 0).size = 6291456)
    (freshDevice_fresh 8 fun _ => 0) steadyEnv_ok isLastingCall_sound (by decide +kernel)
  exact ⟨s, reach.lived, ends⟩

/-- In every state the device mirrors the memory: both copies of every slot bear their checksums and
agree but for the times, and every slot a mount will see is one of this version. -/
theorem Lived.mirrors (lived : Lived s) : Flushed s := lived.lasting.flushed

omit [Crc32] in
/-- The file lies on the device as it does in memory. -/
theorem Lived.mirrors_renamed : ∃ s : FileSystem, s.blockIds 0 = [0, 3] ∧ @Flushed zeroCrc s := by
  obtain ⟨s, lived, ids, _⟩ := exists_renamed
  exact ⟨s, ids, @Lived.mirrors zeroCrc s lived⟩

/-- Over any number of sessions, the device can be mounted again in every state, and the mount finds
its directories, its files and their bytes. -/
theorem Lived.remounts (lived : Lived s) {env : Env} (ok : env.IoOk) :
    ∃ m, mountFileSystem env s.disk = .ok (m, 0) ∧ Survived s m := by
  have lasting := lived.lasting
  obtain ⟨m, done⟩ := (mountFileSystem_iff lasting.regular ok).mpr lasting.bootable
  exact ⟨m, done, lasting.survived (mountFileSystem_booted lasting.regular ok done)⟩

omit [Crc32] in
/-- The file is there after two more mounts. -/
theorem Lived.remounts_renamed : ∃ (s m n : FileSystem) (g : FilePtr), s.blockIds 0 = [0, 3] ∧
    @mountFileSystem zeroCrc steadyEnv s.disk = .ok (m, 0) ∧ @mountFileSystem zeroCrc steadyEnv m.disk = .ok (n, 0) ∧
      n.getCreatedFile ['/', 'd', '/', 'b'] = .ok g ∧ (n.fileMeta g).size = 6291456 := by
  let _ := zeroCrc
  obtain ⟨s, lived, ids, found, stays, size⟩ := exists_renamed
  obtain ⟨m, done, survived⟩ := lived.remounts steadyEnv_ok
  obtain ⟨f, there, stays', size', _⟩ := survived.files _ 0 found stays
  have again : Lived m := .next lived (show SessionEvent.Allowed s (.remount steadyEnv) from steadyEnv_ok) done
  obtain ⟨n, done', survived'⟩ := again.remounts steadyEnv_ok
  obtain ⟨g, there', _, size'', _⟩ := survived'.files _ f there stays'
  exact ⟨s, m, n, g, ids, done, done', there', size''.trans (size'.trans size)⟩

end Sessions

end BlockFs.FileSystem
