import BlockFs.Lasting
import BlockFs.Contents

namespace BlockFs.FileSystem

section Image
variable [Crc32] {s m : FileSystem} {lost : Lost} {env : Env} {f g : FilePtr} {b : FileBlockPtr} {i x : Nat}

/-- What a mount reads of a directory slot is what is in memory. -/
theorem Flushed.dirSlot (flushed : Flushed s) (i : Nat) : (s.disk.dirMetas i).used = (s.dirMetas i).used ∧
    (s.disk.dirMetas i).dirName = (s.dirMetas i).dirName ∧ (s.disk.dirMetas i).dh = (s.dirMetas i).dh := by
  have same := flushed.dirs.same i (Set.notMem_empty i)
  have used := congrArg DirMeta.used same
  have dirName := congrArg DirMeta.dirName same
  have dh := congrArg DirMeta.dh same
  exact ⟨used, dirName, dh⟩

/-- What a mount reads of a file slot is what is in memory. -/
theorem Flushed.fileSlot (flushed : Flushed s) (x : Nat) : (s.disk.fileMetas x).used = (s.fileMetas x).used ∧
    (s.disk.fileMetas x).isTemp = (s.fileMetas x).isTemp ∧ (s.disk.fileMetas x).fh = (s.fileMetas x).fh ∧
    (s.disk.fileMetas x).key = (s.fileMetas x).key ∧ (s.disk.fileMetas x).size = (s.fileMetas x).size := by
  have same := flushed.files.same x (Set.notMem_empty x)
  have used := congrArg FileMeta.used same
  have isTemp := congrArg FileMeta.isTemp same
  have fh := congrArg FileMeta.fh same
  have key := congrArg FileMeta.key same
  have size := congrArg FileMeta.size same
  exact ⟨used, isTemp, fh, key, size⟩

theorem Flushed.fileBlockSlot (flushed : Flushed s) (b : FileBlockPtr) :
    s.disk.fileBlockMetas b = s.fileBlockMetas b := flushed.fileBlocks.same b (Set.notMem_empty b)

/-- The layout is that of the format. -/
theorem Consistent.layout (consistent : Consistent s lost) : s.superMeta.maxFileNum = kMaxFileNum ∧
    s.superMeta.maxFileBlockNum = 133554 ∧ s.superMeta.blockDataStartOffset = 675282944 ∧
    s.superMeta.magic = kBlockFsMagic ∧ s.superMeta.currBlockNum % 2 ^ 32 = s.maxBlockNum ∧
    s.superMeta.crc = s.superMeta.calcCrc := by
  rw [consistent.super, consistent.count]
  exact ⟨rfl, rfl, rfl, rfl, rfl, rfl⟩

/-- The slot of a file and its file blocks are in their tables. -/
theorem Consistent.slot_lt (consistent : Consistent s lost) (bound : f < s.nextFile) :
    (s.files f).metaSlot < kMaxFileNum :=
  Multiset.mem_range.mp (Multiset.mem_of_le (consistent.handles.holding_le (Finset.mem_range.mpr bound))
    (Multiset.mem_singleton_self _))

theorem Consistent.fileBlock_lt (consistent : Consistent s lost) (bound : f < s.nextFile) (member : b ∈ s.attached f) :
    b < 133554 :=
  Multiset.mem_range.mp (Multiset.mem_of_le (consistent.fileBlocks.holding_le (Finset.mem_range.mpr bound))
    (Multiset.mem_coe.mpr member))

/-- A file that outlives the process. -/
def Remains (s : FileSystem) (f : FilePtr) : Prop := s.IsRegistered f ∧ (s.fileMeta f).isTemp = false

section Lasting
variable (lasting : Lasting s)
include lasting

/-- The slots of directories on the image are those of the directories there are. -/
theorem Lasting.seats : s.disk.Seats i ↔ ∃ d, s.createdDhs.lookup i = some d := by
  obtain ⟨lost, coherent⟩ := lasting.coherent
  have layout := coherent.consistent.layout.1
  rw [Disk.Seats, lasting.flushed.superMeta, layout, (lasting.flushed.dirSlot i).1, lasting.nested.used,
    Option.isSome_iff_exists]
  constructor
  · rintro ⟨_, found⟩
    exact found
  · rintro ⟨d, found⟩
    exact ⟨lasting.nested.bounded i (.inr (Option.isSome_iff_exists.mpr ⟨d, found⟩)), d, found⟩

theorem Lasting.seat_of_path {p : Name} {d : DirectoryPtr} (found : s.createdDirs.lookup p = some d) :
    s.disk.Seats (s.directories d).metaSlot ∧ (s.disk.dirMetas (s.directories d).metaSlot).dirName = p := by
  obtain ⟨lost, coherent⟩ := lasting.coherent
  obtain ⟨named, entered⟩ := coherent.housed.named p d found
  refine ⟨lasting.seats.mpr ⟨d, entered⟩, ?_⟩
  rw [(lasting.flushed.dirSlot _).2.1]
  exact named

theorem Lasting.path_of_seat (seats : s.disk.Seats i) :
    ∃ d, s.createdDirs.lookup (s.disk.dirMetas i).dirName = some d ∧ (s.directories d).metaSlot = i := by
  obtain ⟨lost, coherent⟩ := lasting.coherent
  obtain ⟨d, entered⟩ := lasting.seats.mp seats
  obtain ⟨_, slot⟩ := coherent.housed.handles i d entered
  have path := coherent.housed.pathed i d entered
  refine ⟨d, ?_, slot⟩
  rwa [dirMeta, slot, ← (lasting.flushed.dirSlot i).2.1] at path

/-- The slots of lasting files on the image are those of the files that remain. -/
theorem Lasting.boards : s.disk.Boards x ↔ ∃ f, s.Remains f ∧ (s.files f).metaSlot = x := by
  obtain ⟨lost, coherent⟩ := lasting.coherent
  have layout := coherent.consistent.layout.1
  obtain ⟨used, isTemp, _⟩ := lasting.flushed.fileSlot x
  rw [Disk.Boards, lasting.flushed.superMeta, layout, used, isTemp]
  constructor
  · rintro ⟨_, inUse, stays⟩
    obtain ⟨f, here, slot⟩ := lasting.tenanted x inUse
    exact ⟨f, ⟨here, by rw [fileMeta, slot]; exact stays⟩, slot⟩
  · rintro ⟨f, ⟨here, stays⟩, rfl⟩
    have alive := coherent.alive f (.inr ⟨_, lasting.indexed.named f here⟩)
    exact ⟨coherent.consistent.slot_lt (coherent.registered.bound here), alive, stays⟩

/-- A listing slot of the image is the only file block of a file that remains. -/
theorem Lasting.backed (lists : s.disk.Lists b) :
    ∃ f, s.Remains f ∧ (s.files f).itemMaps.entries = [⟨0, b⟩] ∧ Backs (s.fileBlockMetas b) (s.fileMeta f) := by
  obtain ⟨lost, coherent⟩ := lasting.coherent
  obtain ⟨_, used, stays⟩ := lists
  rw [lasting.flushed.fileBlockSlot] at used stays
  obtain ⟨f, bound, member⟩ := lasting.tidy.leased b used
  have here := coherent.registered.held f bound (List.ne_nil_of_mem member)
  cases coherent.consistent.rep f bound with
  | empty _ none => simp [attached, none] at member
  | backed c _ entries backs =>
    obtain rfl : b = c := by simpa [attached, entries] using member
    exact ⟨f, ⟨here, backs.isTemp ▸ stays⟩, entries, backs⟩

/-- The file block of a file that remains is a listing slot of the image. -/
theorem Lasting.lists (remains : s.Remains f) (entries : (s.files f).itemMaps.entries = [⟨0, b⟩]) :
    s.disk.Lists b ∧ (s.disk.fileBlockMetas b).fh = (s.files f).metaSlot ∧ (s.disk.fileBlockMetas b).fileCut = 0 := by
  obtain ⟨lost, coherent⟩ := lasting.coherent
  have bound := coherent.registered.bound remains.1
  obtain ⟨_, backs⟩ := (coherent.consistent.rep f bound).of_entries entries
  have small : b < s.disk.superMeta.maxFileBlockNum := by
    rw [lasting.flushed.superMeta, coherent.consistent.layout.2.1]
    exact coherent.consistent.fileBlock_lt bound (by simp [attached, entries])
  rw [Disk.Lists, lasting.flushed.fileBlockSlot]
  exact ⟨⟨small, backs.used, backs.isTemp.trans remains.2⟩, backs.fh.trans (coherent.consistent.slots _), backs.fileCut⟩

/-- The first file block of a file on the image is the one it has. -/
theorem Lasting.firstAt (remains : s.Remains f) {cut : Nat} :
    s.disk.FirstAt (List.range' 0 s.disk.superMeta.maxFileBlockNum) (s.files f).metaSlot cut b ↔
      (s.files f).itemMaps.lookup cut = some b := by
  obtain ⟨lost, coherent⟩ := lasting.coherent
  have mine {c : FileBlockPtr} (lists : s.disk.Lists c) (owner : (s.disk.fileBlockMetas c).fh = (s.files f).metaSlot) :
      (s.files f).itemMaps.entries = [⟨0, c⟩] ∧ (s.disk.fileBlockMetas c).fileCut = 0 := by
    obtain ⟨g, there, entries, backs⟩ := lasting.backed lists
    rw [lasting.flushed.fileBlockSlot] at owner ⊢
    have slot : (s.files g).metaSlot = (s.files f).metaSlot :=
      (coherent.consistent.slots _).symm.trans (backs.fh.symm.trans owner)
    have entered := there.1
    rw [IsRegistered, slot, show s.createdFhs.lookup _ = _ from remains.1] at entered
    obtain rfl := Option.some.inj entered
    exact ⟨entries, backs.fileCut⟩
  constructor
  · rintro ⟨⟨_, lists, owner, at_⟩, _⟩
    obtain ⟨entries, start⟩ := mine lists owner
    rw [← at_, start]
    exact AList.mem_lookup_iff.mpr (by simp [entries])
  · intro found
    have member := AList.mem_lookup_iff.mp found
    cases coherent.consistent.rep f (coherent.registered.bound remains.1) with
    | empty _ none => simp [none] at member
    | backed c _ entries _ =>
      obtain ⟨rfl, rfl⟩ : cut = 0 ∧ b = c := by simpa [entries] using member
      obtain ⟨lists, owner, start⟩ := lasting.lists remains entries
      refine ⟨⟨mem_slots.mpr lists.1, lists, owner, start⟩, fun c' _ lists' owner' _ => ?_⟩
      have same : b = c' := by simpa using entries.symm.trans (mine lists' owner').1
      exact same.le

theorem Lasting.regular : s.disk.Regular where
  fileMetaSize := by rw [lasting.flushed.superMeta, lasting.flushed.fileMetaSize]
  temps x _ _ _ := by
    obtain ⟨lost, coherent⟩ := lasting.coherent
    rw [(lasting.flushed.fileSlot x).2.2.1, coherent.consistent.slots]
  rooted := by
    obtain ⟨d, found⟩ := Option.isSome_iff_exists.mp lasting.nested.root
    exact ⟨_, lasting.seat_of_path found⟩

/-- The directories on the image have a path of their own and a parent. -/
theorem Lasting.furnished : s.disk.Furnished where
  intact i _ := lasting.flushed.dirs.device_good i (Set.notMem_empty i)
  named i seats := by
    obtain ⟨d, found, _⟩ := lasting.path_of_seat seats
    exact lasting.nested.named _ d found
  own i _ := by
    obtain ⟨lost, coherent⟩ := lasting.coherent
    rw [(lasting.flushed.dirSlot i).2.2, coherent.housed.slots]
  distinct i seats j seats' same := by
    obtain ⟨d, found, slot⟩ := lasting.path_of_seat seats
    obtain ⟨d', found', slot'⟩ := lasting.path_of_seat seats'
    rw [same, found'] at found
    obtain rfl := Option.some.inj found
    exact slot.symm.trans slot'
  parent i seats inner := by
    obtain ⟨d, found, _⟩ := lasting.path_of_seat seats
    obtain ⟨q, above, _⟩ := lasting.nested.parented _ d found fun root => by simp [root, isMountPoint] at inner
    exact ⟨_, lasting.seat_of_path above⟩

/-- The files on the image have a name, their own handle and a directory. -/
theorem Lasting.manned : s.disk.Manned where
  intact x _ := (lasting.flushed.files.device_good x (Set.notMem_empty x)).1
  named x boards := ((lasting.flushed.files.device_good x (Set.notMem_empty x)).2.2 boards.2.1).1
  own x _ := by
    obtain ⟨lost, coherent⟩ := lasting.coherent
    rw [(lasting.flushed.fileSlot x).2.2.1, coherent.consistent.slots]
  home x boards :=
    lasting.seats.mpr (Option.isSome_iff_exists.mp
      ((lasting.flushed.files.device_good x (Set.notMem_empty x)).2.2 boards.2.1).2)

omit lasting [Crc32] in
/-- A file with one file block has the blocks that block lists. -/
theorem blockIds_of_entries (entries : (s.files f).itemMaps.entries = [⟨0, b⟩]) :
    s.blockIds f = (s.fileBlockMetas b).ids := by
  simp [blockIds, attached, entries]

/-- The file blocks on the image belong to a file and list blocks that exist, each of them once. -/
theorem Lasting.laden : s.disk.Laden where
  intact i _ := lasting.flushed.fileBlocks.device_good i (Set.notMem_empty i)
  owned b lists := by
    obtain ⟨lost, coherent⟩ := lasting.coherent
    obtain ⟨f, remains, _, backs⟩ := lasting.backed lists
    rw [lasting.flushed.fileBlockSlot, backs.fh, fileMeta, coherent.consistent.slots]
    exact lasting.boards.mpr ⟨f, remains, rfl⟩
  fits b lists := by
    obtain ⟨f, _, _, backs⟩ := lasting.backed lists
    rw [lasting.flushed.fileBlockSlot]
    exact backs.bounded
  distinct b lists := by
    obtain ⟨lost, coherent⟩ := lasting.coherent
    obtain ⟨f, remains, entries, _⟩ := lasting.backed lists
    rw [lasting.flushed.fileBlockSlot, ← blockIds_of_entries entries]
    exact Multiset.coe_nodup.mp (coherent.consistent.blocks.holding_nodup (Multiset.nodup_range _)
      (Finset.mem_range.mpr (coherent.registered.bound remains.1)))
  counted b lists id member := by
    obtain ⟨lost, coherent⟩ := lasting.coherent
    obtain ⟨f, remains, entries, _⟩ := lasting.backed lists
    rw [lasting.flushed.fileBlockSlot, ← blockIds_of_entries entries] at member
    rw [Disk.blockNum, lasting.flushed.superMeta, coherent.consistent.layout.2.2.2.2.1]
    exact Multiset.mem_range.mp (Multiset.mem_of_le (coherent.consistent.blocks.holding_le
      (Finset.mem_range.mpr (coherent.registered.bound remains.1))) (Multiset.mem_coe.mpr member))
  apart b lists c lists' distinct id member member' := by
    obtain ⟨lost, coherent⟩ := lasting.coherent
    obtain ⟨f, remains, entries, _⟩ := lasting.backed lists
    obtain ⟨g, remains', entries', _⟩ := lasting.backed lists'
    rw [lasting.flushed.fileBlockSlot, ← blockIds_of_entries entries] at member
    rw [lasting.flushed.fileBlockSlot, ← blockIds_of_entries entries'] at member'
    -- a block that both list is held by one file, which has one file block
    obtain rfl : f = g := coherent.consistent.blocks.owner_unique (Multiset.nodup_range _)
      (Finset.mem_range.mpr (coherent.registered.bound remains.1))
      (Finset.mem_range.mpr (coherent.registered.bound remains'.1)) (Multiset.mem_coe.mpr member)
      (Multiset.mem_coe.mpr member')
    exact distinct (by simpa using entries.symm.trans entries')

/-- A device that lasts can be mounted. -/
theorem Lasting.bootable : s.disk.Bootable := by
  obtain ⟨lost, coherent⟩ := lasting.coherent
  obtain ⟨_, _, start, magic, _, intact⟩ := coherent.consistent.layout
  have super := lasting.flushed.superMeta
  exact
    { intact := by rw [super]; exact intact
      magic := by rw [super]; exact magic
      room := by rw [super, start]; exact coherent.consistent.large
      furnished := lasting.furnished
      manned := lasting.manned
      laden := lasting.laden }

end Lasting

end Image

section Booted
variable [Crc32] {s m : FileSystem} {f g : FilePtr} {path : Name}

/-- What the next mount finds of a file system: its directories under their paths, the files that are
not temporary under theirs with their bytes, and all other blocks in the pool. -/
structure Survived (s m : FileSystem) : Prop where
  dirs : ∀ path, (∃ e, m.getCreatedDirectory path = .ok e) ↔ ∃ d, s.getCreatedDirectory path = .ok d
  files : ∀ path f, s.getCreatedFile path = .ok f → (s.fileMeta f).isTemp = false →
    ∃ g, m.getCreatedFile path = .ok g ∧ (m.fileMeta g).isTemp = false ∧
      (m.fileMeta g).size = (s.fileMeta f).size ∧ m.blockIds g = s.blockIds f ∧ ∀ p, m.byteOf g p = s.byteOf f p
  known : ∀ path g, m.getCreatedFile path = .ok g →
    ∃ f, s.getCreatedFile path = .ok f ∧ (s.fileMeta f).isTemp = false
  pool : ∀ id, id ∈ m.blockIdPool ↔ id < s.maxBlockNum ∧ ∀ f, s.Remains f → id ∉ s.blockIds f

/-- The directories of `s` are those of `t` under the same slots. -/
def Follows (s t : FileSystem) : Prop := ∀ p d, s.createdDirs.lookup p = some d →
  ∃ e, t.createdDirs.lookup p = some e ∧ (t.directories e).metaSlot = (s.directories d).metaSlot

omit [Crc32] in
theorem Follows.getCreatedDirectory {t : FileSystem} {d : DirectoryPtr} (follows : Follows s t)
    (found : s.getCreatedDirectory path = .ok d) :
    ∃ e, t.getCreatedDirectory path = .ok e ∧ (t.directories e).metaSlot = (s.directories d).metaSlot := by
  cases parts : DirHandle.transformPath path with
  | error e =>
    rw [FileSystem.getCreatedDirectory, parts] at found
    cases found
  | ok name =>
    obtain ⟨e, entry, slot⟩ := follows name d ((getCreatedDirectory_eq parts).mp found)
    exact ⟨e, (getCreatedDirectory_eq parts).mpr entry, slot⟩

variable (lasting : Lasting s) (booted : Booted s.disk m)
include lasting booted

theorem Lasting.dirs_booted : Follows s m := by
  intro p d found
  obtain ⟨seats, name⟩ := lasting.seat_of_path found
  obtain ⟨e, bound, slot⟩ := (booted.directories _).mpr seats
  have path : (s.disk.dirMetas (m.directories e).metaSlot).dirName = p := by rw [slot, name]
  exact ⟨e, (booted.paths p e).mpr ⟨bound, path⟩, slot⟩

theorem Lasting.booted_dirs : Follows m s := by
  intro p e found
  obtain ⟨bound, name⟩ := (booted.paths p e).mp found
  obtain ⟨d, entered, slot⟩ := lasting.path_of_seat ((booted.directories _).mp ⟨e, bound, rfl⟩)
  have path : (s.disk.dirMetas (m.directories e).metaSlot).dirName = p := name
  rw [path] at entered
  exact ⟨d, entered, slot⟩

theorem Lasting.booted_dh (e : DirectoryPtr) : (m.dirMeta e).dh = (m.directories e).metaSlot := by
  obtain ⟨lost, coherent⟩ := lasting.coherent
  rw [dirMeta, booted.dirMetas, (lasting.flushed.dirSlot _).2.2, coherent.housed.slots]

/-- A file that remains is entered under the name it has. -/
theorem Lasting.file_booted (remains : s.Remains f) :
    ∃ g < m.nextFile, (m.files g).metaSlot = (s.files f).metaSlot ∧ m.createdFiles.lookup (s.key f) = some g := by
  obtain ⟨g, bound, slot⟩ := (booted.files _).mpr (lasting.boards.mpr ⟨f, remains, rfl⟩)
  have childless := (lasting.flushed.files.device_good (m.files g).metaSlot (Set.notMem_empty _)).2.1
  have key (f : FilePtr) : (s.disk.fileMetas (s.files f).metaSlot).key = s.key f :=
    (lasting.flushed.fileSlot _).2.2.2.1
  have mine : (s.disk.fileMetas (m.files g).metaSlot).key = s.key f := by rw [slot, key]
  refine ⟨g, bound, slot, (booted.names _ g).mpr ⟨⟨bound, childless, mine⟩, fun q small _ same => ?_⟩⟩
  -- whoever else the image lists under this name is the same file
  obtain ⟨f', remains', slot'⟩ := lasting.boards.mp ((booted.files _).mp ⟨q, small, rfl⟩)
  have key' : s.key f' = s.key f := by
    rw [← key f', slot']
    exact same
  have named := lasting.indexed.named f' remains'.1
  rw [key', lasting.indexed.named f remains.1] at named
  obtain rfl := Option.some.inj named
  exact (booted.filesApart q small g bound (slot'.symm.trans slot.symm)).le

theorem Lasting.booted_file {K : Nat × Name} (found : m.createdFiles.lookup K = some g) :
    ∃ f, s.Remains f ∧ s.key f = K := by
  obtain ⟨⟨bound, _, key⟩, _⟩ := (booted.names K g).mp found
  obtain ⟨f, remains, slot⟩ := lasting.boards.mp ((booted.files _).mp ⟨g, bound, rfl⟩)
  have same : (s.disk.fileMetas (s.files f).metaSlot).key = s.key f := (lasting.flushed.fileSlot _).2.2.2.1
  refine ⟨f, remains, ?_⟩
  rw [← same, slot]
  exact key

/-- A file that remains has the file blocks it had. -/
theorem Lasting.booted_entries (remains : s.Remains f) (bound : g < m.nextFile)
    (slot : (m.files g).metaSlot = (s.files f).metaSlot) :
    (m.files g).itemMaps.entries = (s.files f).itemMaps.entries := by
  obtain ⟨lost, coherent⟩ := lasting.coherent
  have perm : (m.files g).itemMaps.entries.Perm (s.files f).itemMaps.entries := by
    refine List.lookup_ext (m.files g).itemMaps.nodupKeys (s.files f).itemMaps.nodupKeys fun c b => ?_
    change (m.files g).itemMaps.lookup c = some b ↔ (s.files f).itemMaps.lookup c = some b
    rw [booted.stored, slot, lasting.firstAt remains]
    exact and_iff_right bound
  cases coherent.consistent.rep f (coherent.registered.bound remains.1) with
  | empty _ none =>
    rw [none] at perm ⊢
    exact perm.eq_nil
  | backed b _ entries _ =>
    rw [entries] at perm ⊢
    exact List.perm_singleton.mp perm

theorem Lasting.booted_blockIds (remains : s.Remains f) (bound : g < m.nextFile)
    (slot : (m.files g).metaSlot = (s.files f).metaSlot) : m.blockIds g = s.blockIds f := by
  obtain ⟨lost, coherent⟩ := lasting.coherent
  have same := lasting.booted_entries booted remains bound slot
  cases coherent.consistent.rep f (coherent.registered.bound remains.1) with
  | empty _ none => simp [blockIds, attached, same, none]
  | backed b _ entries _ =>
    have block := booted.fileBlockMetas b fun _ _ => (lasting.lists remains entries).1.2.2
    rw [blockIds_of_entries entries, blockIds_of_entries (same.trans entries), block, lasting.flushed.fileBlockSlot]

theorem Lasting.booted_byteOf (remains : s.Remains f) (bound : g < m.nextFile)
    (slot : (m.files g).metaSlot = (s.files f).metaSlot) (p : Nat) : m.byteOf g p = s.byteOf f p := by
  have data : m.disk.data = s.disk.data := by rw [booted.disk]
  rw [byteOf, byteOf, placeOf, placeOf, lasting.booted_blockIds booted remains bound slot, data, devOffset, devOffset,
    booted.superMeta, lasting.flushed.superMeta]

theorem Lasting.booted_fileMeta (remains : s.Remains f) (slot : (m.files g).metaSlot = (s.files f).metaSlot) :
    (m.fileMeta g).isTemp = false ∧ (m.fileMeta g).size = (s.fileMeta f).size := by
  obtain ⟨_, _, stays⟩ := lasting.boards.mpr ⟨f, remains, rfl⟩
  have same := booted.fileMetas (s.files f).metaSlot fun _ _ => stays
  rw [fileMeta, slot, same]
  exact ⟨stays, (lasting.flushed.fileSlot _).2.2.2.2⟩

/-- The next mount finds what was there. -/
theorem Lasting.survived : Survived s m := by
  obtain ⟨lost, coherent⟩ := lasting.coherent
  have dh (e : DirectoryPtr) := lasting.booted_dh booted e
  constructor
  · intro path
    constructor
    · rintro ⟨e, found⟩
      obtain ⟨d, there, _⟩ := (lasting.booted_dirs booted).getCreatedDirectory found
      exact ⟨d, there⟩
    · rintro ⟨d, found⟩
      obtain ⟨e, there, _⟩ := (lasting.dirs_booted booted).getCreatedDirectory found
      exact ⟨e, there⟩
  · intro path f found stays
    obtain ⟨open_, short, d, home, entry⟩ := getCreatedFile_eq_ok.mp found
    obtain ⟨key, here⟩ := coherent.registered.names _ f entry
    obtain ⟨e, there, slot⟩ := (lasting.dirs_booted booted).getCreatedDirectory home
    obtain ⟨g, bound, slot', named⟩ := lasting.file_booted booted ⟨here, stays⟩
    obtain ⟨stays', size⟩ := lasting.booted_fileMeta booted ⟨here, stays⟩ slot'
    refine ⟨g, getCreatedFile_eq_ok.mpr ⟨open_, short, e, there, ?_⟩, stays', size,
      lasting.booted_blockIds booted ⟨here, stays⟩ bound slot', lasting.booted_byteOf booted ⟨here, stays⟩ bound slot'⟩
    rw [dh, slot, ← coherent.housed.dirMeta_dh, key]
    exact named
  · intro path g found
    obtain ⟨open_, short, e, home, entry⟩ := getCreatedFile_eq_ok.mp found
    obtain ⟨f, remains, key⟩ := lasting.booted_file booted entry
    obtain ⟨d, there, slot⟩ := (lasting.booted_dirs booted).getCreatedDirectory home
    refine ⟨f, getCreatedFile_eq_ok.mpr ⟨open_, short, d, there, ?_⟩, remains.2⟩
    rw [coherent.housed.dirMeta_dh, slot, ← dh, ← key]
    exact lasting.indexed.named f remains.1
  · intro id
    rw [booted.pool, Disk.blockNum, lasting.flushed.superMeta, coherent.consistent.layout.2.2.2.2.1]
    refine and_congr_right fun _ => ⟨fun unlisted f remains member => ?_, fun free b lists member => ?_⟩
    · cases coherent.consistent.rep f (coherent.registered.bound remains.1) with
      | empty _ none => simp [blockIds, attached, none] at member
      | backed b _ entries _ =>
        rw [blockIds_of_entries entries, ← lasting.flushed.fileBlockSlot] at member
        exact unlisted b (lasting.lists remains entries).1 member
    · obtain ⟨f, remains, entries, _⟩ := lasting.backed lists
      rw [lasting.flushed.fileBlockSlot, ← blockIds_of_entries entries] at member
      exact free f remains member

end Booted

end BlockFs.FileSystem
