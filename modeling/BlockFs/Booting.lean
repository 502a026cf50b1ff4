import BlockFs.Stowing

namespace BlockFs

/-- What a mount asks of an image. -/
structure Disk.Bootable [Crc32] (d : Disk) : Prop where
  intact : d.superMeta.crc = d.superMeta.calcCrc
  magic : d.superMeta.magic = kBlockFsMagic
  room : d.superMeta.blockDataStartOffset ≤ d.size
  furnished : d.Furnished
  manned : d.Manned
  laden : d.Laden

/-- What every image has that this version lays down: its slot size, its own handle in the
slot of every temporary file, and a root. -/
structure Disk.Regular (d : Disk) : Prop where
  fileMetaSize : d.superMeta.fileMetaSize = kBlockFsFileMetaSize
  temps : FileSystem.TempsOwn d
  rooted : ∃ i, d.Seats i ∧ (d.dirMetas i).dirName = ['/']

namespace FileSystem

/-- A mounted device: the directories, files and file blocks in memory are those that the image says
are to last, the free lists and the pool hold the rest, and nothing is open. -/
structure Booted [Crc32] (d : Disk) (m : FileSystem) : Prop where
  dirMetas : m.dirMetas = d.dirMetas
  directories : ∀ i, (∃ p < m.nextDirectory, (m.directories p).metaSlot = i) ↔ d.Seats i
  dirsApart : ∀ p < m.nextDirectory, ∀ q < m.nextDirectory,
    (m.directories p).metaSlot = (m.directories q).metaSlot → p = q
  unlinked : ∀ p, (m.directories p).nlink = 0
  paths : Catalogues m.createdDirs m.nextDirectory fun p => (d.dirMetas (m.directories p).metaSlot).dirName
  dhs : Catalogues m.createdDhs m.nextDirectory fun p => (m.directories p).metaSlot
  children : ∀ p x c, (m.directories p).childDirMaps.lookup x = some c ↔
    c < m.nextDirectory ∧ (m.directories c).metaSlot = x ∧
      isMountPoint (d.dirMetas (m.directories c).metaSlot).dirName = false ∧
      m.createdDirs.lookup (getDirName (d.dirMetas (m.directories c).metaSlot).dirName) = some p
  listed : ∀ p x f, (m.directories p).itemMaps.lookup x = some f ↔
    f < m.nextFile ∧ (m.files f).metaSlot = x ∧
      p < m.nextDirectory ∧ (m.directories p).metaSlot = (d.fileMetas x).dh
  freeDhs : m.freeDhs = (List.range' 0 d.superMeta.maxFileNum).filter fun i => !(d.dirMetas i).used
  files : ∀ x, (∃ f < m.nextFile, (m.files f).metaSlot = x) ↔ d.Boards x
  filesApart : ∀ f < m.nextFile, ∀ g < m.nextFile, (m.files f).metaSlot = (m.files g).metaSlot → f = g
  closed : ∀ f, (m.files f).nlink = 0 ∧ (m.files f).locked = false ∧ (m.files f).deleted = false
  fhs : Catalogues m.createdFhs m.nextFile fun f => (m.files f).metaSlot
  names : KeepsLast m.createdFiles m.nextFile (fun f => (d.fileMetas (m.files f).metaSlot).childFh ≤ 0)
    fun f => (d.fileMetas (m.files f).metaSlot).key
  stored : ∀ f c b, (m.files f).itemMaps.lookup c = some b ↔
    f < m.nextFile ∧ d.FirstAt (List.range' 0 d.superMeta.maxFileBlockNum) (m.files f).metaSlot c b
  freeFhs : m.freeFhs = (List.range' 0 d.superMeta.maxFileNum).filter fun i => !(d.fileMetas i).used
  freeFbhs : m.freeFbhs = (List.range' 0 d.superMeta.maxFileBlockNum).filter fun i => !(d.fileBlockMetas i).used
  fileMetas : ∀ i, (i < d.superMeta.maxFileNum → (d.fileMetas i).used = true → (d.fileMetas i).isTemp = false) →
    m.fileMetas i = d.fileMetas i
  fileTemps : ∀ i < d.superMeta.maxFileNum, (d.fileMetas i).used = true → (d.fileMetas i).isTemp = true →
    m.fileMetas i = (d.fileMetas i).clear.sealed
  fileBlockMetas : ∀ i, (i < d.superMeta.maxFileBlockNum → (d.fileBlockMetas i).used = true →
    (d.fileBlockMetas i).isTemp = false) → m.fileBlockMetas i = d.fileBlockMetas i
  fileBlockTemps : ∀ i < d.superMeta.maxFileBlockNum, (d.fileBlockMetas i).used = true →
    (d.fileBlockMetas i).isTemp = true → m.fileBlockMetas i = (d.fileBlockMetas i).clear.sealed
  once : m.blockIdPool.Nodup
  pool : ∀ id, id ∈ m.blockIdPool ↔
    id < d.blockNum ∧ ∀ i, d.Lists i → id ∉ (d.fileBlockMetas i).ids
  disk : m.disk = { d with fileMetas := m.fileMetas, fileBlockMetas := m.fileBlockMetas }
  superMeta : m.superMeta = d.superMeta
  maxBlockNum : m.maxBlockNum = d.blockNum
  openFiles : m.openFiles = ∅
  openDirs : m.openDirs = ∅
  dirStreams : m.dirStreams = ∅
  parentFiles : m.parentFiles = ∅
  freeFdPool : m.freeFdPool = (List.range' 0 (kMaxFileNum <<< 1)).map Int.ofNat

section Booting
variable [Crc32] {d : Disk} {env : Env} {s t m : FileSystem}

/-- What no loading changes. -/
structure Still where
  superMeta : SuperBlockMeta
  maxBlockNum : Nat
  dirMetas : Nat → DirMeta
  openFiles : Map Nat OpenFile
  openDirs : Map Nat DirectoryPtr
  dirStreams : Map Nat DirStream
  parentFiles : Map Nat ParentFile
  freeFdPool : List Int

def still (s : FileSystem) : Still :=
  { superMeta := s.superMeta
    maxBlockNum := s.maxBlockNum
    dirMetas := s.dirMetas
    openFiles := s.openFiles
    openDirs := s.openDirs
    dirStreams := s.dirStreams
    parentFiles := s.parentFiles
    freeFdPool := s.freeFdPool }

/-- The three loadings together. -/
theorem booted_of_loads (seating : Seating d s) (boarding : Boarding d s t) (stowing : Stowing d t m) :
    Booted d m := by
  have first := congrArg still seating.rest
  have second := congrArg still boarding.rest
  have third := congrArg still stowing.rest
  have still_ : m.still = (unmounted d).blockInitializeMeta.still := (third.trans second).trans first
  simp only [still, Still.mk.injEq] at still_
  obtain ⟨super, count, dirMetas, opens, openDirs, streams, parents, fds⟩ := still_
  have fromFiles := congrArg (fun u : FileSystem => (u.directories, u.nextDirectory, u.createdDirs, u.createdDhs,
    u.freeDhs, u.nextFile, u.createdFhs, u.createdFiles, u.freeFhs, u.fileMetas)) stowing.rest
  simp only [Prod.mk.injEq] at fromFiles
  obtain ⟨dirs, nextDirectory, createdDirs, createdDhs, freeDhs, nextFile, createdFhs, createdFiles, freeFhs,
    fileMetas⟩ := fromFiles
  have fromDirs := congrArg (fun u : FileSystem => (u.nextDirectory, u.createdDirs, u.createdDhs, u.freeDhs))
    boarding.rest
  simp only [Prod.mk.injEq] at fromDirs
  obtain ⟨nextDirectory', createdDirs', createdDhs', freeDhs'⟩ := fromDirs
  have dir (p : DirectoryPtr) : m.directories p = { s.directories p with itemMaps := (m.directories p).itemMaps } := by
    rw [dirs, boarding.seats p]
  have seat (p : DirectoryPtr) : (m.directories p).metaSlot = (s.directories p).metaSlot := by rw [dir]
  have slot (f : FilePtr) : (m.files f).metaSlot = (t.files f).metaSlot := by rw [stowing.objects]
  have range (n i : Nat) : i ∈ List.range' 0 n ↔ i < n := mem_slots
  exact
    { dirMetas := dirMetas
      directories := fun i => by
        rw [nextDirectory, nextDirectory']
        simp only [seat]
        exact seating.taken i
      dirsApart := fun p bound q bound' same => by
        rw [nextDirectory, nextDirectory'] at bound bound'
        rw [seat, seat] at same
        exact seating.apart p bound q bound' same
      unlinked := fun p => by
        rw [dir]
        exact (seating.bare p).1
      paths := by
        rw [createdDirs, createdDirs', nextDirectory, nextDirectory']
        simp only [seat]
        exact seating.paths
      dhs := by
        rw [createdDhs, createdDhs', nextDirectory, nextDirectory']
        simp only [seat]
        exact seating.handles
      children := fun p x c => by
        rw [createdDirs, createdDirs', nextDirectory, nextDirectory', seat, dir]
        exact seating.children p x c
      listed := fun p x f => by
        rw [dirs, boarding.items, nextFile, nextDirectory, nextDirectory', slot, boarding.seats p]
      freeDhs := by
        rw [freeDhs, freeDhs']
        exact seating.free
      files := fun x => by
        rw [nextFile]
        simp only [slot]
        rw [boarding.taken, range]
        rfl
      filesApart := fun f bound g bound' same => by
        rw [nextFile] at bound bound'
        rw [slot, slot] at same
        exact boarding.apart f bound g bound' same
      closed := fun f => by
        rw [stowing.objects]
        obtain ⟨links, locked, deleted, _⟩ := boarding.bare f
        exact ⟨links, locked, deleted⟩
      fhs := by
        rw [createdFhs, nextFile]
        simp only [slot]
        exact boarding.handles
      names := by
        rw [createdFiles, nextFile]
        simp only [slot]
        exact boarding.names
      stored := fun f c b => by
        rw [nextFile, slot]
        exact stowing.items f c b
      freeFhs := by
        rw [freeFhs]
        exact boarding.free
      freeFbhs := stowing.free
      fileMetas := fun i lasting => by
        rw [fileMetas]
        exact boarding.kept i fun member => lasting ((range _ _).mp member)
      fileTemps := fun i bound => by
        rw [fileMetas]
        exact boarding.cleared i ((range _ _).mpr bound)
      fileBlockMetas := fun i lasting => stowing.kept i fun member => lasting ((range _ _).mp member)
      fileBlockTemps := fun i bound => stowing.cleared i ((range _ _).mpr bound)
      once := stowing.once
      pool := fun id => by
        rw [stowing.pool]
        refine and_congr_right fun _ => ⟨fun off i lists => ?_, fun off i _ => off i⟩
        exact off i ((range _ _).mpr lists.1) lists
      disk := by rw [stowing.image, boarding.image, fileMetas]
      superMeta := super
      maxBlockNum := count
      openFiles := opens
      openDirs := openDirs
      dirStreams := streams
      parentFiles := parents
      freeFdPool := fds }

/-- The handles load in their order. -/
theorem initializeMeta_iff_loads : (unmounted d).initializeMeta env = .ok (m, true) ↔
    (unmounted d).superInitializeMeta = true ∧
      ∃ s t, (unmounted d).blockInitializeMeta.dirInitializeMeta = (s, true) ∧ s.fileInitializeMeta env = (t, true) ∧
        t.fileBlockInitializeMeta env = .ok (m, true) := by
  unfold initializeMeta
  cases (unmounted d).superInitializeMeta with
  | false => simp
  | true =>
    cases (unmounted d).blockInitializeMeta.dirInitializeMeta with
    | mk s seated =>
      cases seated with
      | false => simp
      | true =>
        dsimp only
        cases loaded : s.fileInitializeMeta env with
        | mk t boarded =>
          cases boarded with
          | false => simp [loaded]
          | true => simp [loaded]

/-- The root that an image has is found again. -/
theorem Booted.root (booted : Booted d m) (rooted : ∃ i, d.Seats i ∧ (d.dirMetas i).dirName = ['/']) (env : Env) :
    m.makeMountPoint env ['/'] = .ok (m, 0) := by
  obtain ⟨i, seats, name⟩ := rooted
  obtain ⟨p, bound, rfl⟩ := (booted.directories i).mpr seats
  have found : m.getCreatedDirectory ['/'] = .ok p := by
    have path : DirHandle.transformPath ['/'] = .ok ['/'] := rfl
    unfold getCreatedDirectory
    rw [path, Except.ok_bind, (booted.paths ['/'] p).mpr ⟨bound, name⟩]
  rw [makeMountPoint, found]

variable (regular : d.Regular) (ok : env.IoOk)
include regular ok

theorem initializeMeta_booted (done : (unmounted d).initializeMeta env = .ok (m, true)) : Booted d m := by
  obtain ⟨_, s, t, dirs, files, blocks⟩ := initializeMeta_iff_loads.mp done
  have seating := dirInitializeMeta_seating dirs
  have boarding := fileInitializeMeta_boarding seating regular.fileMetaSize regular.temps ok files
  exact booted_of_loads seating boarding (fileBlockInitializeMeta_stowing seating boarding ok blocks)

theorem mountFileSystem_ok : mountFileSystem env d = .ok (m, 0) ↔
    d.superMeta.blockDataStartOffset ≤ d.size ∧ (unmounted d).initializeMeta env = .ok (m, true) := by
  have super : (unmounted d).superMeta = d.superMeta := rfl
  unfold mountFileSystem
  dsimp only
  rw [super]
  constructor
  · intro done
    split at done
    · simp at done
    split at done
    · simp at done
    next room =>
    refine ⟨not_lt.mp room, ?_⟩
    obtain ⟨⟨u, loaded⟩, first, rest⟩ := Except.bind_eq_ok.mp done
    cases loaded with
    | false => simp at rest
    | true =>
      dsimp only at rest
      rw [(initializeMeta_booted regular ok first).root regular.rooted env, Except.ok_bind] at rest
      obtain ⟨rfl, _⟩ := Prod.mk.inj (Except.ok.inj rest)
      exact first
  · rintro ⟨room, first⟩
    have intact := (initializeMeta_iff_loads.mp first).1
    rw [intact, if_neg (by simp), if_neg (not_lt.mpr room), first, Except.ok_bind]
    dsimp only
    rw [(initializeMeta_booted regular ok first).root regular.rooted env]
    rfl

/-- A mount succeeds just on the images that are bootable. -/
theorem mountFileSystem_iff : (∃ m, mountFileSystem env d = .ok (m, 0)) ↔ d.Bootable := by
  have super : (unmounted d).superInitializeMeta = true ↔
      d.superMeta.crc = d.superMeta.calcCrc ∧ d.superMeta.magic = kBlockFsMagic := by
    simp [superInitializeMeta, unmounted]
  simp only [mountFileSystem_ok regular ok, initializeMeta_iff_loads, super]
  constructor
  · rintro ⟨m, room, ⟨intact, magic⟩, s, t, dirs, files, blocks⟩
    have seating := dirInitializeMeta_seating dirs
    have boarding := fileInitializeMeta_boarding seating regular.fileMetaSize regular.temps ok files
    exact
      { intact := intact
        magic := magic
        room := room
        furnished := dirInitializeMeta_iff.mp ⟨s, dirs⟩
        manned := (fileInitializeMeta_iff seating regular.fileMetaSize regular.temps ok).mp ⟨t, files⟩
        laden := (fileBlockInitializeMeta_iff seating boarding ok).mp ⟨m, blocks⟩ }
  · intro bootable
    obtain ⟨s, dirs⟩ := dirInitializeMeta_iff.mpr bootable.furnished
    have seating := dirInitializeMeta_seating dirs
    obtain ⟨t, files⟩ := (fileInitializeMeta_iff seating regular.fileMetaSize regular.temps ok).mpr bootable.manned
    have boarding := fileInitializeMeta_boarding seating regular.fileMetaSize regular.temps ok files
    obtain ⟨m, blocks⟩ := (fileBlockInitializeMeta_iff seating boarding ok).mpr bootable.laden
    exact ⟨m, bootable.room, ⟨bootable.intact, bootable.magic⟩, s, t, dirs, files, blocks⟩

theorem mountFileSystem_booted (done : mountFileSystem env d = .ok (m, 0)) : Booted d m :=
  initializeMeta_booted regular ok ((mountFileSystem_ok regular ok).mp done).2

/-- The images that are mounted and what the mounted device is, together. -/
theorem mountFileSystem_exactly : ((∃ m, mountFileSystem env d = .ok (m, 0)) ↔ d.Bootable) ∧
    ∀ m, mountFileSystem env d = .ok (m, 0) → Booted d m :=
  ⟨mountFileSystem_iff regular ok, fun _ => mountFileSystem_booted regular ok⟩

omit [Crc32] regular ok in
/-- The small image on a device that is large enough for it. -/
def roomyImage : Disk :=
  { smallImage with size := smallImage.superMeta.blockDataStartOffset + 3 * kBlockSize }

omit [Crc32] regular ok in
theorem roomyImage_regular : roomyImage.Regular where
  fileMetaSize := rfl
  temps := by
    intro i _ _ temp
    have lasting : (roomyImage.fileMetas i).isTemp = false := rfl
    rw [lasting] at temp
    simp at temp
  rooted := ⟨0, ⟨by decide, rfl⟩, rfl⟩

omit [Crc32] regular ok in
/-- The small image is mounted: its root, its file and the block of the file are there, the block that
the temporary file block lists is free. -/
theorem mountFileSystem_exactly_roomy : @Disk.Bootable zeroCrc roomyImage ∧
    ∃ m, @mountFileSystem zeroCrc steadyEnv roomyImage = .ok (m, 0) ∧ @Booted zeroCrc roomyImage m ∧
      m.blockIdPool = [1] := by
  let _ := zeroCrc
  obtain ⟨mounts, described⟩ := mountFileSystem_exactly roomyImage_regular steadyEnv_ok
  have loaded : (mountFileSystem steadyEnv roomyImage).toOption.any
      (fun loaded => loaded.2 == 0 && loaded.1.blockIdPool == [1]) = true := by decide +kernel
  cases result : mountFileSystem steadyEnv roomyImage with
  | error fault => simp [result, Except.toOption] at loaded
  | ok loaded' =>
    obtain ⟨m, code⟩ := loaded'
    obtain ⟨rfl, pool⟩ : code = 0 ∧ m.blockIdPool = [1] := by simpa [result, Except.toOption] using loaded
    exact ⟨mounts.mp ⟨m, result⟩, m, rfl, described m result, pool⟩

end Booting

end FileSystem

end BlockFs
