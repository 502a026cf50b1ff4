import BlockFs.FreeLists

namespace BlockFs.FileSystem

/-- The descriptor pool, what the descriptors stand for, and the link counts. -/
structure Descriptors where
  pool : List Int
  opened : Nat → Option FilePtr
  dirs : Map Nat DirectoryPtr
  streams : Nat → Option Int
  nextStream : Nat
  links : Nat → Int
  nextFile : Nat

def descriptors (s : FileSystem) : Descriptors :=
  { pool := s.freeFdPool
    opened := s.openedFile
    dirs := s.openDirs
    streams := fun stream => (s.dirStreams.lookup stream).map (·.fd)
    nextStream := s.nextStream
    links := fun f => (s.files f).nlink
    nextFile := s.nextFile }

/-- `max_fd_num_`. -/
def maxFdNum : Nat := kMaxFileNum <<< 1

/-- The descriptors of an open file. -/
def Descriptors.of (v : Descriptors) (f : FilePtr) : Finset Nat :=
  (Finset.range maxFdNum).filter fun fd => v.opened fd = some f

/-- Every descriptor has one place, every place of a directory one stream, and the link counts are
those of the open files. -/
structure Tracked (v : Descriptors) : Prop where
  nodup : v.pool.Nodup
  range : ∀ fd ∈ v.pool, 0 ≤ fd ∧ fd < maxFdNum
  opened : ∀ fd f, v.opened fd = some f →
    fd < maxFdNum ∧ (fd : Int) ∉ v.pool ∧ v.dirs.lookup fd = none ∧ f < v.nextFile
  dirs : ∀ fd d, v.dirs.lookup fd = some d → fd < maxFdNum ∧ (fd : Int) ∉ v.pool
  covered : ∀ fd < maxFdNum, (fd : Int) ∈ v.pool ∨ (v.opened fd).isSome ∨ (v.dirs.lookup fd).isSome
  streams : ∀ fd : Nat, (v.dirs.lookup fd).isSome ↔ ∃ stream, v.streams stream = some fd
  fresh : ∀ stream fd, v.streams stream = some fd → stream < v.nextStream
  links : ∀ f < v.nextFile, v.links f = (v.of f).card

section Counting
variable {v v' : Descriptors} {f : FilePtr} {fd : Nat}

theorem Descriptors.mem_of : fd ∈ v.of f ↔ fd < maxFdNum ∧ v.opened fd = some f := by
  rw [Descriptors.of, Finset.mem_filter, Finset.mem_range]

theorem Descriptors.of_congr (same : ∀ x, v'.opened x = some f ↔ v.opened x = some f) :
    v'.of f = v.of f := by
  ext x
  rw [mem_of, mem_of, same]

theorem Descriptors.of_insert (room : fd < maxFdNum)
    (opened : v'.opened = fun x => if x = fd then some f else v.opened x) :
    v'.of f = insert fd (v.of f) := by
  ext x
  rw [Finset.mem_insert, mem_of, mem_of, opened]
  by_cases here : x = fd
  · simp [here, room]
  · simp [here]

theorem Descriptors.of_erase (opened : v'.opened = fun x => if x = fd then none else v.opened x) :
    v'.of f = (v.of f).erase fd := by
  ext x
  rw [Finset.mem_erase, mem_of, mem_of, opened]
  by_cases here : x = fd
  · simp [here]
  · simp [here]

end Counting

namespace Tracked
variable {v v' : Descriptors} (tracked : Tracked v)
include tracked

/-- A descriptor from the pool is put on a file. -/
theorem opens {fd : Nat} {rest : List Int} {f : FilePtr} (pool : v.pool = (fd : Int) :: rest)
    (bound : f < v.nextFile)
    (after : v' = { v with
      pool := rest
      opened := fun x => if x = fd then some f else v.opened x
      links := fun g => if g = f then v.links g + 1 else v.links g }) : Tracked v' := by
  subst after
  have nodup := tracked.nodup
  rw [pool, List.nodup_cons] at nodup
  have free : (fd : Int) ∈ v.pool := by simp [pool]
  have room : fd < maxFdNum := by
    have range := (tracked.range fd free).2
    omega
  have unopened : v.opened fd = none := by
    cases here : v.opened fd with
    | none => rfl
    | some g => exact absurd free (tracked.opened fd g here).2.1
  have apart : v.dirs.lookup fd = none := by
    cases here : v.dirs.lookup fd with
    | none => rfl
    | some d => exact absurd free (tracked.dirs fd d here).2
  refine ⟨nodup.2, fun x member => tracked.range x (by simp [pool, member]), ?_, ?_, ?_,
    tracked.streams, tracked.fresh, ?_⟩
  · intro x g here
    dsimp only at here
    split at here
    · next same =>
      subst same
      obtain rfl := Option.some.inj here
      exact ⟨room, nodup.1, apart, bound⟩
    · obtain ⟨less, off, dirs, known⟩ := tracked.opened x g here
      exact ⟨less, fun member => off (by simp [pool, member]), dirs, known⟩
  · intro x d here
    obtain ⟨less, off⟩ := tracked.dirs x d here
    exact ⟨less, fun member => off (by simp [pool, member])⟩
  · intro x less
    dsimp only
    by_cases same : x = fd
    · simp [same]
    · rw [if_neg same]
      rcases tracked.covered x less with member | rest'
      · rw [pool, List.mem_cons] at member
        exact .inl (member.resolve_left fun here => same (by omega))
      · exact .inr rest'
  · intro g known
    have counted := tracked.links g known
    dsimp only
    by_cases same : g = f
    · subst same
      have new : fd ∉ v.of g := by simp [Descriptors.mem_of, unopened]
      rw [if_pos rfl, Descriptors.of_insert (v := v) room rfl, Finset.card_insert_of_notMem new, counted]
      push_cast
      rfl
    · rw [if_neg same, counted, Descriptors.of_congr]
      intro x
      by_cases here : x = fd
      · simp [here, unopened, Ne.symm same]
      · simp [here]

/-- The descriptor of an open file goes back to the pool. -/
theorem closes {fd : Nat} {f : FilePtr} (found : v.opened fd = some f)
    (after : v' = { v with
      pool := v.pool ++ [(fd : Int)]
      opened := fun x => if x = fd then none else v.opened x
      links := fun g => if g = f then v.links g - 1 else v.links g }) : Tracked v' := by
  subst after
  obtain ⟨room, off, apart, bound⟩ := tracked.opened fd f found
  refine ⟨?_, ?_, ?_, ?_, ?_, tracked.streams, tracked.fresh, ?_⟩
  · rw [List.nodup_append]
    refine ⟨tracked.nodup, List.nodup_singleton _, fun x member y here => ?_⟩
    rw [List.mem_singleton.mp here]
    rintro rfl
    exact off member
  · intro x member
    rcases List.mem_append.mp member with old | new
    · exact tracked.range x old
    · rw [List.mem_singleton.mp new]
      omega
  · intro x g here
    dsimp only at here
    split at here
    · simp at here
    · next distinct =>
      obtain ⟨less, off', dirs, known⟩ := tracked.opened x g here
      refine ⟨less, fun member => ?_, dirs, known⟩
      rcases List.mem_append.mp member with old | new
      · exact off' old
      · exact distinct (by simpa using new)
  · intro x d here
    obtain ⟨less, off'⟩ := tracked.dirs x d here
    refine ⟨less, fun member => ?_⟩
    rcases List.mem_append.mp member with old | new
    · exact off' old
    · obtain rfl : x = fd := by simpa using new
      simp [apart] at here
  · intro x less
    dsimp only
    by_cases same : x = fd
    · exact .inl (by simp [same])
    · rw [if_neg same]
      rcases tracked.covered x less with member | rest
      · exact .inl (List.mem_append_left _ member)
      · exact .inr rest
  · intro g known
    have counted := tracked.links g known
    dsimp only
    by_cases same : g = f
    · subst same
      have member : fd ∈ v.of g := Descriptors.mem_of.mpr ⟨room, found⟩
      have positive := Finset.card_pos.mpr ⟨fd, member⟩
      rw [if_pos rfl, Descriptors.of_erase (v := v) rfl, Finset.card_erase_of_mem member, counted]
      omega
    · rw [if_neg same, counted, Descriptors.of_congr]
      intro x
      by_cases here : x = fd
      · simp [here, found, Ne.symm same]
      · simp [here]

/-- A descriptor from the pool is put on a directory stream. -/
theorem opensDirectory {fd : Nat} {rest : List Int} {d : DirectoryPtr}
    (pool : v.pool = (fd : Int) :: rest)
    (after : v' = { v with
      pool := rest
      dirs := v.dirs.insert fd d
      streams := fun x => if x = v.nextStream then some (fd : Int) else v.streams x
      nextStream := v.nextStream + 1 }) : Tracked v' := by
  subst after
  have nodup := tracked.nodup
  rw [pool, List.nodup_cons] at nodup
  have free : (fd : Int) ∈ v.pool := by simp [pool]
  have room : fd < maxFdNum := by
    have range := (tracked.range fd free).2
    omega
  refine ⟨nodup.2, fun x member => tracked.range x (by simp [pool, member]), ?_, ?_, ?_, ?_, ?_,
    tracked.links⟩
  · intro x g here
    obtain ⟨less, off, dirs, known⟩ := tracked.opened x g here
    refine ⟨less, fun member => off (by simp [pool, member]), ?_, known⟩
    have distinct : x ≠ fd := by
      rintro rfl
      exact off free
    exact (AList.lookup_insert_ne distinct).trans dirs
  · intro x e here
    rcases lookup_of_insert here with ⟨rfl, _⟩ | ⟨_, old⟩
    · exact ⟨room, nodup.1⟩
    · obtain ⟨less, off⟩ := tracked.dirs x e old
      exact ⟨less, fun member => off (by simp [pool, member])⟩
  · intro x less
    dsimp only
    by_cases same : x = fd
    · subst same
      exact .inr (.inr (by rw [AList.lookup_insert]; rfl))
    · rw [AList.lookup_insert_ne same]
      rcases tracked.covered x less with member | rest'
      · rw [pool, List.mem_cons] at member
        exact .inl (member.resolve_left fun here => same (by omega))
      · exact .inr rest'
  · intro x
    dsimp only
    by_cases same : x = fd
    · subst same
      rw [AList.lookup_insert]
      exact iff_of_true rfl ⟨v.nextStream, by simp⟩
    · rw [AList.lookup_insert_ne same, tracked.streams x]
      constructor
      · rintro ⟨stream, here⟩
        have known := tracked.fresh stream x here
        exact ⟨stream, by rw [if_neg known.ne, here]⟩
      · rintro ⟨stream, here⟩
        split at here
        · obtain ⟨⟩ : fd = x := by simpa using here
          exact absurd rfl same
        · exact ⟨stream, here⟩
  · intro stream x here
    dsimp only at here ⊢
    split at here
    · omega
    · have known := tracked.fresh stream x here
      omega

/-- A new file is closed. -/
theorem creates (after : v' = { v with
      links := fun g => if g = v.nextFile then 0 else v.links g
      nextFile := v.nextFile + 1 }) : Tracked v' := by
  subst after
  refine ⟨tracked.nodup, tracked.range, fun x g here => ?_, tracked.dirs, tracked.covered,
    tracked.streams, tracked.fresh, fun g known => ?_⟩
  · obtain ⟨less, off, dirs, known⟩ := tracked.opened x g here
    exact ⟨less, off, dirs, Nat.lt_succ_of_lt known⟩
  · dsimp only at known ⊢
    by_cases new : g = v.nextFile
    · rw [if_pos new]
      have bare : v.of g = ∅ := by
        refine Finset.eq_empty_of_forall_notMem fun x member => ?_
        have old := (tracked.opened x g (Descriptors.mem_of.mp member).2).2.2.2
        rw [new] at old
        exact lt_irrefl _ old
      have none : (0 : Int) = (v.of g).card := by simp [bare]
      exact none
    · rw [if_neg new]
      exact tracked.links g (Nat.lt_of_le_of_ne (Nat.lt_succ_iff.mp known) new)

end Tracked

/-- What the calls on directories leave alone: the files, and the tables of what is open. -/
structure Tables where
  freeFdPool : List Int
  openFiles : Map Nat OpenFile
  openDirs : Map Nat DirectoryPtr
  dirStreams : Map Nat DirStream
  nextStream : Nat
  files : Nat → File
  nextFile : Nat

def tables (s : FileSystem) : Tables :=
  { freeFdPool := s.freeFdPool
    openFiles := s.openFiles
    openDirs := s.openDirs
    dirStreams := s.dirStreams
    nextStream := s.nextStream
    files := s.files
    nextFile := s.nextFile }

section Directories
variable [Crc32] (s : FileSystem) (env : Env)

omit [Crc32] in
theorem descriptors_of_outer {s s' : FileSystem} (same : s'.outer = s.outer) :
    s'.descriptors = s.descriptors := by
  have opened : s'.openedFile = s.openedFile := by
    funext fd
    rw [openedFile, openedFile, show s'.openFiles = s.openFiles from congrArg Outer.openFiles same]
  have streams : s'.dirStreams = s.dirStreams := congrArg Outer.dirStreams same
  have pool : s'.freeFdPool = s.freeFdPool := congrArg Outer.freeFdPool same
  have dirs : s'.openDirs = s.openDirs := congrArg Outer.openDirs same
  have nextStream : s'.nextStream = s.nextStream := congrArg Outer.nextStream same
  have links : (fun f => (s'.files f).nlink) = fun f => (s.files f).nlink := congrArg Outer.links same
  have nextFile : s'.nextFile = s.nextFile := congrArg Outer.nextFile same
  unfold descriptors
  rw [opened, streams, pool, dirs, nextStream, links, nextFile]

omit [Crc32] in
theorem descriptors_of_tables {s s' : FileSystem} (same : s'.tables = s.tables) :
    s'.descriptors = s.descriptors := by
  have opened : s'.openedFile = s.openedFile := by
    funext fd
    rw [openedFile, openedFile, show s'.openFiles = s.openFiles from congrArg Tables.openFiles same]
  have streams : s'.dirStreams = s.dirStreams := congrArg Tables.dirStreams same
  have pool : s'.freeFdPool = s.freeFdPool := congrArg Tables.freeFdPool same
  have dirs : s'.openDirs = s.openDirs := congrArg Tables.openDirs same
  have nextStream : s'.nextStream = s.nextStream := congrArg Tables.nextStream same
  have files : s'.files = s.files := congrArg Tables.files same
  have nextFile : s'.nextFile = s.nextFile := congrArg Tables.nextFile same
  unfold descriptors
  rw [opened, streams, pool, dirs, nextStream, files, nextFile]

omit [Crc32] in
theorem errno_descriptors (e : Errno) : { s with errno := e }.descriptors = s.descriptors := rfl

omit [Crc32] in
theorem modifyDirMeta_descriptors (i : Nat) (g : DirMeta → DirMeta) :
    (s.modifyDirMeta i g).descriptors = s.descriptors := rfl

omit [Crc32] in
theorem storeErrno_tables (e : Option Errno) : (s.storeErrno e).tables = s.tables := rfl

omit [Crc32] in
theorem errno_tables (e : Errno) : { s with errno := e }.tables = s.tables := rfl

omit [Crc32] in
theorem modifyDirMeta_tables (i : Nat) (g : DirMeta → DirMeta) :
    (s.modifyDirMeta i g).tables = s.tables := rfl

omit [Crc32] in
theorem addDirectory2CreateNolock_tables (d : DirectoryPtr) :
    (s.addDirectory2CreateNolock d).1.tables = s.tables := by
  unfold addDirectory2CreateNolock
  split
  · rfl
  · split <;> rfl

omit [Crc32] in
theorem removeDirectoryFromCreateNolock_tables (d : DirectoryPtr) :
    (s.removeDirectoryFromCreateNolock d).1.tables = s.tables := by
  unfold removeDirectoryFromCreateNolock
  split
  · rfl
  · dsimp only
    split <;> rfl

omit [Crc32] in
theorem addChildDirectory_tables (parent child : DirectoryPtr) :
    (s.addChildDirectory parent child).1.tables = s.tables := by
  unfold addChildDirectory
  split <;> rfl

omit [Crc32] in
theorem removChildDirectory_tables (parent child : DirectoryPtr) :
    (s.removChildDirectory parent child).1.tables = s.tables := by
  unfold removChildDirectory
  split <;> rfl

theorem writeDirMeta_tables (dh : Nat) :
    (s.writeDirMeta env dh).1.tables = s.tables := by
  unfold writeDirMeta pwriteDirect
  dsimp only
  split <;> rfl

theorem writeDirMetaRetry_tables (dh tries : Nat) (s : FileSystem) :
    (writeDirMetaRetry env dh tries s).1.tables = s.tables := by
  induction tries generalizing s with
  | zero => rfl
  | succ tries ih =>
    have written := s.writeDirMeta_tables env dh
    rw [writeDirMetaRetry]
    split
    · next t same => simpa only [same] using written
    · next t same =>
      rw [same] at written
      exact (ih t).trans written

omit [Crc32] in
theorem newDirectory_tables (dirname : Name) :
    (s.newDirectory env dirname).1.tables = s.tables := by
  have taken : (s.newFreeDirectoryNolock env dirname).1.tables = s.tables := by
    unfold newFreeDirectoryNolock
    split
    · rfl
    · split <;> rfl
  unfold newDirectory
  grind only [errno_tables]

omit [Crc32] in
theorem addDirectory_tables {parent : Option DirectoryPtr} {child : DirectoryPtr}
    {s' : FileSystem} {added : Bool} (result : s.addDirectory parent child = .ok (s', added)) :
    s'.tables = s.tables := by
  unfold addDirectory at result
  grind only [addChildDirectory_tables, addDirectory2CreateNolock_tables,
    removChildDirectory_tables]

theorem createDirectory_tables {path : Name} {s' : FileSystem} {r : Int}
    (result : s.createDirectory env path = .ok (s', r)) : s'.tables = s.tables := by
  unfold createDirectory at result
  grind only [Except.bind_eq_ok, storeErrno_tables, errno_tables, newDirectory_tables,
    writeDirMetaRetry_tables, addDirectory_tables]

theorem deleteDirectory_tables (path : Name) :
    (s.deleteDirectory env path).1.tables = s.tables := by
  unfold deleteDirectory
  grind only [storeErrno_tables, errno_tables, modifyDirMeta_tables,
    writeDirMeta_tables, removChildDirectory_tables,
    removeDirectoryFromCreateNolock_tables]

theorem directoryRename_tables (dir : DirectoryPtr) (target : Name) :
    (s.directoryRename env dir target).1.tables = s.tables := by
  unfold directoryRename
  grind only [storeErrno_tables, modifyDirMeta_tables, writeDirMeta_tables,
    removChildDirectory_tables, removeDirectoryFromCreateNolock_tables,
    addDirectory2CreateNolock_tables, addChildDirectory_tables]

theorem renameDirectory_tables (source target : Name) :
    (s.renameDirectory env source target).1.tables = s.tables := by
  unfold renameDirectory
  grind only [storeErrno_tables, errno_tables, directoryRename_tables]

/-- A stream that is read on keeps its descriptor. -/
theorem readDirectory_descriptors {stream : Nat} {s' : FileSystem} {item : Option BlockFsDirent}
    (result : s.readDirectory env stream = .ok (s', item)) : s'.descriptors = s.descriptors := by
  have kept (t : FileSystem) (d e : DirStream) (same : t.descriptors = s.descriptors)
      (streams : t.dirStreams = s.dirStreams) (found : s.dirStreams.lookup stream = some d)
      (fd : e.fd = d.fd) :
      { t with dirStreams := t.dirStreams.insert stream e }.descriptors = s.descriptors := by
    rw [← same]
    unfold descriptors
    have fds : (fun x => ((t.dirStreams.insert stream e).lookup x).map (·.fd)) =
        fun x => (t.dirStreams.lookup x).map (·.fd) := by
      funext x
      by_cases here : x = stream
      · subst here
        rw [AList.lookup_insert, streams, found, Option.map_some, Option.map_some, fd]
      · rw [AList.lookup_insert_ne here]
    exact congrArg (fun g => ({ t.descriptors with streams := g } : Descriptors)) fds
  unfold readDirectory at result
  grind only [Except.bind_eq_ok, modifyDirMeta_descriptors, modifyDirMeta]

end Directories

/-- Every file that a name leads to was made. -/
def Made (s : FileSystem) : Prop := ∀ K f, s.createdFiles.lookup K = some f → f < s.nextFile

/-- The descriptors after a file is made. -/
def Descriptors.created (v : Descriptors) : Descriptors :=
  { v with
    links := fun g => if g = v.nextFile then 0 else v.links g
    nextFile := v.nextFile + 1 }

section Making
variable [Crc32] {s : FileSystem} {env : Env}

omit [Crc32] in
theorem descriptors_of_created {s' : FileSystem} (same : s'.outer = s.outer.created) :
    s'.descriptors = s.descriptors.created := by
  have opened : s'.openedFile = s.openedFile := by
    funext fd
    rw [openedFile, openedFile, show s'.openFiles = s.openFiles from congrArg Outer.openFiles same]
  have streams : s'.dirStreams = s.dirStreams := congrArg Outer.dirStreams same
  have pool : s'.freeFdPool = s.freeFdPool := congrArg Outer.freeFdPool same
  have dirs : s'.openDirs = s.openDirs := congrArg Outer.openDirs same
  have nextStream : s'.nextStream = s.nextStream := congrArg Outer.nextStream same
  have links : (fun f => (s'.files f).nlink) = fun f => if f = s.nextFile then 0 else (s.files f).nlink :=
    congrArg Outer.links same
  have nextFile : s'.nextFile = s.nextFile + 1 := congrArg Outer.nextFile same
  unfold descriptors
  rw [opened, streams, pool, dirs, nextStream, links, nextFile]
  rfl

/-- A file that is created takes the next pointer; no descriptor moves. -/
theorem createFile_descriptors (filename : Name) (tmpfile : Bool) :
    ((s.createFile env filename tmpfile).2 = none ∧
      (s.createFile env filename tmpfile).1.descriptors = s.descriptors) ∨
    (((s.createFile env filename tmpfile).2 = none ∨
        (s.createFile env filename tmpfile).2 = some s.nextFile) ∧
      (s.createFile env filename tmpfile).1.descriptors = s.descriptors.created) := by
  rcases @createFile_outer _ s env filename tmpfile with ⟨none, kept⟩ | ⟨made, kept⟩
  · exact .inl ⟨none, descriptors_of_outer kept⟩
  · exact .inr ⟨made, descriptors_of_created kept⟩

end Making

/-- The call comes to draw a descriptor for a file. -/
def Opens [Crc32] (s : FileSystem) : Op → Prop
  | .openFile path flags => ∃ env t f, env.IoOk ∧ s.openTarget env path flags = .ok (t, some f)
  | .dup oldfd => (s.openedFile (toU64 oldfd)).isSome
  | _ => False

/-- The call closes no stream that is open and draws no descriptor for a file from an empty pool. -/
def KeepsCount [Crc32] (s : FileSystem) (op : Op) : Prop :=
  (∀ stream, op = .closedir stream → s.dirStreams.lookup stream = none) ∧
    (s.Opens op → s.freeFdPool ≠ [])

section Calls
variable [Crc32] {s s' : FileSystem} {env : Env} {op : Op} {r : Int}

omit [Crc32] in
theorem Made.of_found (made : s.Made) {path : Name} {f : FilePtr}
    (found : s.getCreatedFile path = .ok f) : f < s.nextFile := by
  obtain ⟨⟨dirname, filename⟩, _, rest⟩ := Except.bind_eq_ok.mp found
  obtain ⟨dir, _, entry⟩ := Except.bind_eq_ok.mp rest
  split at entry
  · next g listed =>
    obtain rfl := Except.ok.inj entry
    exact made _ _ listed
  · simp at entry

/-- The first half of `open` makes at most a new file. -/
theorem openTarget_descriptors (made : s.Made) {path : Name} {flags : Nat} {u : FileSystem}
    {target : Option FilePtr} (result : s.openTarget env path flags = .ok (u, target)) :
    (u.descriptors = s.descriptors ∨ u.descriptors = s.descriptors.created) ∧
      ∀ f, target = some f → f < u.nextFile := by
  cases openTarget_targeted result with
  | refused e => exact ⟨.inl rfl, nofun⟩
  | @taken e f found => exact ⟨.inl rfl, fun g same => Option.some.inj same ▸ made.of_found found⟩
  | @created e tmpfile _ _ result =>
    have outcome := @createFile_descriptors _ { s with errno := e } env path tmpfile
    rw [result, errno_descriptors] at outcome
    rcases outcome with ⟨none, kept⟩ | ⟨known, kept⟩
    · dsimp only at none kept
      exact ⟨.inl kept, fun f here => by simp [none] at here⟩
    · dsimp only at known kept
      have nextFile : u.nextFile = s.nextFile + 1 := congrArg Descriptors.nextFile kept
      refine ⟨.inr kept, fun f here => ?_⟩
      rcases known with none | new
      · simp [here] at none
      · have same : f = s.nextFile := by simpa [here] using new
        rw [same, nextFile]
        exact Nat.lt_succ_self _
  | @truncated e f _ r found cut =>
    have kept := descriptors_of_outer (ftruncate_outer cut)
    rw [errno_descriptors] at kept
    have nextFile : u.nextFile = s.nextFile := congrArg Descriptors.nextFile kept
    refine ⟨.inl kept, fun g here => ?_⟩
    split at here
    · simp at here
    · have bound := made.of_found found
      obtain rfl : f = g := Option.some.inj here
      rwa [nextFile]

omit [Crc32] in
theorem toU64_small {fd : Nat} (room : fd < maxFdNum) : toU64 fd = fd := by
  have bound : maxFdNum = 200000 := rfl
  unfold toU64
  omega

omit [Crc32] in
theorem toInt32_small {fd : Nat} (room : fd < maxFdNum) : toInt32 fd = fd := by
  have bound : maxFdNum = 200000 := rfl
  unfold toInt32
  dsimp only
  split <;> omega

omit [Crc32] in
/-- The head of the pool is a descriptor. -/
theorem Tracked.head (tracked : Tracked s.descriptors) (some_ : s.freeFdPool ≠ []) :
    ∃ (fd : Nat) (rest : List Int), s.freeFdPool = (fd : Int) :: rest ∧ fd < maxFdNum := by
  cases pool : s.freeFdPool with
  | nil => exact absurd pool some_
  | cons fd rest =>
    obtain ⟨low, high⟩ := tracked.range fd (by simp [descriptors, pool])
    lift fd to Nat using low
    exact ⟨fd, rest, rfl, by omega⟩

omit [Crc32] in
theorem openFd_tracked (tracked : Tracked s.descriptors) {f : FilePtr} (bound : f < s.nextFile)
    (some_ : s.freeFdPool ≠ []) (flags : Nat) : Tracked (s.openFd f flags).1.descriptors := by
  obtain ⟨fd, rest, pool, room⟩ := tracked.head some_
  refine @Tracked.opens _ _ tracked fd rest f pool bound ?_
  have small := toU64_small room
  unfold openFd getFd
  rw [pool]
  dsimp only
  rw [small]
  have opened (o : OpenFile) (same : o.file = f) :
      (fun x => ((s.openFiles.insert fd o).lookup x).map (·.file)) =
        fun x => if x = fd then some f else (s.openFiles.lookup x).map (·.file) := by
    funext x
    by_cases here : x = fd
    · rw [here, AList.lookup_insert, if_pos rfl, Option.map_some, same]
    · rw [AList.lookup_insert_ne here, if_neg here]
  have links : (fun g => (Function.update s.files f
      { s.files f with nlink := (s.files f).nlink + 1 } g).nlink) =
      fun g => if g = f then (s.files g).nlink + 1 else (s.files g).nlink := by
    funext g
    rw [Function.update_apply]
    split
    · next here => rw [here]
    · rfl
  unfold descriptors openedFile
  simp only [modifyFile, links]
  rw [opened _ rfl]

omit [Crc32] in
theorem reopened_descriptors {fd : Nat} {o : OpenFile} (opened : s.openedFile fd = some o.file)
    (pos : Nat) :
    { s with openFiles := s.openFiles.insert fd { o with appendPos := pos } }.descriptors =
      s.descriptors := by
  have same : (fun x => ((s.openFiles.insert fd { o with appendPos := pos }).lookup x).map (·.file)) =
      fun x => (s.openFiles.lookup x).map (·.file) := by
    funext x
    by_cases here : x = fd
    · rw [here, AList.lookup_insert]
      exact opened.symm
    · rw [AList.lookup_insert_ne here]
  exact congrArg (fun opened => ({ s.descriptors with opened := opened } : Descriptors)) same

theorem close_tracked (tracked : Tracked s.descriptors) (fd : Nat) :
    Tracked (s.close env fd).1.descriptors := by
  unfold close
  split
  · exact tracked
  · next o found =>
    have opened := getOpenFile_ok found
    obtain ⟨room, _⟩ := tracked.opened fd o.file opened
    have last := @closeLast_outer _ (s.modifyFile o.file fun f =>
      { f with locked := false, nlink := f.nlink - 1 }) env o.file
    dsimp only
    generalize (s.modifyFile o.file fun f =>
      { f with locked := false, nlink := f.nlink - 1 }).closeLast env o.file = t at last
    have before := descriptors_of_outer last
    have openFiles : t.openFiles = s.openFiles := congrArg Outer.openFiles last
    refine tracked.closes opened ?_
    have put : ¬((kMaxFileNum <<< 1 : Nat) : Int) < toInt32 fd := by
      rw [toInt32_small room]
      have bound : fd < kMaxFileNum <<< 1 := room
      omega
    rw [putFd, if_neg put, toInt32_small room]
    have erased : (fun x => ((t.openFiles.erase fd).lookup x).map (·.file)) =
        fun x => if x = fd then none else s.openedFile x := by
      funext x
      by_cases here : x = fd
      · rw [here, AList.lookup_erase, if_pos rfl, Option.map_none]
      · rw [AList.lookup_erase_ne here, if_neg here, openFiles, openedFile]
    have links : (fun g => (Function.update s.files o.file
        { s.files o.file with locked := false, nlink := (s.files o.file).nlink - 1 } g).nlink) =
        fun g => if g = o.file then (s.files g).nlink - 1 else (s.files g).nlink := by
      funext g
      rw [Function.update_apply]
      split
      · next here => rw [here]
      · rfl
    have after := congrArg (fun opened => ({ t.descriptors with
      pool := t.descriptors.pool ++ [(fd : Int)]
      opened := opened } : Descriptors)) erased
    refine Eq.trans after ?_
    rw [before]
    exact congrArg (fun links => ({ s.descriptors with
      pool := s.freeFdPool ++ [(fd : Int)]
      opened := fun x => if x = fd then none else s.openedFile x
      links := links } : Descriptors)) links

theorem pwrite_descriptors {fd size offset : Nat} {o : OpenFile} {buffer : Nat → UInt8}
    (opened : s.openedFile fd = some o.file)
    (result : s.pwrite env fd o buffer size offset = .ok (s', r)) : s'.descriptors = s.descriptors := by
  cases pwrite_written result with
  | kept => rfl
  | failed grown => exact descriptors_of_outer (ftruncate_outer grown)
  | @written u grown data ret =>
    have before : u.descriptors = s.descriptors := by
      rcases grown with rfl | ⟨n, r, grown⟩
      · rfl
      · exact descriptors_of_outer (ftruncate_outer grown)
    have stamped : (u.stamped env o.file).descriptors = u.descriptors := by
      unfold stamped
      split <;> rfl
    have opened' := congrFun (congrArg Descriptors.opened (stamped.trans before)) fd
    exact (reopened_descriptors (s := (u.stamped env o.file).stored data)
      (opened'.trans opened) _).trans (stamped.trans before)

omit [Crc32] in
theorem pread_descriptors {fd size offset : Nat} {o : OpenFile} {buffer back : Nat → UInt8}
    (opened : s.openedFile fd = some o.file)
    (result : s.pread fd o buffer size offset = .ok (s', back, r)) : s'.descriptors = s.descriptors := by
  rcases pread_cases result with rfl | ⟨ret, rfl⟩
  · rfl
  · exact reopened_descriptors opened _

omit [Crc32] in
theorem seekFile_descriptors (fd : Nat) (offset : Int) (whence : Whence) :
    (s.seekFile fd offset whence).1.descriptors = s.descriptors := by
  unfold seekFile
  split
  · rfl
  · next o found =>
    have opened := getOpenFile_ok found
    cases whence with
    | set => exact reopened_descriptors opened _
    | cur => exact reopened_descriptors opened _
    | endOfFile => exact reopened_descriptors opened _
    | other => rfl

omit [Crc32] in
theorem fcntlFile_descriptors (fd : Int) (lockType : LockType) :
    (s.fcntlFile fd lockType).1.descriptors = s.descriptors := by
  have locked (f : FilePtr) (b : Bool) :
      (s.modifyFile f fun o => { o with locked := b }).descriptors = s.descriptors := by
    have links : (fun g => ((s.modifyFile f fun o => { o with locked := b }).files g).nlink) =
        fun g => (s.files g).nlink := by
      funext g
      exact view_update s.files f g (·.nlink) rfl
    exact congrArg (fun links => ({ s.descriptors with links := links } : Descriptors)) links
  unfold fcntlFile
  split
  · rfl
  · cases lockType with
    | unlck =>
      dsimp only
      split
      · rfl
      · exact locked _ _
    | rdlck =>
      dsimp only
      split
      · rfl
      · exact locked _ _
    | wrlck =>
      dsimp only
      split
      · rfl
      · exact locked _ _
    | other => rfl

theorem renamePath_descriptors (oldpath newpath : Name) :
    (s.renamePath env oldpath newpath).1.descriptors = s.descriptors := by
  unfold renamePath
  split
  · rfl
  · split
    · rfl
    · dsimp only
      split
      · exact descriptors_of_outer (fileRename_outer _)
      · split
        · rfl
        · exact descriptors_of_tables (renameDirectory_tables _ _ _ _)

omit [Crc32] in
theorem openDirectory_tracked (tracked : Tracked s.descriptors) (path : Name) :
    Tracked (s.openDirectory path).1.descriptors := by
  unfold openDirectory
  split
  · exact tracked
  · exact tracked
  · next dir _ =>
    by_cases empty : s.freeFdPool = []
    · rw [getFd, empty]
      have kept : ({ s with freeFdPool := [] } : FileSystem).descriptors = s.descriptors := by
        rw [← empty]
      exact kept.symm ▸ tracked
    · obtain ⟨fd, rest, pool, room⟩ := tracked.head empty
      refine @Tracked.opensDirectory _ _ tracked fd rest dir pool ?_
      have streams : (fun x => ((s.dirStreams.insert s.nextStream
          { inited := false, fd := fd, index := 0, dir := dir, dirItems := [] }).lookup x).map (·.fd)) =
          fun x => if x = s.nextStream then some (fd : Int) else (s.dirStreams.lookup x).map (·.fd) := by
        funext x
        by_cases here : x = s.nextStream
        · rw [here, AList.lookup_insert, if_pos rfl, Option.map_some]
        · rw [AList.lookup_insert_ne here, if_neg here]
      have drawn : ¬(fd : Int) < 0 := by omega
      rw [getFd, pool]
      dsimp only
      rw [if_neg drawn, toU64_small room]
      exact congrArg (fun streams => ({ s.descriptors with
        pool := rest
        dirs := s.openDirs.insert fd dir
        streams := streams
        nextStream := s.nextStream + 1 } : Descriptors)) streams

/-- What a call does to the descriptors. -/
inductive Handled (s : FileSystem) (env : Env) (op : Op) : FileSystem → Prop
  | kept {u : FileSystem} (same : u.descriptors = s.descriptors) : Handled s env op u
  | created {u : FileSystem} (made : u.descriptors = s.descriptors.created) : Handled s env op u
  | opened {u : FileSystem} {f flags}
    (before : u.descriptors = s.descriptors ∨ u.descriptors = s.descriptors.created)
    (bound : f < u.nextFile) (asks : env.IoOk → s.Opens op) : Handled s env op (u.openFd f flags).1
  | closed (fd) : Handled s env op (s.close env fd).1
  | openedDirectory (path) : Handled s env op (s.openDirectory path).1
  | closedDirectory (stream) (asks : op = .closedir stream) : Handled s env op (s.closeDirectory stream).1

theorem call_handled (made : s.Made) (opens : ∀ fd f, s.openedFile fd = some f → f < s.nextFile)
    (result : s.call env op = .ok (s', r)) : Handled s env op s' := by
  cases op with
  | createFile path =>
    have state : (s.createFilePath env path).1 = s' := congrArg Prod.fst (Except.ok.inj result)
    have made : (s.createFilePath env path).1 = (s.createFile env path false).1 := by
      unfold createFilePath
      split <;> next same => rw [same]
    rw [← state, made]
    rcases @createFile_descriptors _ s env path false with ⟨_, kept⟩ | ⟨_, kept⟩
    · exact .kept kept
    · exact .created kept
  | openFile path flags =>
    obtain ⟨⟨u, target⟩, first, rest⟩ := Except.bind_eq_ok.mp result
    obtain ⟨before, known⟩ := openTarget_descriptors made first
    cases target with
    | none =>
      obtain ⟨rfl, _⟩ := Prod.mk.inj (Except.ok.inj rest)
      rcases before with kept | kept
      · exact .kept kept
      · exact .created kept
    | some f =>
      rw [← show (u.openFd f flags).1 = s' from congrArg Prod.fst (Except.ok.inj rest)]
      exact .opened before (known f rfl) fun ok => ⟨env, u, f, ok, first⟩
  | close fd =>
    rw [← show (s.close env fd).1 = s' from congrArg Prod.fst (Except.ok.inj result)]
    exact .closed fd
  | dup oldfd =>
    have state : (s.dup oldfd).1 = s' := congrArg Prod.fst (Except.ok.inj result)
    rw [← state]
    unfold dup
    split
    · exact .kept rfl
    · next o found =>
      have opened := getOpenFile_ok found
      exact .opened (.inl rfl) (opens _ _ opened) fun _ =>
        show (s.openedFile (toU64 oldfd)).isSome by rw [opened]; rfl
  | unlink path =>
    have kept := descriptors_of_outer (@unlink_outer _ s env path)
    rw [congrArg Prod.fst (Except.ok.inj result)] at kept
    exact .kept kept
  | rename oldpath newpath =>
    have kept := @renamePath_descriptors _ s env oldpath newpath
    rw [congrArg Prod.fst (Except.ok.inj result)] at kept
    exact .kept kept
  | truncatePath path size =>
    have cut : s.truncatePath env path size = .ok (s', r) := result
    unfold truncatePath at cut
    split at cut
    · obtain ⟨rfl, _⟩ := Prod.mk.inj (Except.ok.inj cut)
      exact .kept rfl
    · exact .kept (descriptors_of_outer (ftruncate_outer cut))
  | truncateFd fd size =>
    have cut : s.truncateFd env fd size = .ok (s', r) := result
    unfold truncateFd at cut
    split at cut
    · obtain ⟨rfl, _⟩ := Prod.mk.inj (Except.ok.inj cut)
      exact .kept rfl
    · exact .kept (descriptors_of_outer (ftruncate_outer cut))
  | pwrite fd buffer len offset =>
    have wrote : s.pwriteFile env fd buffer len offset = .ok (s', r) := result
    unfold pwriteFile at wrote
    split at wrote
    · obtain ⟨rfl, _⟩ := Prod.mk.inj (Except.ok.inj wrote)
      exact .kept rfl
    · next o found => exact .kept (pwrite_descriptors (getOpenFile_ok found) wrote)
  | pread fd len offset =>
    obtain ⟨⟨u, back, n⟩, first, rest⟩ := Except.bind_eq_ok.mp result
    obtain ⟨rfl, _⟩ := Prod.mk.inj (Except.ok.inj rest)
    unfold preadFile at first
    split at first
    · obtain ⟨rfl, _⟩ := Prod.mk.inj (Except.ok.inj first)
      exact .kept rfl
    · next o found => exact .kept (pread_descriptors (getOpenFile_ok found) first)
  | read fd len =>
    obtain ⟨⟨u, back, n⟩, first, rest⟩ := Except.bind_eq_ok.mp result
    obtain ⟨rfl, _⟩ := Prod.mk.inj (Except.ok.inj rest)
    unfold readFile at first
    split at first
    · obtain ⟨rfl, _⟩ := Prod.mk.inj (Except.ok.inj first)
      exact .kept rfl
    · next o found => exact .kept (pread_descriptors (getOpenFile_ok found) first)
  | seek fd offset whence =>
    have kept := seekFile_descriptors (s := s) fd offset whence
    rw [congrArg Prod.fst (Except.ok.inj result)] at kept
    exact .kept kept
  | fcntl fd lockType =>
    have kept := fcntlFile_descriptors (s := s) fd lockType
    rw [congrArg Prod.fst (Except.ok.inj result)] at kept
    exact .kept kept
  | mkdir path => exact .kept (descriptors_of_tables (createDirectory_tables s env result))
  | rmdir path =>
    have kept := descriptors_of_tables (deleteDirectory_tables s env path)
    rw [congrArg Prod.fst (Except.ok.inj result)] at kept
    exact .kept kept
  | opendir path =>
    have handled : Handled s env (.opendir path) (s.openDirectory path).1 := .openedDirectory path
    unfold call at result
    dsimp only at result
    split at result
    · next u none =>
      obtain ⟨rfl, _⟩ := Prod.mk.inj (Except.ok.inj result)
      rwa [none] at handled
    · next u stream some_ =>
      obtain ⟨rfl, _⟩ := Prod.mk.inj (Except.ok.inj result)
      rwa [some_] at handled
  | readdir stream =>
    obtain ⟨⟨u, item⟩, first, rest⟩ := Except.bind_eq_ok.mp result
    obtain ⟨rfl, _⟩ := Prod.mk.inj (Except.ok.inj rest)
    exact .kept (readDirectory_descriptors s env first)
  | closedir stream =>
    rw [← show (s.closeDirectory stream).1 = s' from congrArg Prod.fst (Except.ok.inj result)]
    exact .closedDirectory stream rfl

/-- One call keeps the account of the descriptors. -/
theorem call_tracked (tracked : Tracked s.descriptors) (made : s.Made) (keeps : s.KeepsCount op)
    (ok : env.IoOk) (result : s.call env op = .ok (s', r)) : Tracked s'.descriptors := by
  have opens (fd : Nat) (f : FilePtr) (here : s.openedFile fd = some f) : f < s.nextFile :=
    (tracked.opened fd f here).2.2.2
  cases call_handled made opens result with
  | kept same => exact same.symm ▸ tracked
  | created made => exact made.symm ▸ tracked.creates rfl
  | @opened u f flags before bound asks =>
    have filled := keeps.2 (asks ok)
    rcases before with kept | kept
    · have pool : u.freeFdPool = s.freeFdPool := congrArg Descriptors.pool kept
      exact openFd_tracked (kept.symm ▸ tracked) bound (pool ▸ filled) flags
    · have pool : u.freeFdPool = s.freeFdPool := congrArg Descriptors.pool kept
      exact openFd_tracked (kept.symm ▸ tracked.creates rfl) bound (pool ▸ filled) flags
  | closed fd => exact close_tracked tracked fd
  | openedDirectory path => exact openDirectory_tracked tracked path
  | closedDirectory stream asks =>
    rw [closeDirectory, keeps.1 stream asks]
    exact tracked

end Calls

/-- Every descriptor is free, of an open file or of a directory stream, and only one of them; the
pool lists nothing twice and nothing else; the keys of `open_dirs_` are the descriptors of the open
streams; and the link count of a file is the number of entries of `open_files_` that refer to it. -/
structure DescriptorsAccounted (s : FileSystem) : Prop where
  placed : ∀ fd < maxFdNum,
    ((fd : Int) ∈ s.freeFdPool ∧ fd ∉ s.openFiles ∧ fd ∉ s.openDirs) ∨
    ((fd : Int) ∉ s.freeFdPool ∧ fd ∈ s.openFiles ∧ fd ∉ s.openDirs) ∨
    ((fd : Int) ∉ s.freeFdPool ∧ fd ∉ s.openFiles ∧ fd ∈ s.openDirs)
  nodup : s.freeFdPool.Nodup
  range : ∀ fd ∈ s.freeFdPool, 0 ≤ fd ∧ fd < maxFdNum
  streams : ∀ fd, fd ∈ s.openDirs ↔ ∃ stream d, s.dirStreams.lookup stream = some d ∧ d.fd = fd
  links : ∀ f < s.nextFile, (s.files f).nlink = (s.openers f).card

section Accounts
variable [Crc32] {s : FileSystem} {env : Env}

omit [Crc32] in
theorem openedFile_isSome {fd : Nat} : (s.openedFile fd).isSome ↔ fd ∈ s.openFiles := by
  rw [openedFile, Option.isSome_map, AList.lookup_isSome]

omit [Crc32] in
theorem Tracked.openers_eq (tracked : Tracked s.descriptors) (f : FilePtr) :
    s.openers f = s.descriptors.of f := by
  ext fd
  rw [mem_openers, Descriptors.mem_of]
  exact ⟨fun opened => ⟨(tracked.opened fd f opened).1, opened⟩, fun both => both.2⟩

omit [Crc32] in
theorem Tracked.accounted (tracked : Tracked s.descriptors) : DescriptorsAccounted s where
  placed fd room := by
    have dirs : fd ∈ s.openDirs ↔ (s.openDirs.lookup fd).isSome := AList.lookup_isSome.symm
    rcases tracked.covered fd room with free | opened | opened
    · refine .inl ⟨free, fun here => ?_, fun here => ?_⟩
      · obtain ⟨f, opened⟩ := Option.isSome_iff_exists.mp (openedFile_isSome.mpr here)
        exact (tracked.opened fd f opened).2.1 free
      · obtain ⟨d, opened⟩ := Option.isSome_iff_exists.mp (dirs.mp here)
        exact (tracked.dirs fd d opened).2 free
    · obtain ⟨f, here⟩ := Option.isSome_iff_exists.mp opened
      obtain ⟨_, off, apart, _⟩ := tracked.opened fd f here
      refine .inr (.inl ⟨off, openedFile_isSome.mp opened, fun there => ?_⟩)
      obtain ⟨d, there⟩ := Option.isSome_iff_exists.mp (dirs.mp there)
      exact absurd (there.symm.trans apart) (by simp)
    · obtain ⟨d, here⟩ := Option.isSome_iff_exists.mp opened
      refine .inr (.inr ⟨(tracked.dirs fd d here).2, fun there => ?_, dirs.mpr opened⟩)
      obtain ⟨f, there⟩ := Option.isSome_iff_exists.mp (openedFile_isSome.mpr there)
      exact absurd (here.symm.trans (tracked.opened fd f there).2.2.1) (by simp)
  nodup := tracked.nodup
  range := tracked.range
  streams fd := by
    have same : (∃ stream, s.descriptors.streams stream = some (fd : Int)) ↔
        ∃ stream d, s.dirStreams.lookup stream = some d ∧ d.fd = fd :=
      exists_congr fun stream => Option.map_eq_some_iff
    exact AList.lookup_isSome.symm.trans ((tracked.streams fd).trans same)
  links f known := by
    rw [tracked.openers_eq]
    exact tracked.links f known

/-- After a fresh mount every descriptor is in the pool. -/
theorem tracked_mounted (d : Disk) (env : Env) (attempts : Nat) :
    Tracked (mounted d env attempts).descriptors where
  nodup := by
    have inj : Function.Injective Int.ofNat := fun _ _ => Int.ofNat.inj
    exact List.Nodup.map inj List.nodup_range'
  range fd member := by
    obtain ⟨n, listed, rfl⟩ := List.mem_map.mp member
    have bounds := List.mem_range'_1.mp listed
    have room : n < maxFdNum := by simpa [maxFdNum] using bounds.2
    exact ⟨Int.natCast_nonneg n, Int.ofNat_lt.mpr room⟩
  opened fd f found := by simp [descriptors, openedFile, mounted, initialized, unmounted] at found
  dirs fd e found := by simp [descriptors, mounted, initialized, unmounted] at found
  covered fd room := by
    refine .inl (List.mem_map.mpr ⟨fd, List.mem_range'_1.mpr ⟨Nat.zero_le _, ?_⟩, rfl⟩)
    simpa [maxFdNum] using room
  streams fd := by simp [descriptors, mounted, initialized, unmounted]
  fresh stream fd found := by simp [descriptors, mounted, initialized, unmounted] at found
  links f known := absurd known (Nat.not_lt_zero f)

/-- In every run that closes no open stream and draws no descriptor for a file from an empty pool,
the descriptors are accounted for in every state. -/
theorem Reachable.descriptorsAccounted (reach : Reachable KeepsCount s) : DescriptorsAccounted s := by
  have both : Tracked s.descriptors ∧ Settled s := by
    refine reach.invariant (fun s => Tracked s.descriptors ∧ Settled s) (fun s fresh => ?_)
      fun s e s' hyp guard step => ?_
    · obtain ⟨d, env, attempts, rfl, large⟩ := fresh.eq_mounted
      exact ⟨tracked_mounted d env attempts, settled_mounted large env attempts⟩
    · obtain ⟨r, result⟩ := step.call
      have made : s.Made := by
        obtain ⟨_, _, _, stocked⟩ := hyp.2
        exact stocked.names
      exact ⟨call_tracked hyp.1 made guard.2 guard.1 result, hyp.2.call guard.1 result⟩
  exact both.1.accounted

omit [Crc32] in
/-- Decides whether a call closes no open stream and finds the pool filled. -/
def keepsCount (s : FileSystem) : Op → Bool
  | .closedir stream => (s.dirStreams.lookup stream).isNone
  | _ => !s.freeFdPool.isEmpty

theorem keepsCount_sound (s : FileSystem) (op : Op) (passed : s.keepsCount op = true) :
    s.KeepsCount op := by
  have filled (passed : (!s.freeFdPool.isEmpty) = true) : s.freeFdPool ≠ [] := by simpa using passed
  cases op with
  | closedir stream =>
    have missing : s.dirStreams.lookup stream = none := Option.isNone_iff_eq_none.mp passed
    refine ⟨fun stream' same => ?_, False.elim⟩
    obtain rfl := Op.closedir.inj same
    exact missing
  | _ => exact ⟨nofun, fun _ => filled passed⟩

omit [Crc32] in
/-- A file that is open under two descriptors, and one that was closed, next to a directory stream. -/
theorem Reachable.descriptorsAccounted_shared : ∃ s : FileSystem, s.openFiles.keys = [2, 0] ∧
    s.openDirs.keys = [1] ∧ (s.files 0).nlink = 2 ∧ DescriptorsAccounted s := by
  let _ := zeroCrc
  obtain ⟨s, reach, files, dirs, nlink⟩ := Reachable.exists_run
    [.openFile ['/', 'a'] 0o102, .opendir ['/'], .dup 0, .openFile ['/', 'b'] 0o102, .close 3]
    (fun s => s.openFiles.keys = [2, 0] ∧ s.openDirs.keys = [1] ∧ (s.files 0).nlink = 2)
    (freshDevice_fresh 8 fun _ => 0) steadyEnv_ok keepsCount_sound (by decide +kernel)
  exact ⟨s, files, dirs, nlink, reach.descriptorsAccounted⟩

omit [Crc32] in
/-- Closing an open stream puts its descriptor back into the pool and leaves it in `open_dirs_`. -/
theorem Tracked.closeDirectory (tracked : Tracked s.descriptors) {stream fd : Nat} {d : DirStream}
    (listed : s.dirStreams.lookup stream = some d) (same : d.fd = fd) :
    ¬DescriptorsAccounted (s.closeDirectory stream).1 := by
  intro accounted
  have streams : s.descriptors.streams stream = some (fd : Int) := by
    rw [← same]
    exact congrArg (Option.map (·.fd)) listed
  have there := (tracked.streams fd).mpr ⟨stream, streams⟩
  obtain ⟨e, entry⟩ := Option.isSome_iff_exists.mp there
  have room := (tracked.dirs fd e entry).1
  have put : ¬((kMaxFileNum <<< 1 : Nat) : Int) < d.fd := by
    have bound : fd < kMaxFileNum <<< 1 := room
    omega
  have placed := accounted.placed fd room
  rw [FileSystem.closeDirectory, listed] at placed
  dsimp only at placed
  rw [putFd, if_neg put, same] at placed
  have pooled : (fd : Int) ∈ s.freeFdPool ++ [(fd : Int)] := by simp
  have kept : fd ∈ s.openDirs := AList.lookup_isSome.mp there
  rcases placed with ⟨_, _, off⟩ | ⟨off, _, _⟩ | ⟨off, _, _⟩
  · exact off kept
  · exact off pooled
  · exact off pooled

omit [Crc32] in
/-- A directory is opened and closed again. -/
theorem not_descriptorsAccounted : ∃ s, @Reachable zeroCrc anyCall s ∧ ¬DescriptorsAccounted s := by
  let _ := zeroCrc
  have fresh := freshDevice_fresh 8 fun _ => 0
  obtain ⟨d, env, attempts, mounted, _⟩ := fresh.eq_mounted
  have tracked : Tracked (freshDevice 8 fun _ => 0).descriptors :=
    mounted ▸ tracked_mounted d env attempts
  have opened := openDirectory_tracked tracked ['/']
  have listed : ((freshDevice 8 fun _ => 0).openDirectory ['/']).1.dirStreams.lookup 0 =
      some { inited := false, fd := (0 : Nat), index := 0, dir := 0, dirItems := [] } := by
    rfl
  have first : Step (freshDevice 8 fun _ => 0) ⟨steadyEnv, .opendir ['/']⟩
      ((freshDevice 8 fun _ => 0).openDirectory ['/']).1 := by rfl
  have reach : Reachable anyCall ((freshDevice 8 fun _ => 0).openDirectory ['/']).1 :=
    .next (.start fresh) ⟨steadyEnv_ok, trivial⟩ first
  have second : Step ((freshDevice 8 fun _ => 0).openDirectory ['/']).1 ⟨steadyEnv, .closedir 0⟩
      (((freshDevice 8 fun _ => 0).openDirectory ['/']).1.closeDirectory 0).1 := rfl
  exact ⟨_, .next reach ⟨steadyEnv_ok, trivial⟩ second, opened.closeDirectory listed rfl⟩

end Accounts

end BlockFs.FileSystem
