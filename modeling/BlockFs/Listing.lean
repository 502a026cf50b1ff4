import BlockFs.Descriptors
import BlockFs.Paths
import BlockFs.Entries
import BlockFs.Stat
import BlockFs.Tree
import BlockFs.Relocation

namespace BlockFs.FileSystem

/-- The stream is read on as it was. -/
def KeepsStream (s t : FileSystem) (stream : Nat) : Prop :=
  stream < s.nextStream → t.dirStreams.lookup stream = s.dirStreams.lookup stream ∧ stream < t.nextStream

/-- What a stream that was read before hands out next. -/
def serve (s : FileSystem) (stream : Nat) (d : DirStream) : FileSystem × Option BlockFsDirent :=
  match d.dirItems[d.index]? with
  | some item =>
    ({ s with dirStreams := s.dirStreams.insert stream { d with index := d.index + 1 } }, some item)
  | none => ({ s with dirStreams := s.dirStreams.insert stream d }, none)

/-- The time stamps that a first read leaves. -/
def touched [Crc32] (s : FileSystem) (env : Env) (dir : DirectoryPtr) : FileSystem :=
  s.modifyDirMeta (s.directories dir).metaSlot fun m =>
    { m with mtime := env.now, ctime := env.now }.sealed

theorem readDirectory_eq [Crc32] {s : FileSystem} {env : Env} {stream : Nat} {d : DirStream}
    (found : s.dirStreams.lookup stream = some d) :
    s.readDirectory env stream = if d.inited then .ok (s.serve stream d)
      else s.scanDir d.dir >>= fun items => .ok ((s.touched env d.dir).serve stream
        { d with inited := true, dirItems := d.dirItems ++ items }) := by
  have served (t : FileSystem) (e : DirStream) : (match e.dirItems[e.index]? with
      | some item => (.ok ({ t with dirStreams := t.dirStreams.insert stream { e with index := e.index + 1 } },
          some item) : Except Fault (FileSystem × Option BlockFsDirent))
      | none => .ok ({ t with dirStreams := t.dirStreams.insert stream e }, none)) =
      .ok (t.serve stream e) := by
    unfold serve
    cases e.dirItems[e.index]? <;> rfl
  unfold readDirectory
  rw [found]
  dsimp only
  by_cases inited : d.inited = true
  · rw [if_pos inited, if_pos inited]
    exact served s d
  · rw [if_neg inited, if_neg inited]
    cases s.scanDir d.dir with
    | error fault => rfl
    | ok items => exact served _ _

section Streams
variable {s t u : FileSystem} {stream : Nat}

theorem KeepsStream.of_same (streams : t.dirStreams = s.dirStreams) (next : t.nextStream = s.nextStream) :
    s.KeepsStream t stream := by
  intro bound
  rw [streams, next]
  exact ⟨rfl, bound⟩

theorem KeepsStream.trans (first : s.KeepsStream t stream) (second : t.KeepsStream u stream) :
    s.KeepsStream u stream := by
  intro bound
  obtain ⟨same, there⟩ := first bound
  exact ⟨(second there).1.trans same, (second there).2⟩

theorem KeepsStream.of_outer (same : t.outer = s.outer) : s.KeepsStream t stream :=
  .of_same (congrArg Outer.dirStreams same) (congrArg Outer.nextStream same)

theorem KeepsStream.of_tables (same : t.tables = s.tables) : s.KeepsStream t stream :=
  .of_same (congrArg Tables.dirStreams same) (congrArg Tables.nextStream same)

theorem openFd_keepsStream (f : FilePtr) (flags : Nat) : s.KeepsStream (s.openFd f flags).1 stream := by
  unfold openFd getFd
  cases s.freeFdPool with
  | nil => exact .of_same rfl rfl
  | cons fd rest => exact .of_same rfl rfl

variable [Crc32] {env : Env} {op : Op} {r : Int}

theorem createFile_keepsStream (path : Name) (tmpfile : Bool) :
    s.KeepsStream (s.createFile env path tmpfile).1 stream := by
  rcases @createFile_outer _ s env path tmpfile with ⟨_, kept⟩ | ⟨_, made⟩
  · exact .of_outer kept
  · exact .of_same (congrArg Outer.dirStreams made) (congrArg Outer.nextStream made)

theorem openFile_keepsStream {path : Name} {flags : Nat} (ran : s.openFile env path flags = .ok (t, r)) :
    s.KeepsStream t stream := by
  obtain ⟨⟨u, target⟩, first, rest⟩ := Except.bind_eq_ok.mp ran
  have found : s.KeepsStream u stream := by
    cases openTarget_targeted first with
    | refused e => exact .of_same rfl rfl
    | taken e => exact .of_same rfl rfl
    | created e result =>
      next tmpfile =>
      have made := @createFile_keepsStream { s with errno := e } stream _ env path tmpfile
      rw [result] at made
      exact made
    | truncated e found result => exact .of_outer ((ftruncate_outer result).trans (errno_outer s e))
  cases target with
  | none =>
    obtain ⟨rfl, _⟩ := Prod.mk.inj (Except.ok.inj rest)
    exact found
  | some f =>
    rw [← (Prod.mk.inj (Except.ok.inj rest)).1]
    exact found.trans (openFd_keepsStream f flags)

theorem close_keepsStream (fd : Nat) : s.KeepsStream (s.close env fd).1 stream := by
  unfold close
  split
  · exact .of_same rfl rfl
  · next o _ =>
    have last := @closeLast_outer _ (s.modifyFile o.file fun f =>
      { f with locked := false, nlink := f.nlink - 1 }) env o.file
    dsimp only
    generalize (s.modifyFile o.file fun f =>
      { f with locked := false, nlink := f.nlink - 1 }).closeLast env o.file = u at last
    have streams : u.dirStreams = s.dirStreams := congrArg Outer.dirStreams last
    have next : u.nextStream = s.nextStream := congrArg Outer.nextStream last
    rw [putFd]
    split
    · exact .of_same streams next
    · exact .of_same streams next

theorem renamePath_keepsStream (oldpath newpath : Name) :
    s.KeepsStream (s.renamePath env oldpath newpath).1 stream := by
  unfold renamePath
  split
  · exact .of_same rfl rfl
  · split
    · exact .of_same rfl rfl
    · dsimp only
      split
      · exact .of_outer (fileRename_outer _)
      · split
        · exact .of_same rfl rfl
        · exact .of_tables (renameDirectory_tables _ _ _ _)

omit [Crc32] in
theorem pread_keepsStream {fd size offset : Nat} {o : OpenFile} {buffer back : Nat → UInt8}
    (ran : s.pread fd o buffer size offset = .ok (t, back, r)) : s.KeepsStream t stream := by
  rcases pread_cases ran with rfl | ⟨ret, rfl⟩
  · exact .of_same rfl rfl
  · exact .of_same rfl rfl

theorem pwrite_keepsStream {fd size offset : Nat} {o : OpenFile} {buffer : Nat → UInt8}
    (ran : s.pwrite env fd o buffer size offset = .ok (t, r)) : s.KeepsStream t stream := by
  cases pwrite_written ran with
  | kept => exact .of_same rfl rfl
  | failed grown => exact .of_outer (ftruncate_outer grown)
  | @written u grown data ret =>
    have before : s.KeepsStream u stream := by
      rcases grown with rfl | ⟨n, r, grown⟩
      · exact .of_same rfl rfl
      · exact .of_outer (ftruncate_outer grown)
    refine before.trans ?_
    unfold stamped
    split
    · exact .of_same rfl rfl
    · exact .of_same rfl rfl

omit [Crc32] in
theorem seekFile_keepsStream (fd : Nat) (offset : Int) (whence : Whence) :
    s.KeepsStream (s.seekFile fd offset whence).1 stream := by
  unfold seekFile
  split
  · exact .of_same rfl rfl
  · cases whence <;> exact .of_same rfl rfl

omit [Crc32] in
theorem fcntlFile_keepsStream (fd : Int) (lockType : LockType) :
    s.KeepsStream (s.fcntlFile fd lockType).1 stream := by
  unfold fcntlFile
  split
  · exact .of_same rfl rfl
  · cases lockType with
    | other => exact .of_same rfl rfl
    | unlck | rdlck | wrlck =>
      dsimp only
      split
      · exact .of_same rfl rfl
      · exact .of_same rfl rfl

omit [Crc32] in
theorem openDirectory_keepsStream (path : Name) : s.KeepsStream (s.openDirectory path).1 stream := by
  unfold openDirectory
  split
  · exact .of_same rfl rfl
  · exact .of_same rfl rfl
  · have taken : s.getFd.1.dirStreams = s.dirStreams ∧ s.getFd.1.nextStream = s.nextStream := by
      unfold getFd
      split
      · exact ⟨rfl, rfl⟩
      · exact ⟨rfl, rfl⟩
    generalize s.getFd = out at taken ⊢
    obtain ⟨u, fd⟩ := out
    obtain ⟨streams, next⟩ := taken
    dsimp only at streams next ⊢
    split
    · exact .of_same streams next
    · intro bound
      refine ⟨?_, Nat.lt_succ_of_lt (next ▸ bound)⟩
      rw [← streams]
      exact AList.lookup_insert_ne (next ▸ bound.ne)

theorem readDirectory_keepsStream {other : Nat} {item : Option BlockFsDirent} (apart : stream ≠ other)
    (ran : s.readDirectory env other = .ok (t, item)) : s.KeepsStream t stream := by
  have moved (u : FileSystem) (d : DirStream) (streams : u.dirStreams = s.dirStreams)
      (next : u.nextStream = s.nextStream) : s.KeepsStream (u.serve other d).1 stream := by
    intro bound
    unfold serve
    split
    · exact ⟨(AList.lookup_insert_ne apart).trans (by rw [streams]), next ▸ bound⟩
    · exact ⟨(AList.lookup_insert_ne apart).trans (by rw [streams]), next ▸ bound⟩
  cases found : s.dirStreams.lookup other with
  | none =>
    rw [readDirectory, found] at ran
    obtain ⟨rfl, _⟩ := Prod.mk.inj (Except.ok.inj ran)
    exact .of_same rfl rfl
  | some d =>
    rw [readDirectory_eq found] at ran
    split at ran
    · rw [← show (s.serve other d).1 = t from congrArg Prod.fst (Except.ok.inj ran)]
      exact moved s d rfl rfl
    · obtain ⟨items, _, ran⟩ := Except.bind_eq_ok.mp ran
      rw [← show _ = t from congrArg Prod.fst (Except.ok.inj ran)]
      exact moved _ _ rfl rfl

omit [Crc32] in
theorem closeDirectory_keepsStream {other : Nat} (apart : stream ≠ other) :
    s.KeepsStream (s.closeDirectory other).1 stream := by
  unfold closeDirectory putFd
  split
  · exact .of_same rfl rfl
  · dsimp only
    split
    · exact fun bound => ⟨AList.lookup_erase_ne apart, bound⟩
    · exact fun bound => ⟨AList.lookup_erase_ne apart, bound⟩

/-- Only `ReadDirectory` and `CloseDirectory` on the stream itself touch it. -/
theorem call_keepsStream (result : s.call env op = .ok (t, r)) (read : op ≠ .readdir stream)
    (close : op ≠ .closedir stream) : s.KeepsStream t stream := by
  cases op with
  | createFile path =>
    have made : (s.createFilePath env path).1 = (s.createFile env path false).1 := by
      unfold createFilePath
      split <;> next same => rw [same]
    rw [← show (s.createFilePath env path).1 = t from congrArg Prod.fst (Except.ok.inj result), made]
    exact createFile_keepsStream path false
  | openFile path flags => exact openFile_keepsStream result
  | close fd =>
    rw [← show (s.close env fd).1 = t from congrArg Prod.fst (Except.ok.inj result)]
    exact close_keepsStream fd
  | dup oldfd =>
    rw [← show (s.dup oldfd).1 = t from congrArg Prod.fst (Except.ok.inj result)]
    unfold dup
    split
    · exact .of_same rfl rfl
    · exact openFd_keepsStream _ 0
  | unlink path =>
    rw [← show (s.unlink env path).1 = t from congrArg Prod.fst (Except.ok.inj result)]
    exact .of_outer (unlink_outer path)
  | rename oldpath newpath =>
    rw [← show (s.renamePath env oldpath newpath).1 = t from congrArg Prod.fst (Except.ok.inj result)]
    exact renamePath_keepsStream oldpath newpath
  | truncatePath path size =>
    have cut : s.truncatePath env path size = .ok (t, r) := result
    unfold truncatePath at cut
    split at cut
    · obtain ⟨rfl, _⟩ := Prod.mk.inj (Except.ok.inj cut)
      exact .of_same rfl rfl
    · exact .of_outer (ftruncate_outer cut)
  | truncateFd fd size =>
    have cut : s.truncateFd env fd size = .ok (t, r) := result
    unfold truncateFd at cut
    split at cut
    · obtain ⟨rfl, _⟩ := Prod.mk.inj (Except.ok.inj cut)
      exact .of_same rfl rfl
    · exact .of_outer (ftruncate_outer cut)
  | pwrite fd buffer len offset =>
    have wrote : s.pwriteFile env fd buffer len offset = .ok (t, r) := result
    unfold pwriteFile at wrote
    split at wrote
    · obtain ⟨rfl, _⟩ := Prod.mk.inj (Except.ok.inj wrote)
      exact .of_same rfl rfl
    · exact pwrite_keepsStream wrote
  | pread fd len offset =>
    obtain ⟨⟨u, back, n⟩, first, rest⟩ := Except.bind_eq_ok.mp result
    obtain ⟨rfl, _⟩ := Prod.mk.inj (Except.ok.inj rest)
    unfold preadFile at first
    split at first
    · obtain ⟨rfl, _⟩ := Prod.mk.inj (Except.ok.inj first)
      exact .of_same rfl rfl
    · exact pread_keepsStream first
  | read fd len =>
    obtain ⟨⟨u, back, n⟩, first, rest⟩ := Except.bind_eq_ok.mp result
    obtain ⟨rfl, _⟩ := Prod.mk.inj (Except.ok.inj rest)
    unfold readFile at first
    split at first
    · obtain ⟨rfl, _⟩ := Prod.mk.inj (Except.ok.inj first)
      exact .of_same rfl rfl
    · exact pread_keepsStream first
  | seek fd offset whence =>
    rw [← show (s.seekFile fd offset whence).1 = t from congrArg Prod.fst (Except.ok.inj result)]
    exact seekFile_keepsStream fd offset whence
  | fcntl fd lockType =>
    rw [← show (s.fcntlFile fd lockType).1 = t from congrArg Prod.fst (Except.ok.inj result)]
    exact fcntlFile_keepsStream fd lockType
  | mkdir path => exact .of_tables (createDirectory_tables s env result)
  | rmdir path =>
    rw [← show (s.deleteDirectory env path).1 = t from congrArg Prod.fst (Except.ok.inj result)]
    exact .of_tables (deleteDirectory_tables s env path)
  | opendir path =>
    have opened := @openDirectory_keepsStream s stream path
    unfold call at result
    dsimp only at result
    split at result
    · next u none =>
      obtain ⟨rfl, _⟩ := Prod.mk.inj (Except.ok.inj result)
      rwa [none] at opened
    · next u stream some_ =>
      obtain ⟨rfl, _⟩ := Prod.mk.inj (Except.ok.inj result)
      rwa [some_] at opened
  | readdir other =>
    obtain ⟨⟨u, item⟩, first, rest⟩ := Except.bind_eq_ok.mp result
    obtain ⟨rfl, _⟩ := Prod.mk.inj (Except.ok.inj rest)
    exact readDirectory_keepsStream (fun same => read (congrArg Op.readdir same.symm)) first
  | closedir other =>
    rw [← show (s.closeDirectory other).1 = t from congrArg Prod.fst (Except.ok.inj result)]
    exact closeDirectory_keepsStream fun same => close (congrArg Op.closedir same.symm)

end Streams

/-- A call by someone else, or on another stream. -/
def Elsewhere [Crc32] (stream : Nat) (s t : FileSystem) : Prop :=
  ∃ e : Event, e.env.IoOk ∧ e.op ≠ .readdir stream ∧ e.op ≠ .closedir stream ∧ Step s e t

/-- The entries that `ReadDirectory` returns on a stream until it returns null, whatever is called in
between. -/
inductive ReadsOn [Crc32] (stream : Nat) : FileSystem → List BlockFsDirent → Prop
  | entry {s env t u item items} (read : s.readDirectory env stream = .ok (t, some item))
    (between : Relation.ReflTransGen (Elsewhere stream) t u) (rest : ReadsOn stream u items) :
    ReadsOn stream s (item :: items)
  | last {s env t} (read : s.readDirectory env stream = .ok (t, none)) : ReadsOn stream s []

/-- The kinds and handles of the child directories and the files of a directory. -/
def children (s : FileSystem) (dir : DirectoryPtr) : List (Bool × Nat) :=
  ((s.directories dir).childDirMaps.entries.map fun child => (true, child.1)) ++
    (s.directories dir).itemMaps.entries.map fun item => (false, item.1)

/-- The name of an entry fits into its field, it is the last component of the path of the child with
the handle of the entry, and behind the path of the directory it leads to that child. -/
structure Names (s : FileSystem) (dir : DirectoryPtr) (item : BlockFsDirent) : Prop where
  fits : item.dName.length < 256
  component : IsComponent item.dName
  directory : item.dIsDir = true → ∃ child base,
    (s.directories dir).childDirMaps.lookup item.dIno = some child ∧
    (s.dirMeta child).dirName = base ++ '/' :: item.dName ++ ['/'] ∧
    s.resolve ((s.dirMeta dir).dirName ++ item.dName) = some (.directory child)
  file : item.dIsDir = false → ∃ f, (s.directories dir).itemMaps.lookup item.dIno = some f ∧
    (s.fileMeta f).fileName = item.dName ∧
    s.resolve ((s.dirMeta dir).dirName ++ item.dName) = some (.file f)

/-- Reading the stream, from a first call in the state `s`, runs over no field, comes to an end and
lists the children of the directory as they are in `s`. -/
structure ListsExactly [Crc32] (s : FileSystem) (stream : Nat) (dir : DirectoryPtr) : Prop where
  runs : ∀ env fault, s.readDirectory env stream ≠ .error fault
  ends : ∃ items, ReadsOn stream s items
  lists : ∀ items, ReadsOn stream s items →
    (items.map fun item => (item.dIsDir, item.dIno)).Perm (s.children dir) ∧
      ∀ item ∈ items, s.Names dir item

/-- The children are still entered under the path of the directory and their own names, which are
components that fit, and no directory shares its path with a file. -/
structure Listable (s : FileSystem) (dir : DirectoryPtr) : Prop where
  directories : ∀ x child, (s.directories dir).childDirMaps.lookup x = some child →
    ∃ base name, IsComponent name ∧ name.length < 256 ∧ (s.dirMeta dir).dirName = base ++ ['/'] ∧
      (s.dirMeta child).dirName = base ++ '/' :: name ++ ['/'] ∧
      (s.dirMeta child).dirName.length < kBlockFsMaxDirNameLen ∧
      s.createdDirs.lookup (s.dirMeta child).dirName = some child ∧
      ∀ f, s.getCreatedFile ((s.dirMeta dir).dirName ++ name) ≠ .ok f
  files : ∀ x f, (s.directories dir).itemMaps.lookup x = some f →
    IsComponent (s.fileMeta f).fileName ∧ (s.fileMeta f).fileName.length < kBlockFsMaxFileNameLen ∧
      s.createdFiles.lookup (s.key f) = some f ∧
      s.getCreatedDirectory (getDirName ((s.dirMeta dir).dirName ++ (s.fileMeta f).fileName)) = .ok dir

instance (name : Name) : Decidable (IsComponent name) := inferInstanceAs (Decidable (_ ∧ _))

instance (s : FileSystem) (dir : DirectoryPtr) : Decidable (s.Listable dir) :=
  decidable_of_iff
    ((∀ child ∈ (s.directories dir).childDirMaps.entries,
      IsComponent (getFileName (s.dirMeta child.2).dirName.dropLast) ∧
      (getFileName (s.dirMeta child.2).dirName.dropLast).length < 256 ∧
      (s.dirMeta dir).dirName = (s.dirMeta dir).dirName.dropLast ++ ['/'] ∧
      (s.dirMeta child.2).dirName = (s.dirMeta dir).dirName.dropLast ++
        '/' :: getFileName (s.dirMeta child.2).dirName.dropLast ++ ['/'] ∧
      (s.dirMeta child.2).dirName.length < kBlockFsMaxDirNameLen ∧
      s.createdDirs.lookup (s.dirMeta child.2).dirName = some child.2 ∧
      (s.getCreatedFile ((s.dirMeta dir).dirName ++
        getFileName (s.dirMeta child.2).dirName.dropLast)).toOption = none) ∧
    ∀ item ∈ (s.directories dir).itemMaps.entries,
      IsComponent (s.fileMeta item.2).fileName ∧
      (s.fileMeta item.2).fileName.length < kBlockFsMaxFileNameLen ∧
      s.createdFiles.lookup (s.key item.2) = some item.2 ∧
      (s.getCreatedDirectory (getDirName ((s.dirMeta dir).dirName ++
        (s.fileMeta item.2).fileName))).toOption = some dir)
    (by
      have absent (path : Name) : (s.getCreatedFile path).toOption = none ↔
          ∀ f, s.getCreatedFile path ≠ .ok f := by
        cases s.getCreatedFile path <;> simp [Except.toOption]
      have leads (path : Name) : (s.getCreatedDirectory path).toOption = some dir ↔
          s.getCreatedDirectory path = .ok dir := by
        cases s.getCreatedDirectory path <;> simp [Except.toOption]
      constructor
      · rintro ⟨directories, files⟩
        refine ⟨fun x child listed => ?_, fun x f listed => ?_⟩
        · obtain ⟨component, fits, ends, path, short, entered, noFile⟩ :=
            directories ⟨x, child⟩ (AList.mem_lookup_iff.mp listed)
          exact ⟨_, _, component, fits, ends, path, short, entered, (absent _).mp noFile⟩
        · obtain ⟨component, short, entered, parent⟩ := files ⟨x, f⟩ (AList.mem_lookup_iff.mp listed)
          exact ⟨component, short, entered, (leads _).mp parent⟩
      · rintro ⟨directories, files⟩
        refine ⟨fun child member => ?_, fun item member => ?_⟩
        · obtain ⟨base, name, component, fits, ends, path, short, entered, noFile⟩ :=
            directories child.1 child.2 (AList.mem_lookup_iff.mpr member)
          have bare : getFileName (s.dirMeta child.2).dirName.dropLast = name := by
            rw [path, List.dropLast_concat, List.append_cons, getFileName_append List.getLast?_concat component.2]
          rw [bare]
          have cut : (s.dirMeta dir).dirName.dropLast = base := by rw [ends, List.dropLast_concat]
          rw [cut]
          exact ⟨component, fits, ends, path, short, entered, (absent _).mpr noFile⟩
        · obtain ⟨component, short, entered, parent⟩ :=
            files item.1 item.2 (AList.mem_lookup_iff.mpr member)
          exact ⟨component, short, entered, (leads _).mpr parent⟩)

section Reading
variable [Crc32] {s t u : FileSystem} {env : Env} {stream : Nat} {d : DirStream}
  {items scan : List BlockFsDirent}

theorem Elsewhere.keepsStream (between : Relation.ReflTransGen (Elsewhere stream) s t) :
    s.KeepsStream t stream := by
  induction between with
  | refl => exact .of_same rfl rfl
  | tail _ last ih =>
    obtain ⟨e, _, read, close, step⟩ := last
    unfold Step next at step
    split at step
    · simp at step
    · next result =>
      obtain rfl := Except.ok.inj step
      exact ih.trans (call_keepsStream result read close)

omit [Crc32] in
theorem serve_some {item : BlockFsDirent} (served : (s.serve stream d).2 = some item) :
    d.dirItems[d.index]? = some item ∧ (s.serve stream d).1.nextStream = s.nextStream ∧
      (s.serve stream d).1.dirStreams.lookup stream = some { d with index := d.index + 1 } := by
  unfold serve at served ⊢
  split at served
  · next found => exact ⟨found.trans served, rfl, AList.lookup_insert _⟩
  · simp at served

omit [Crc32] in
theorem serve_none (served : (s.serve stream d).2 = none) : d.dirItems[d.index]? = none := by
  unfold serve at served
  split at served
  · simp at served
  · next missing => exact missing

/-- A stream that was read before hands out what is left of it. -/
theorem ReadsOn.rest (reads : ReadsOn stream s items) (found : s.dirStreams.lookup stream = some d)
    (inited : d.inited = true) (bound : stream < s.nextStream) : items = d.dirItems.drop d.index := by
  induction reads generalizing d with
  | @entry s env t u item items read between _ ih =>
    rw [readDirectory_eq found, if_pos inited] at read
    have served := Except.ok.inj read
    obtain ⟨here, next, there⟩ := serve_some (congrArg Prod.snd served)
    rw [congrArg Prod.fst served] at next there
    obtain ⟨same, bound'⟩ := Elsewhere.keepsStream between (next ▸ bound)
    rw [ih (same.trans there) inited bound']
    obtain ⟨less, at_⟩ := List.getElem?_eq_some_iff.mp here
    rw [List.drop_eq_getElem_cons less, at_]
  | last read =>
    rw [readDirectory_eq found, if_pos inited] at read
    have missing := serve_none (congrArg Prod.snd (Except.ok.inj read))
    exact (List.drop_eq_nil_of_le (List.getElem?_eq_none_iff.mp missing)).symm

/-- The first read takes the entries of the directory as they are then. -/
theorem ReadsOn.snapshot (reads : ReadsOn stream s items) (found : s.dirStreams.lookup stream = some d)
    (fresh : d.inited = false ∧ d.index = 0 ∧ d.dirItems = []) (bound : stream < s.nextStream) :
    s.scanDir d.dir = .ok items := by
  obtain ⟨closed, start, bare⟩ := fresh
  cases reads with
  | @entry _ env t u item items read between rest =>
    rw [readDirectory_eq found, closed, if_neg Bool.false_ne_true] at read
    obtain ⟨scan, scanned, read⟩ := Except.bind_eq_ok.mp read
    have served := Except.ok.inj read
    obtain ⟨here, next, there⟩ := serve_some (congrArg Prod.snd served)
    rw [congrArg Prod.fst served] at next there
    have next : t.nextStream = s.nextStream := next
    obtain ⟨same, bound'⟩ := Elsewhere.keepsStream between (next ▸ bound)
    rw [rest.rest (same.trans there) rfl bound']
    dsimp only at here ⊢
    rw [bare, start, List.nil_append] at here ⊢
    obtain ⟨less, at_⟩ := List.getElem?_eq_some_iff.mp here
    rw [scanned, ← at_, ← List.drop_eq_getElem_cons less, List.drop_zero]
  | last read =>
    rw [readDirectory_eq found, closed, if_neg Bool.false_ne_true] at read
    obtain ⟨scan, scanned, read⟩ := Except.bind_eq_ok.mp read
    have missing := serve_none (congrArg Prod.snd (Except.ok.inj read))
    dsimp only at missing
    rw [bare, start, List.nil_append, List.getElem?_eq_none_iff, Nat.le_zero,
      List.length_eq_zero_iff] at missing
    rw [scanned, missing]

/-- Reading on comes to an end. -/
theorem ReadsOn.exists_rest (found : s.dirStreams.lookup stream = some d)
    (inited : d.inited = true) : ∃ items, ReadsOn stream s items := by
  induction left : d.dirItems.length - d.index generalizing s d with
  | zero =>
    have none_ : d.dirItems[d.index]? = none := List.getElem?_eq_none_iff.mpr (by omega)
    refine ⟨[], @ReadsOn.last _ stream s steadyEnv (s.serve stream d).1 ?_⟩
    rw [readDirectory_eq found, if_pos inited]
    unfold serve
    rw [none_]
  | succ left ih =>
    have less : d.index < d.dirItems.length := by omega
    have some_ : d.dirItems[d.index]? = some d.dirItems[d.index] := List.getElem?_eq_getElem less
    have read : s.readDirectory steadyEnv stream = .ok ((s.serve stream d).1, some d.dirItems[d.index]) := by
      rw [readDirectory_eq found, if_pos inited]
      unfold serve
      rw [some_]
    obtain ⟨_, _, there⟩ := @serve_some s stream d d.dirItems[d.index] (by unfold serve; rw [some_])
    obtain ⟨items, rest⟩ := ih there inited (by dsimp only; omega)
    exact ⟨_, .entry read .refl rest⟩

/-- A fresh stream lists exactly when the directory can be scanned, with right names. -/
theorem listsExactly_iff_scan (found : s.dirStreams.lookup stream = some d)
    (fresh : d.inited = false ∧ d.index = 0 ∧ d.dirItems = []) (bound : stream < s.nextStream) :
    s.ListsExactly stream d.dir ↔ ∃ scan, s.scanDir d.dir = .ok scan ∧
      (scan.map fun item => (item.dIsDir, item.dIno)).Perm (s.children d.dir) ∧
      ∀ item ∈ scan, s.Names d.dir item := by
  constructor
  · intro exact_
    obtain ⟨items, reads⟩ := exact_.ends
    exact ⟨items, reads.snapshot found fresh bound, exact_.lists items reads⟩
  · rintro ⟨scan, scanned, same, names⟩
    have first (env : Env) : s.readDirectory env stream = .ok ((s.touched env d.dir).serve stream
        { d with inited := true, dirItems := d.dirItems ++ scan }) := by
      rw [readDirectory_eq found, fresh.1, if_neg Bool.false_ne_true, scanned]
      rfl
    refine ⟨fun env fault stops => by simp [first] at stops, ?_, fun items reads => ?_⟩
    · cases served : (s.touched steadyEnv d.dir).serve stream
          { d with inited := true, dirItems := d.dirItems ++ scan } with
      | mk t item =>
        have read := (first steadyEnv).trans (congrArg Except.ok served)
        cases item with
        | none => exact ⟨[], .last read⟩
        | some item =>
          obtain ⟨_, _, there⟩ := serve_some (congrArg Prod.snd served)
          rw [served] at there
          obtain ⟨items, rest⟩ := ReadsOn.exists_rest there rfl
          exact ⟨_, .entry read .refl rest⟩
    · have again := reads.snapshot found fresh bound
      obtain rfl := Except.ok.inj (scanned.symm.trans again)
      exact ⟨same, names⟩

end Reading

section Scanning
variable {s : FileSystem} {dir child : DirectoryPtr} {f : FilePtr} {x : Nat} {name base path : Name}
  {item : BlockFsDirent} {scan : List BlockFsDirent}

theorem resolve_eq_directory : s.resolve path = some (.directory dir) ↔
    (∀ f, s.getCreatedFile path ≠ .ok f) ∧ s.getCreatedDirectory path = .ok dir := by
  rw [resolve]
  cases s.getCreatedFile path with
  | ok f => simp
  | error e =>
    cases s.getCreatedDirectory path with
    | ok d => simp [Except.toOption]
    | error e => simp [Except.toOption]

/-- The last component of the path of a child directory. -/
theorem scanChildDirectory_of_path (path : (s.dirMeta child).dirName = base ++ '/' :: name ++ ['/'])
    (component : IsComponent name) : s.scanChildDirectory child =
      if 256 < name.length + 1 then .error .direntOverflow
      else .ok { dIno := (s.dirMeta child).dh, dIsDir := true, dReclen := 0, dName := name,
                 dTime := (s.dirMeta child).atime } := by
  unfold scanChildDirectory
  dsimp only
  rw [path, if_pos List.getLast?_concat, List.dropLast_concat, List.append_cons,
    getFileName_append List.getLast?_concat component.2]

/-- The entries of a scan. -/
theorem mem_scanDir (scanned : s.scanDir dir = .ok scan) : item ∈ scan ↔
    (∃ x child, (s.directories dir).childDirMaps.lookup x = some child ∧
      s.scanChildDirectory child = .ok item) ∨
    ∃ x f, (s.directories dir).itemMaps.lookup x = some f ∧ s.scanChildFile f = item := by
  obtain ⟨dirs, traversed, last⟩ := Except.bind_eq_ok.mp scanned
  obtain rfl := Except.ok.inj last
  rw [List.mem_append, Except.mem_of_mapM traversed, List.mem_map]
  refine or_congr ⟨?_, ?_⟩ ⟨?_, ?_⟩
  · rintro ⟨⟨x, child⟩, member, entry⟩
    exact ⟨x, child, AList.mem_lookup_iff.mpr member, entry⟩
  · rintro ⟨x, child, listed, entry⟩
    exact ⟨⟨x, child⟩, AList.mem_lookup_iff.mp listed, entry⟩
  · rintro ⟨⟨x, f⟩, member, entry⟩
    exact ⟨x, f, AList.mem_lookup_iff.mpr member, entry⟩
  · rintro ⟨x, f, listed, entry⟩
    exact ⟨⟨x, f⟩, AList.mem_lookup_iff.mp listed, entry⟩

theorem scanDir_ok : (∃ scan, s.scanDir dir = .ok scan) ↔
    ∀ x child, (s.directories dir).childDirMaps.lookup x = some child →
      ∃ item, s.scanChildDirectory child = .ok item := by
  constructor
  · rintro ⟨scan, scanned⟩ x child listed
    obtain ⟨dirs, traversed, _⟩ := Except.bind_eq_ok.mp scanned
    exact Except.mapM_isOk.mp ⟨dirs, traversed⟩ ⟨x, child⟩ (AList.mem_lookup_iff.mp listed)
  · intro entries
    obtain ⟨dirs, traversed⟩ := Except.mapM_isOk.mpr fun (child : Sigma fun _ : Nat => DirectoryPtr)
      member => entries child.1 child.2 (AList.mem_lookup_iff.mpr member)
    refine ⟨dirs ++ (s.directories dir).itemMaps.entries.map fun item => s.scanChildFile item.2, ?_⟩
    rw [scanDir, traversed]
    rfl

theorem getCreatedDirectory_known (housed : Housed s) (found : s.getCreatedDirectory path = .ok dir) :
    dir < s.nextDirectory := by
  obtain ⟨entry, entered⟩ := getCreatedDirectory_ok found
  exact housed.paths entry dir entered

theorem scanChildDirectory_kind (entry : s.scanChildDirectory child = .ok item) :
    item.dIsDir = true ∧ item.dIno = (s.dirMeta child).dh := by
  unfold scanChildDirectory at entry
  dsimp only at entry
  generalize getFileName (if (s.dirMeta child).dirName.getLast? = some '/' then
    (s.dirMeta child).dirName.dropLast else (s.dirMeta child).dirName) = bare at entry
  split at entry
  · simp at entry
  · rw [← Except.ok.inj entry]
    exact ⟨rfl, rfl⟩

/-- The entries have the kinds and handles of the children. -/
theorem scanDir_children (housed : Housed s) (filed : Filed s) (bound : dir < s.nextDirectory)
    (scanned : s.scanDir dir = .ok scan) :
    (scan.map fun item => (item.dIsDir, item.dIno)) = s.children dir := by
  obtain ⟨dirs, traversed, last⟩ := Except.bind_eq_ok.mp scanned
  obtain rfl := Except.ok.inj last
  rw [List.map_append, List.map_map, children]
  congr 1
  · refine Except.map_of_mapM traversed fun child member item entry => ?_
    obtain ⟨_, slot⟩ := housed.children dir bound child.1 child.2 (AList.mem_lookup_iff.mpr member)
    obtain ⟨kind, handle⟩ := scanChildDirectory_kind entry
    rw [kind, handle, housed.dirMeta_dh, slot]
  · refine List.map_congr_left fun item member => ?_
    obtain ⟨_, slot, _⟩ := filed.listed dir bound item.1 item.2 (AList.mem_lookup_iff.mpr member)
    exact Prod.ext rfl ((filed.fhs _).trans slot)

theorem closed_of_parent (housed : Housed s) (parent : s.getCreatedDirectory (getDirName path) = .ok dir) :
    (s.dirMeta dir).dirName.getLast? = some '/' := by
  have entered := getCreatedDirectory_found (getDirName_slash path) parent
  rw [(housed.named _ dir entered).1]
  exact getDirName_slash path

/-- The entry of a child directory has the right name exactly when the child can be listed. -/
theorem names_directory (housed : Housed s) (known : dir < s.nextDirectory)
    (listed : (s.directories dir).childDirMaps.lookup x = some child) :
    (∃ item, s.scanChildDirectory child = .ok item ∧ s.Names dir item) ↔
    ∃ base name, IsComponent name ∧ name.length < 256 ∧ (s.dirMeta dir).dirName = base ++ ['/'] ∧
      (s.dirMeta child).dirName = base ++ '/' :: name ++ ['/'] ∧
      (s.dirMeta child).dirName.length < kBlockFsMaxDirNameLen ∧
      s.createdDirs.lookup (s.dirMeta child).dirName = some child ∧
      ∀ f, s.getCreatedFile ((s.dirMeta dir).dirName ++ name) ≠ .ok f := by
  have slot : (s.dirMeta child).dh = x :=
    (housed.dirMeta_dh child).trans (housed.children dir known x child listed).2
  have closes (name : Name) (component : IsComponent name) :
      (if ((s.dirMeta dir).dirName ++ name).getLast? = some '/' then (s.dirMeta dir).dirName ++ name
        else (s.dirMeta dir).dirName ++ name ++ ['/']) = (s.dirMeta dir).dirName ++ name ++ ['/'] :=
    if_neg (component.last _)
  constructor
  · rintro ⟨item, entry, names⟩
    obtain ⟨kind, handle⟩ := scanChildDirectory_kind entry
    obtain ⟨child', base, found, path, leadsTo⟩ := names.directory kind
    rw [handle, slot, listed] at found
    obtain rfl := Option.some.inj found
    obtain ⟨noFile, there⟩ := resolve_eq_directory.mp leadsTo
    obtain ⟨dirName, parts, _⟩ := Except.bind_eq_ok.mp there
    have entered := (getCreatedDirectory_eq parts).mp there
    obtain ⟨same, short⟩ := dirTransformPath_ok parts
    rw [closes _ names.component] at same
    have named := (housed.named dirName child entered).1
    have ends : (s.dirMeta dir).dirName = base ++ ['/'] := by
      have both := (named.trans same).symm.trans path
      rw [List.append_assoc, show base ++ '/' :: item.dName ++ ['/'] = base ++ ['/'] ++ (item.dName ++ ['/'])
        by simp] at both
      exact List.append_cancel_right both
    exact ⟨base, item.dName, names.component, names.fits, ends, path, named ▸ short, named ▸ entered, noFile⟩
  · rintro ⟨base, name, component, fits, ends, path, short, entered, noFile⟩
    have entry := scanChildDirectory_of_path path component
    rw [if_neg (by omega)] at entry
    refine ⟨_, entry, fits, component, fun _ => ⟨child, base, slot ▸ listed, path, ?_⟩, fun file => ?_⟩
    · have joined : (s.dirMeta dir).dirName ++ name ++ ['/'] = (s.dirMeta child).dirName := by
        rw [ends, path, List.append_assoc base]
        rfl
      have parts : DirHandle.transformPath ((s.dirMeta dir).dirName ++ name) = .ok (s.dirMeta child).dirName := by
        rw [DirHandle.transformPath, closes name component, joined, if_neg (by omega)]
      exact resolve_eq_directory.mpr ⟨noFile, (getCreatedDirectory_eq parts).mpr entered⟩
    · simp at file

/-- The entry of a file has the right name exactly when the file can be listed. -/
theorem names_file (housed : Housed s) (filed : Filed s) (known : dir < s.nextDirectory)
    (listed : (s.directories dir).itemMaps.lookup x = some f) :
    s.Names dir (s.scanChildFile f) ↔
      IsComponent (s.fileMeta f).fileName ∧ (s.fileMeta f).fileName.length < kBlockFsMaxFileNameLen ∧
      s.createdFiles.lookup (s.key f) = some f ∧
      s.getCreatedDirectory (getDirName ((s.dirMeta dir).dirName ++ (s.fileMeta f).fileName)) = .ok dir := by
  obtain ⟨_, slot, home⟩ := filed.listed dir known x f listed
  have handle : (s.fileMeta f).fh = x := (filed.fhs _).trans slot
  have entry : (s.scanChildFile f).dIno = x := handle
  have entryName : (s.scanChildFile f).dName = (s.fileMeta f).fileName := rfl
  constructor
  · intro names
    have component : IsComponent (s.fileMeta f).fileName := names.component
    obtain ⟨g, found, _, leadsTo⟩ := names.file rfl
    rw [entry, listed] at found
    obtain rfl := Option.some.inj found
    obtain ⟨_, short, d, parent, entered⟩ := getCreatedFile_eq_ok.mp (resolve_eq_file.mp leadsTo)
    rw [entryName] at short parent entered
    obtain ⟨key, _⟩ := filed.names _ f entered
    have same : d = dir := by
      refine housed.apart d (getCreatedDirectory_known housed parent) dir known ?_
      rw [home, ← housed.dirMeta_dh]
      exact congrArg Prod.fst key
    rw [same] at parent
    rw [getFileName_append (closed_of_parent housed parent) component.2] at short
    exact ⟨component, short, key ▸ entered, parent⟩
  · rintro ⟨component, short, entered, parent⟩
    have closed := closed_of_parent housed parent
    refine ⟨lt_trans short (by decide), component, fun directory => ?_, fun _ => ⟨f, entry.symm ▸ listed, rfl, ?_⟩⟩
    · simp [scanChildFile] at directory
    · refine resolve_eq_file.mpr (getCreatedFile_eq_ok.mpr ⟨component.last _, ?_⟩)
      rw [entryName, getFileName_append closed component.2]
      refine ⟨short, dir, parent, ?_⟩
      rw [housed.dirMeta_dh, home]
      exact entered

/-- A fresh stream lists its directory exactly when the directory can be listed. -/
theorem listsExactly_iff_listable [Crc32] {stream : Nat} {d : DirStream} (housed : Housed s)
    (filed : Filed s) (known : d.dir < s.nextDirectory) (found : s.dirStreams.lookup stream = some d)
    (fresh : d.inited = false ∧ d.index = 0 ∧ d.dirItems = []) (bound : stream < s.nextStream) :
    s.ListsExactly stream d.dir ↔ s.Listable d.dir := by
  rw [listsExactly_iff_scan found fresh bound]
  constructor
  · rintro ⟨scan, scanned, _, names⟩
    refine ⟨fun x child listed => ?_, fun x f listed => ?_⟩
    · obtain ⟨item, entry⟩ := scanDir_ok.mp ⟨scan, scanned⟩ x child listed
      have member := (mem_scanDir scanned).mpr (.inl ⟨x, child, listed, entry⟩)
      exact (names_directory housed known listed).mp ⟨item, entry, names item member⟩
    · have member := (mem_scanDir scanned).mpr (.inr ⟨x, f, listed, rfl⟩)
      exact (names_file housed filed known listed).mp (names _ member)
  · intro listable
    have entry (x : Nat) (child : DirectoryPtr)
        (listed : (s.directories d.dir).childDirMaps.lookup x = some child) :=
      (names_directory housed known listed).mpr (listable.directories x child listed)
    obtain ⟨scan, scanned⟩ := scanDir_ok.mpr fun x child listed =>
      (entry x child listed).imp fun item holds => holds.1
    refine ⟨scan, scanned, .of_eq (scanDir_children housed filed known scanned), fun item member => ?_⟩
    rcases (mem_scanDir scanned).mp member with ⟨x, child, listed, scans⟩ | ⟨x, f, listed, rfl⟩
    · obtain ⟨item', scans', names⟩ := entry x child listed
      obtain rfl := Except.ok.inj (scans.symm.trans scans')
      exact names
    · exact (names_file housed filed known listed).mpr (listable.files x f listed)

end Scanning

section Running
variable [Crc32] {s t u : FileSystem} {env : Env} {stream : Nat} {dir : DirectoryPtr} {path : Name}
  {guard : FileSystem → Op → Prop}

/-- No turn takes a directory away. -/
theorem Turn.more (housed : Housed s) (turn : Turn env s t) : s.nextDirectory ≤ t.nextDirectory := by
  cases turn with
  | surface same => exact (congrArg Beneath.nextDirectory same).ge
  | created path tmpfile =>
    rcases @createFile_outer _ s env path tmpfile with ⟨_, kept⟩ | ⟨_, made⟩
    · exact (congrArg Outer.nextDirectory kept).ge
    · exact (congrArg Outer.nextDirectory made).ge
  | truncated _ result => exact (congrArg Outer.nextDirectory (ftruncate_outer result)).ge
  | stamped => exact le_refl _
  | discarded => exact (congrArg Outer.nextDirectory (unlinkFileNolock_outer _)).ge
  | unlinked path => exact (congrArg Outer.nextDirectory (unlink_outer path)).ge
  | renamed _ target => exact (congrArg Outer.nextDirectory (fileRename_outer target)).ge
  | madeDirectory result => exact (housed.createDirectory env result).more
  | droppedDirectory path => exact (housed.deleteDirectory env path).more
  | movedDirectory source target => exact (housed.renameDirectory env source target).more
  | readDirectory result => exact (housed.readDirectory env result).more

theorem Sheltered.call_more (sheltered : Sheltered s) {op : Op} {r : Int}
    (result : s.call env op = .ok (t, r)) : s.nextDirectory ≤ t.nextDirectory := by
  have turns := call_turns result
  clear result
  suffices both : Sheltered t ∧ s.nextDirectory ≤ t.nextDirectory from both.2
  induction turns with
  | refl => exact ⟨sheltered, le_refl _⟩
  | tail _ turn ih => exact ⟨ih.1.turn turn, ih.2.trans (turn.more ih.1.housed)⟩

theorem Elsewhere.reachable (reach : Reachable anyCall s)
    (between : Relation.ReflTransGen (Elsewhere stream) s t) :
    Reachable anyCall t ∧ s.nextDirectory ≤ t.nextDirectory := by
  induction between with
  | refl => exact ⟨reach, le_refl _⟩
  | tail _ last ih =>
    obtain ⟨e, ok, _, _, step⟩ := last
    obtain ⟨before, more⟩ := ih
    refine ⟨.next before ⟨ok, trivial⟩ step, more.trans ?_⟩
    unfold Step next at step
    split at step
    · simp at step
    · next result =>
      obtain rfl := Except.ok.inj step
      exact before.settled.2.call_more result

omit [Crc32] in
theorem openDirectory_opens (found : s.getCreatedDirectory path = .ok dir)
    (opened : s.openDirectory path = (t, some stream)) :
    t.nextDirectory = s.nextDirectory ∧ stream < t.nextStream ∧ ∃ d,
      t.dirStreams.lookup stream = some d ∧ (d.inited = false ∧ d.index = 0 ∧ d.dirItems = []) ∧
        d.dir = dir := by
  have taken : s.getFd.1.nextDirectory = s.nextDirectory := by
    unfold getFd
    split <;> rfl
  unfold openDirectory at opened
  rw [found] at opened
  dsimp only at opened
  generalize s.getFd = out at taken opened
  obtain ⟨u, fd⟩ := out
  dsimp only at taken opened
  split at opened
  · simp at opened
  · obtain ⟨rfl, same⟩ := Prod.mk.inj opened
    obtain rfl := Option.some.inj same
    exact ⟨taken, Nat.lt_succ_self _, _, AList.lookup_insert _, ⟨rfl, rfl, rfl⟩, rfl⟩

/-- A directory that was opened is listed exactly if and only if, at the first call, its children are
entered under its path with names that fit. -/
theorem Reachable.listsExactly_iff (reach : Reachable anyCall s)
    (found : s.getCreatedDirectory path = .ok dir) (opened : s.openDirectory path = (t, some stream))
    (between : Relation.ReflTransGen (Elsewhere stream) t u) :
    u.ListsExactly stream dir ↔ u.Listable dir := by
  obtain ⟨same, bound, d, there, fresh, rfl⟩ := openDirectory_opens found opened
  have step : Step s ⟨steadyEnv, .opendir path⟩ t := by
    rw [Step, next, call]
    rw [opened]
  have after : Reachable anyCall t := .next reach ⟨steadyEnv_ok, trivial⟩ step
  obtain ⟨reach', more⟩ := Elsewhere.reachable after between
  obtain ⟨still, bound'⟩ := Elsewhere.keepsStream between bound
  have known : d.dir < u.nextDirectory := by
    have before := getCreatedDirectory_known reach.settled.2.housed found
    exact lt_of_lt_of_le before (same ▸ more)
  exact listsExactly_iff_listable reach'.settled.2.housed reach'.filed known (still.trans there) fresh
    bound'

omit [Crc32] in
/-- A root directory with a directory and a file is listed. -/
theorem Reachable.listsExactly_root : ∃ (s t : FileSystem) (stream dir : Nat),
    @Reachable zeroCrc anyCall s ∧ s.openDirectory ['/'] = (t, some stream) ∧
      t.children dir = [(true, 1), (false, 0)] ∧ @ListsExactly zeroCrc t stream dir := by
  let _ := zeroCrc
  obtain ⟨s, reach, found, opened, children, listable⟩ := Reachable.exists_run
    [.mkdir ['/', 'd'], .createFile ['/', 'f']]
    (fun s => (s.getCreatedDirectory ['/']).toOption = some 0 ∧ (s.openDirectory ['/']).2 = some 0 ∧
      (s.openDirectory ['/']).1.children 0 = [(true, 1), (false, 0)] ∧
      (s.openDirectory ['/']).1.Listable 0)
    (freshDevice_fresh 8 fun _ => 0) steadyEnv_ok anyCall_sound (by decide +kernel)
  have found : s.getCreatedDirectory ['/'] = .ok 0 := by
    revert found
    cases s.getCreatedDirectory ['/'] <;> simp [Except.toOption]
  have opened : s.openDirectory ['/'] = ((s.openDirectory ['/']).1, some 0) := Prod.ext rfl opened
  exact ⟨s, _, 0, 0, reach, opened, children,
    (reach.listsExactly_iff found opened .refl).mpr listable⟩

omit [Crc32] in
/-- A directory of 256 letters makes the listing of its parent run over the field of the name. -/
theorem not_listsExactly : ∃ (s t : FileSystem) (stream dir : Nat),
    @Reachable zeroCrc anyCall s ∧ s.getCreatedDirectory ['/'] = .ok dir ∧
      s.openDirectory ['/'] = (t, some stream) ∧ ¬@ListsExactly zeroCrc t stream dir := by
  let _ := zeroCrc
  obtain ⟨s, reach, found, opened, stops⟩ := Reachable.exists_run
    [.mkdir ('/' :: List.replicate 256 'a')]
    (fun s => (s.getCreatedDirectory ['/']).toOption = some 0 ∧ (s.openDirectory ['/']).2 = some 0 ∧
      ((s.openDirectory ['/']).1.readDirectory steadyEnv 0).isOk = false)
    (freshDevice_fresh 8 fun _ => 0) steadyEnv_ok anyCall_sound (by decide +kernel)
  have found : s.getCreatedDirectory ['/'] = .ok 0 := by
    revert found
    cases s.getCreatedDirectory ['/'] <;> simp [Except.toOption]
  have opened : s.openDirectory ['/'] = ((s.openDirectory ['/']).1, some 0) := Prod.ext rfl opened
  refine ⟨s, _, 0, 0, reach, found, opened, fun exact_ => ?_⟩
  cases read : (s.openDirectory ['/']).1.readDirectory steadyEnv 0 with
  | ok out =>
    rw [read] at stops
    simp [Except.isOk, Except.toBool] at stops
  | error fault => exact exact_.runs steadyEnv fault read

end Running

end BlockFs.FileSystem
