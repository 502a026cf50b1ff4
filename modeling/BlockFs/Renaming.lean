import BlockFs.Entries
import BlockFs.Stat
import BlockFs.Tree

namespace BlockFs

/-- Two paths that every lookup of a file takes for the same. -/
def Spells (p q : Name) : Prop := getDirName p = getDirName q ∧ getFileName p = getFileName q

namespace FileSystem

/-- `f` has the size it had, and reads of it return what they returned. -/
def KeepsContent (s s' : FileSystem) (f : FilePtr) : Prop :=
  (s'.fileMeta f).size = (s.fileMeta f).size ∧
  ∀ fd o buffer size offset, o.file = f →
    (s'.pread fd o buffer size offset).map (·.2) = (s.pread fd o buffer size offset).map (·.2)

/-- The file `f` at the path `a` moves to the path `b` and nothing else does, or the request fails
and changes nothing. -/
def MovesFileOrKeeps [Crc32] (s : FileSystem) (env : Env) (f : FilePtr) (a b : Name) : Prop :=
  let (s', r) := s.renamePath env a b
  (r = 0 ∧ s'.resolve b = some (.file f) ∧ s'.resolve a = none ∧ s.KeepsContent s' f ∧
    ∀ p, ¬Spells p a → ¬Spells p b → s'.resolve p = s.resolve p) ∨
  (r = -1 ∧ (∀ p, s'.resolve p = s.resolve p) ∧
    (∀ d x, (s'.directories d).itemMaps.lookup x = (s.directories d).itemMaps.lookup x) ∧
    s'.disk = s.disk)

/-- A path is empty, a file is at the target, or the target has no directory. -/
def RefusesRename (s : FileSystem) (a b : Name) : Prop :=
  a = [] ∨ b = [] ∨ (∃ g, s.getCreatedFile b = .ok g) ∨
    ∀ d, s.getCreatedDirectory (getDirName b) ≠ .ok d

section Content
variable {s s' : FileSystem} {f : FilePtr}

theorem readBlocks_congr {d d' : Disk} (size : d'.size = d.size) (data : d'.data = d.data)
    (blocks : List BlockData) (buffer : Nat → UInt8) :
    readBlocks d' blocks buffer = readBlocks d blocks buffer := by
  have moved (block : BlockData) (buffer : Nat → UInt8) :
      d'.preadCache buffer block.bufferOffset block.size block.devOffset =
        d.preadCache buffer block.bufferOffset block.size block.devOffset := by
    rw [Disk.preadCache, Disk.preadCache, size, data]
  induction blocks generalizing buffer with
  | nil => rfl
  | cons block blocks ih =>
    rw [readBlocks, readBlocks, moved]
    simp only [ih]

/-- A read depends on the size of the file, its blocks and the data on the device. -/
theorem keepsContent_of_parts (superMeta : s'.superMeta = s.superMeta)
    (size : (s'.fileMeta f).size = (s.fileMeta f).size) (items : (s'.files f).itemMaps = (s.files f).itemMaps)
    (blocks : s'.fileBlockMetas = s.fileBlockMetas) (bytes : s'.disk.size = s.disk.size)
    (data : s'.disk.data = s.disk.data) : s.KeepsContent s' f := by
  refine ⟨size, fun fd o buffer n offset same => ?_⟩
  subst same
  have block : s'.getFileBlock o.file 0 = s.getFileBlock o.file 0 := by
    rw [getFileBlock, getFileBlock, items]
  have moved (n : Nat) : (s'.readData fd o buffer n offset).map (·.2) =
      (s.readData fd o buffer n offset).map (·.2) := by
    rw [readData, readData, block, superMeta, blocks]
    cases s.getFileBlock o.file 0 with
    | none => rfl
    | some b =>
      dsimp only
      cases planTransfer s.superMeta (s.fileBlockMetas b) n offset with
      | error e => rfl
      | ok plan =>
        rw [Except.ok_bind, Except.ok_bind, readBlocks_congr bytes data]
        cases readBlocks s.disk plan buffer with
        | error e => rfl
        | ok result => rfl
  rw [pread, pread, size]
  dsimp only
  by_cases past : n = 0 ∨ (s.fileMeta o.file).size ≤ offset
  · rw [if_pos past, if_pos past]
    rfl
  · rw [if_neg past, if_neg past, moved]

theorem KeepsContent.trans {t : FileSystem} (first : s.KeepsContent t f) (second : t.KeepsContent s' f) :
    s.KeepsContent s' f := by
  refine ⟨second.1.trans first.1, fun fd o buffer size offset same => ?_⟩
  exact (second.2 fd o buffer size offset same).trans (first.2 fd o buffer size offset same)

end Content

section Moving
variable {s s' : FileSystem} {f g : FilePtr} {m : FileMeta} {a b p q : Name}

theorem getCreatedDirectory_congr (same : s'.createdDirs = s.createdDirs) (path : Name) :
    s'.getCreatedDirectory path = s.getCreatedDirectory path := by
  rw [getCreatedDirectory, getCreatedDirectory, same]

/-- Directory parts that lead to one slot are the same. -/
theorem Housed.dirName_eq (housed : Housed s) {d e : DirectoryPtr}
    (first : s.getCreatedDirectory (getDirName p) = .ok d)
    (second : s.getCreatedDirectory (getDirName q) = .ok e)
    (same : (s.dirMeta d).dh = (s.dirMeta e).dh) : getDirName p = getDirName q := by
  have leads := getCreatedDirectory_found (getDirName_slash p) first
  have leads' := getCreatedDirectory_found (getDirName_slash q) second
  rw [housed.dirMeta_dh, housed.dirMeta_dh] at same
  obtain rfl := housed.apart d (housed.paths _ d leads) e (housed.paths _ e leads') same
  exact (housed.named _ d leads).1.symm.trans (housed.named _ d leads').1

theorem Renamed.getCreatedDirectory (renamed : Renamed s s' f m) (path : Name) :
    s'.getCreatedDirectory path = s.getCreatedDirectory path :=
  getCreatedDirectory_congr (congrArg DirSide.createdDirs renamed.relisted.rest) path

theorem Renamed.dirMeta (renamed : Renamed s s' f m) (d : DirectoryPtr) : s'.dirMeta d = s.dirMeta d := by
  have metas : s'.dirMetas = s.dirMetas := congrArg DirSide.dirMetas renamed.relisted.rest
  rw [FileSystem.dirMeta, FileSystem.dirMeta, metas, renamed.relisted.metaSlot]

/-- A renamed file is found under its new directory and name. -/
theorem Renamed.found_new (renamed : Renamed s s' f m) {dir : DirectoryPtr}
    (leads : s.getCreatedDirectory (getDirName b) = .ok dir) (home : m.dh = (s.dirMeta dir).dh)
    (name : m.fileName = getFileName b) (file : b.getLast? ≠ some '/')
    (short : (getFileName b).length < kBlockFsMaxFileNameLen) : s'.getCreatedFile b = .ok f := by
  refine getCreatedFile_eq_ok.mpr ⟨file, short, dir, ?_, ?_⟩
  · rw [renamed.getCreatedDirectory, leads]
  · rw [renamed.createdFiles, renamed.dirMeta, home, name, AList.lookup_insert]

/-- A renamed file is not found under its old name any more. -/
theorem Renamed.found_old (renamed : Renamed s s' f m) (named : s.createdFiles.lookup (s.key f) = some f)
    (vacant : s.createdFiles.lookup (m.dh, m.fileName) = none) (found : s.getCreatedFile a = .ok f)
    (own : ∀ K, s.createdFiles.lookup K = some f → K = s.key f) : s'.getCreatedFile a ≠ .ok g := by
  intro still
  obtain ⟨_, _, dir, leads, entry⟩ := getCreatedFile_eq_ok.mp found
  obtain ⟨_, _, dir', leads', entry'⟩ := getCreatedFile_eq_ok.mp still
  rw [renamed.getCreatedDirectory, leads] at leads'
  obtain rfl := Except.ok.inj leads'
  rw [renamed.dirMeta, own _ entry, renamed.createdFiles] at entry'
  rcases lookup_of_insert entry' with ⟨same, _⟩ | ⟨_, before⟩
  · rw [← same, named] at vacant
    simp at vacant
  · exact (lookup_of_erase before).2 rfl

/-- Every path that does not spell the old or the new one leads to the file it led to. -/
theorem Renamed.found_other (renamed : Renamed s s' f m) (housed : Housed s) {dir : DirectoryPtr}
    (found : s.getCreatedFile a = .ok f) (own : ∀ K, s.createdFiles.lookup K = some f → K = s.key f)
    (leads : s.getCreatedDirectory (getDirName b) = .ok dir) (home : m.dh = (s.dirMeta dir).dh)
    (name : m.fileName = getFileName b) (offOld : ¬Spells p a) (offNew : ¬Spells p b) :
    s'.getCreatedFile p = .ok g ↔ s.getCreatedFile p = .ok g := by
  obtain ⟨_, _, oldDir, oldLeads, entry⟩ := getCreatedFile_eq_ok.mp found
  have oldKey := own _ entry
  rw [getCreatedFile_eq_ok, getCreatedFile_eq_ok]
  refine and_congr_right fun _ => and_congr_right fun _ => exists_congr fun d => ?_
  rw [renamed.getCreatedDirectory, renamed.dirMeta]
  refine and_congr_right fun here => ?_
  have apart : ((s.dirMeta d).dh, getFileName p) ≠ (m.dh, m.fileName) := by
    intro same
    rw [home, name] at same
    exact offNew ⟨housed.dirName_eq here leads (congrArg Prod.fst same), congrArg Prod.snd same⟩
  have apart' : ((s.dirMeta d).dh, getFileName p) ≠ s.key f := by
    intro same
    rw [← oldKey] at same
    exact offOld ⟨housed.dirName_eq here oldLeads (congrArg Prod.fst same), congrArg Prod.snd same⟩
  rw [renamed.createdFiles, AList.lookup_insert_ne apart, AList.lookup_erase_ne apart']

/-- A rename leaves the content of the file alone. -/
theorem Renamed.keepsContent (renamed : Renamed s s' f m) : s.KeepsContent s' f :=
  keepsContent_of_parts (congrArg FileSide.superMeta renamed.rest)
    (by rw [fileMeta, renamed.files, renamed.fileMetas, Function.update_self, renamed.size])
    (by rw [renamed.files]) (congrArg FileSide.fileBlockMetas renamed.rest)
    (congrArg FileSide.diskSize renamed.rest) (congrArg FileSide.diskData renamed.rest)

variable [Crc32] {env : Env}

/-- `File::rename` onto a free path of a directory that exists. -/
theorem Filed.fileRename_moves (filed : Filed s) (housed : Housed s) (ok : env.IoOk)
    (found : s.getCreatedFile a = .ok f) (open_ : ∀ g, s.getCreatedFile b ≠ .ok g) {dir : DirectoryPtr}
    (leads : s.getCreatedDirectory (getDirName b) = .ok dir) :
    ∃ u, s.fileRename env f b = (u, 0) ∧ s.KeepsContent u f ∧
      (∀ path, u.getCreatedDirectory path = s.getCreatedDirectory path) ∧
      (b.getLast? ≠ some '/' → (getFileName b).length < kBlockFsMaxFileNameLen →
        u.getCreatedFile b = .ok f ∧ (∀ g, u.getCreatedFile a ≠ .ok g) ∧
          ∀ p, ¬Spells p a → ¬Spells p b → u.resolve p = s.resolve p) := by
  rcases filed.fileRename_cases housed ok found b with
    ⟨e, closed, _⟩ | ⟨dir', u, m, leads', done, key, renamed⟩
  · rw [leads] at closed
    simp at closed
  · obtain rfl := Except.ok.inj (leads.symm.trans leads')
    refine ⟨u, done, renamed.keepsContent, renamed.getCreatedDirectory, fun file short => ?_⟩
    obtain ⟨_, _, _, _, entry⟩ := getCreatedFile_eq_ok.mp found
    have own (K : Nat × Name) (named : s.createdFiles.lookup K = some f) : K = s.key f :=
      (filed.names K f named).1
    have home : m.dh = (s.dirMeta dir).dh := congrArg Prod.fst key
    have name : m.fileName = getFileName b :=
      (congrArg Prod.snd key).trans (List.take_of_length_le short.le)
    have vacant : s.createdFiles.lookup (m.dh, m.fileName) = none := by
      rw [home, name, Option.eq_none_iff_forall_not_mem]
      exact fun g taken => open_ g (getCreatedFile_eq_ok.mpr ⟨file, short, dir, leads, taken⟩)
    refine ⟨renamed.found_new leads home name file short, fun g => ?_, fun p offOld offNew => ?_⟩
    · exact renamed.found_old (own _ entry ▸ entry) vacant found own
    · exact resolve_congr (fun g => renamed.found_other housed found own leads home name offOld offNew)
        (renamed.getCreatedDirectory p)

/-- A refused request changes nothing but `errno`. -/
theorem RefusesRename.keeps (refuses : s.RefusesRename a b)
    (found : s.getCreatedFile a = .ok f) : ∃ e, s.renamePath env a b = ({ s with errno := e }, -1) := by
  unfold renamePath
  by_cases empty : (a.isEmpty || b.isEmpty) = true
  · rw [if_pos empty]
    exact ⟨EINVAL, rfl⟩
  rw [if_neg empty]
  have filled : a ≠ [] ∧ b ≠ [] := by simpa using empty
  rcases refuses with none_ | none_ | ⟨g, taken⟩ | bare
  · exact absurd none_ filled.1
  · exact absurd none_ filled.2
  · rw [taken]
    exact ⟨s.errno, rfl⟩
  cases target : s.getCreatedFile b with
  | ok g => exact ⟨s.errno, rfl⟩
  | error e =>
    dsimp only
    rw [show (s.storeErrno e).getCreatedFile a = .ok f from found]
    obtain ⟨oldDir, _, ⟨path, leads⟩, _⟩ := getCreatedFile_ok found
    dsimp only
    rw [fileRename]
    cases ((s.storeErrno e).createdDhs.lookup ((s.storeErrno e).fileMeta f).dh) with
    | none => exact ⟨_, rfl⟩
    | some oldDir =>
      dsimp only
      cases home : (s.storeErrno e).getCreatedDirectory (getDirName b) with
      | error e' => exact ⟨_, rfl⟩
      | ok d => exact absurd home (bare d)

end Moving

section Run
variable [Crc32] {s : FileSystem} {guard : FileSystem → Op → Prop} {env : Env} {f : FilePtr} {a b : Name}

/-- A file is moved as it should be exactly when the request is refused, or when the last
component of the new path fits its field and the old path does not name a directory as well. -/
theorem Reachable.movesFileOrKeeps (reach : Reachable guard s) (ok : env.IoOk)
    (found : s.getCreatedFile a = .ok f) :
    s.MovesFileOrKeeps env f a b ↔ s.RefusesRename a b ∨
      (b.getLast? ≠ some '/' ∧ (getFileName b).length < kBlockFsMaxFileNameLen ∧
        ∀ d, s.getCreatedDirectory a ≠ .ok d) := by
  have filed := reach.filed
  have housed := reach.settled.2.housed
  rw [MovesFileOrKeeps]
  by_cases refuses : s.RefusesRename a b
  · obtain ⟨e, refused⟩ := @RefusesRename.keeps s f a b _ env refuses found
    rw [refused]
    exact iff_of_true (.inr ⟨rfl, fun p => rfl, fun d x => rfl, rfl⟩) (.inl refuses)
  · have passes := refuses
    simp only [RefusesRename, not_or, not_exists, not_forall, not_not] at passes
    obtain ⟨here, there, open_, dir, leads⟩ := passes
    cases target : s.getCreatedFile b with
    | ok g => exact absurd target (open_ g)
    | error e =>
      obtain ⟨u, done, content, directories, moves⟩ :=
        Filed.fileRename_moves (s := s.storeErrno e) (filed.congr rfl) (housed.storeErrno e).housed ok
          found open_ leads
      have result : s.renamePath env a b = (u, 0) := by
        rw [renamePath, if_neg (by simpa using ⟨here, there⟩), target]
        dsimp only
        rw [show (s.storeErrno e).getCreatedFile a = .ok f from found]
        exact done
      rw [result]
      constructor
      · rintro (⟨_, at_, gone, _⟩ | ⟨failed, _⟩)
        · obtain ⟨file, short, _⟩ := getCreatedFile_eq_ok.mp (resolve_eq_file.mp at_)
          refine .inr ⟨file, short, fun d leads' => ?_⟩
          exact (resolve_eq_none.mp gone).2 d ((directories a).trans leads')
        · simp at failed
      · rintro (refused | ⟨file, short, alone⟩)
        · exact absurd refused refuses
        · obtain ⟨new, old, others⟩ := moves file short
          refine .inl ⟨rfl, resolve_file new, resolve_eq_none.mpr ⟨old, fun d leads' => ?_⟩, ?_, others⟩
          · exact alone d ((directories a).symm.trans leads')
          · exact KeepsContent.trans (t := s.storeErrno e) (keepsContent_of_parts rfl rfl rfl rfl rfl rfl) content

omit [Crc32] in
theorem Reachable.movesFileOrKeeps_top :
    ∃ s : FileSystem, ∃ f, s.getCreatedFile ['/', 'a'] = .ok f ∧
      @MovesFileOrKeeps zeroCrc s steadyEnv f ['/', 'a'] ['/', 'b'] := by
  let _ := zeroCrc
  obtain ⟨s, reach, found, alone⟩ := Reachable.exists_run [.openFile ['/', 'a'] 0o102]
    (fun s => s.getCreatedFile ['/', 'a'] = .ok 0 ∧
      s.getCreatedDirectory ['/', 'a'] = .error none)
    (freshDevice_fresh 1 fun _ => 0) steadyEnv_ok anyCall_sound (by decide +kernel)
  refine ⟨s, 0, found, (reach.movesFileOrKeeps steadyEnv_ok found).mpr (.inr ⟨by decide, by decide, ?_⟩)⟩
  intro d leads
  rw [alone] at leads
  simp at leads

omit [Crc32] in
/-- A file that gets a name of 64 characters is nowhere to be found. -/
theorem not_movesFileOrKeeps :
    ∃ s f, @Reachable zeroCrc anyCall s ∧ s.getCreatedFile ['/', 'a'] = .ok f ∧
      ¬@MovesFileOrKeeps zeroCrc s steadyEnv f ['/', 'a'] ('/' :: List.replicate 64 'x') := by
  let _ := zeroCrc
  obtain ⟨s, reach, found, done⟩ := Reachable.exists_run [.openFile ['/', 'a'] 0o102]
    (fun s => s.getCreatedFile ['/', 'a'] = .ok 0 ∧
      (s.renamePath steadyEnv ['/', 'a'] ('/' :: List.replicate 64 'x')).2 = 0)
    (freshDevice_fresh 1 fun _ => 0) steadyEnv_ok anyCall_sound (by decide +kernel)
  refine ⟨s, 0, reach, found, fun moves => ?_⟩
  cases result : s.renamePath steadyEnv ['/', 'a'] ('/' :: List.replicate 64 'x') with
  | mk u r =>
    rw [result] at done
    rw [MovesFileOrKeeps, result] at moves
    rcases moves with ⟨_, at_, _⟩ | ⟨failed, _⟩
    · have short := (getCreatedFile_eq_ok.mp (resolve_eq_file.mp at_)).2.1
      exact absurd short (by decide)
    · exact absurd (done.symm.trans failed) (by decide)

end Run

end FileSystem

end BlockFs
