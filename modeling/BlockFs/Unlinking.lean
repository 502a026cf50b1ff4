import BlockFs.Attributes
import BlockFs.Descriptors
import BlockFs.Removal
import BlockFs.Renaming

namespace BlockFs.FileSystem

/-- No file has more descriptors open on it than links. -/
def LinksCover (s : FileSystem) : Prop :=
  ∀ f < s.nextFile, ((s.openers f).card : Int) ≤ (s.files f).nlink

section Links
variable {s s' : FileSystem} {f : FilePtr}

theorem LinksCover.congr (cover : LinksCover s) (opened : ∀ fd, s'.openedFile fd = s.openedFile fd)
    (nlink : ∀ g, (s'.files g).nlink = (s.files g).nlink) (nextFile : s'.nextFile = s.nextFile) :
    LinksCover s' := by
  intro g bound
  rw [nextFile] at bound
  rw [openers_eq opened, nlink]
  exact cover g bound

theorem LinksCover.of_descriptors (cover : LinksCover s) (same : s'.descriptors = s.descriptors) :
    LinksCover s' :=
  cover.congr (congrFun (congrArg Descriptors.opened same)) (congrFun (congrArg Descriptors.links same))
    (congrArg Descriptors.nextFile same)

/-- A new file has no links and no descriptors. -/
theorem LinksCover.created (cover : LinksCover s)
    (opens : ∀ fd f, s.openedFile fd = some f → f < s.nextFile)
    (made : s'.descriptors = s.descriptors.created) : LinksCover s' := by
  have opened (fd : Nat) : s'.openedFile fd = s.openedFile fd := congrFun (congrArg Descriptors.opened made) fd
  have links (g : FilePtr) : (s'.files g).nlink = if g = s.nextFile then 0 else (s.files g).nlink :=
    congrFun (congrArg Descriptors.links made) g
  have nextFile : s'.nextFile = s.nextFile + 1 := congrArg Descriptors.nextFile made
  intro g bound
  rw [openers_eq opened, links]
  by_cases new : g = s.nextFile
  · have none : s.openers g = ∅ := by
      refine Finset.eq_empty_of_forall_notMem fun fd member => ?_
      exact absurd (opens fd g (mem_openers.mp member)) (new ▸ Nat.lt_irrefl _)
    rw [if_pos new, none]
    simp
  · rw [if_neg new]
    exact cover g (by omega)

/-- No descriptor is open on a file without links. -/
theorem LinksCover.not_opened (cover : LinksCover s) (bound : f < s.nextFile)
    (idle : (s.files f).nlink ≤ 0) (fd : Nat) : s.openedFile fd ≠ some f := by
  intro opened
  have count := cover f bound
  have positive := Finset.card_pos.mpr ⟨fd, mem_openers.mpr opened⟩
  omega

variable [Crc32] {env : Env} {r : Int}

theorem LinksCover.close (cover : LinksCover s) (fd : Nat) : LinksCover (s.close env fd).1 := by
  unfold FileSystem.close
  split
  · exact cover.of_descriptors rfl
  next o found =>
  have last := @closeLast_outer _ (s.modifyFile o.file fun f =>
    { f with locked := false, nlink := f.nlink - 1 }) env o.file
  dsimp only
  generalize (s.modifyFile o.file fun f =>
    { f with locked := false, nlink := f.nlink - 1 }).closeLast env o.file = t at last
  have openFiles : t.openFiles = s.openFiles := congrArg Outer.openFiles last
  have nextFile : t.nextFile = s.nextFile := congrArg Outer.nextFile last
  have links (g : FilePtr) : (t.files g).nlink = if g = o.file then (s.files g).nlink - 1 else (s.files g).nlink := by
    have same : (t.files g).nlink = _ := congrFun (congrArg Outer.links last) g
    rw [same]
    dsimp only [outer, modifyFile]
    by_cases mine : g = o.file
    · rw [if_pos mine, mine, Function.update_self]
    · rw [if_neg mine, Function.update_of_ne mine]
  let u : FileSystem := { t with openFiles := t.openFiles.erase fd }
  have opened (x : Nat) : u.openedFile x = if x = fd then none else s.openedFile x := by
    rw [openedFile, openedFile_erase, openFiles]
    rfl
  have erased : LinksCover u := by
    intro g bound
    have known : g < s.nextFile := nextFile ▸ bound
    exact openers_of_closed (getOpenFile_ok found) opened links (cover g known)
  refine erased.congr (fun x => ?_) (fun g => ?_) ?_
  · change openedFile (u.putFd (toInt32 fd)) x = _
    unfold putFd
    split <;> rfl
  · change ((u.putFd (toInt32 fd)).files g).nlink = _
    unfold putFd
    split <;> rfl
  · change (u.putFd (toInt32 fd)).nextFile = _
    unfold putFd
    split <;> rfl

omit [Crc32] in
theorem LinksCover.openDirectory (cover : LinksCover s) (path : Name) : LinksCover (s.openDirectory path).1 := by
  have drawn : s.getFd.1.openFiles = s.openFiles ∧ s.getFd.1.files = s.files ∧ s.getFd.1.nextFile = s.nextFile := by
    unfold getFd
    split <;> exact ⟨rfl, rfl, rfl⟩
  obtain ⟨openFiles, files, nextFile⟩ := drawn
  have whole : (s.openDirectory path).1.openFiles = s.openFiles ∧ (s.openDirectory path).1.files = s.files ∧
      (s.openDirectory path).1.nextFile = s.nextFile := by
    unfold FileSystem.openDirectory
    split
    · exact ⟨rfl, rfl, rfl⟩
    · exact ⟨rfl, rfl, rfl⟩
    · split
      next t fd same =>
      rw [same] at openFiles files nextFile
      split
      · exact ⟨openFiles, files, nextFile⟩
      · exact ⟨openFiles, files, nextFile⟩
  obtain ⟨openFiles, files, nextFile⟩ := whole
  exact cover.congr (fun x => by rw [openedFile, openFiles]; rfl) (fun g => by rw [files]) nextFile

omit [Crc32] in
theorem LinksCover.closeDirectory (cover : LinksCover s) (stream : Nat) :
    LinksCover (s.closeDirectory stream).1 := by
  unfold FileSystem.closeDirectory
  split
  · exact cover
  next d _ =>
  refine cover.congr (fun x => ?_) (fun g => ?_) ?_
  · dsimp only
    unfold putFd
    split <;> rfl
  · dsimp only
    unfold putFd
    split <;> rfl
  · dsimp only
    unfold putFd
    split <;> rfl

/-- A call keeps the links of a file at least as many as its descriptors. -/
theorem LinksCover.call (cover : LinksCover s) (settled : Settled s) {op : Op}
    (result : s.call env op = .ok (s', r)) : LinksCover s' := by
  obtain ⟨_, _, _, stocked⟩ := settled
  cases call_handled stocked.names stocked.opens result with
  | kept same => exact cover.of_descriptors same
  | created made => exact cover.created stocked.opens made
  | @opened u f flags before bound asks =>
    have first : LinksCover u := by
      rcases before with kept | made
      · exact cover.of_descriptors kept
      · exact cover.created stocked.opens made
    obtain ⟨fd, opened, _⟩ := openFd_opened u f flags
    intro g known
    rw [opened.toRelinked.resources.nextFile] at known
    exact openers_of_opened opened.opened opened.nlink (first g known)
  | closed fd => exact cover.close fd
  | openedDirectory path => exact cover.openDirectory path
  | closedDirectory stream => exact cover.closeDirectory stream

theorem Reachable.linksCover {guard : FileSystem → Op → Prop} (reach : Reachable guard s) : LinksCover s := by
  refine reach.reached_invariant LinksCover (fun s fresh => ?_) fun s e s' before cover _ step => ?_
  · obtain ⟨d, env, attempts, rfl, large⟩ := fresh.eq_mounted
    exact (coherent_mounted large env attempts).registered.links
  · obtain ⟨_, result⟩ := step.call
    exact cover.call (Reachable.settled before).1 result

end Links

/-- A file has been deleted: it has no name, and its slot is cleared in memory and on the device. -/
structure Deleted (s s' : FileSystem) (f : FilePtr) : Prop where
  outer : s'.outer = s.outer
  freeFhs : s'.freeFhs = s.freeFhs
  metaSlots : ∀ g, (s'.files g).metaSlot = (s.files g).metaSlot
  names : ∀ K g, s'.createdFiles.lookup K = some g → s.createdFiles.lookup K = some g
  unnamed : ∀ K, s'.createdFiles.lookup K ≠ some f
  memory : (s'.fileMetas (s.files f).metaSlot).used = false
  device : (s'.disk.fileMetas (s.files f).metaSlot).used = false

section Deletion
variable [Crc32] {s s' t u : FileSystem} {env : Env} {f : FilePtr} {dir : DirectoryPtr}

theorem releaseEntries_freeFhs (bs : List FileBlockPtr) (s : FileSystem) :
    (releaseEntries env bs s).1.freeFhs = s.freeFhs := by
  have written (s : FileSystem) (b : FileBlockPtr) : (s.writeFileBlockMeta env b).1.freeFhs = s.freeFhs := by
    rw [writeFileBlockMeta, pwriteDirect]
    split <;> rfl
  have released (s : FileSystem) (b : FileBlockPtr) : (s.releaseAll env b).1.freeFhs = s.freeFhs := by
    unfold releaseAll releaseMyself
    rw [putFreeBlockIdsLock, putFreeBlockIds_eq]
    dsimp only
    split
    · next t same =>
      rw [← show _ = t from congrArg Prod.fst same]
      exact written _ b
    · next t same =>
      have kept : t.freeFhs = s.freeFhs := by
        rw [← show _ = t from congrArg Prod.fst same]
        exact written _ b
      exact kept
  induction bs generalizing s with
  | nil => rfl
  | cons b bs ih =>
    have first := released s b
    unfold releaseEntries
    split
    · next t same =>
      rw [same] at first
      exact first
    · next t same =>
      rw [same] at first
      exact (ih t).trans first

theorem removeAllFileBlock_freeFhs : (s.removeAllFileBlock env f).1.freeFhs = s.freeFhs := by
  have released := @releaseEntries_freeFhs _ env ((s.files f).itemMaps.entries.map (·.2)) s
  unfold removeAllFileBlock
  split
  · next t same =>
    rw [same] at released
    exact released
  · next t same =>
    rw [same] at released
    exact released

/-- A release that succeeds clears the slot in memory and on the device. -/
theorem release_clears (fhs : ∀ i, (s.fileMetas i).fh = i)
    (size : s.superMeta.fileMetaSize = kBlockFsFileMetaSize) (done : s.release env f = (s', true)) :
    s'.freeFhs = s.freeFhs ∧ (s'.fileMetas (s.files f).metaSlot).used = false ∧
      (s'.disk.fileMetas (s.files f).metaSlot).used = false := by
  let cleared := s.modifyFileMeta (s.files f).metaSlot FileMeta.clear
  have here : cleared.fileMetas (s.files f).metaSlot = (s.fileMeta f).clear := Function.update_self _ _ _
  have handle : (cleared.fileMeta f).fh = (s.files f).metaSlot :=
    (congrArg FileMeta.fh here).trans (fhs _)
  have unused : ((cleared.modifyFileMeta (s.files f).metaSlot FileMeta.sealed).fileMetas
      (s.files f).metaSlot).used = false := by
    dsimp only [modifyFileMeta]
    rw [Function.update_self, here]
    rfl
  rw [release, writeMeta, show s.modifyFileMeta (s.files f).metaSlot FileMeta.clear = cleared from rfl, handle,
    writeFileMeta, pwriteDirect] at done
  split at done
  · obtain ⟨rfl, _⟩ := Prod.mk.inj done
    refine ⟨rfl, unused, ?_⟩
    have page := @filePage_holds s size
      (cleared.modifyFileMeta (s.files f).metaSlot FileMeta.sealed).fileMetas s.disk (s.files f).metaSlot
    exact (congrArg FileMeta.used page).trans unused
  · simp at done

/-- The end of both deletions. -/
theorem Filed.deletes (filed : Filed s) (sheltered : Sheltered s)
    (size : s.superMeta.fileMetaSize = kBlockFsFileMetaSize) (bound : f < s.nextFile) (home : s.IsHome dir f)
    (emptied : s.removeAllFileBlock env f = (t, true)) (cleared : t.release env f = (u, true)) :
    Deleted s (u.removeFileFromoDirectory dir f).1 f := by
  have registry := @removeAllFileBlock_registry _ s env f
  have outer := @removeAllFileBlock_outer _ s env f
  have free := @removeAllFileBlock_freeFhs _ s env f
  rw [emptied] at registry outer free
  have registry' := @release_registry _ t env f
  have outer' := @release_outer _ t env f
  rw [cleared] at registry' outer'
  have slot : (t.files f).metaSlot = (s.files f).metaSlot := metaSlot_of_registry registry f
  have super : t.superMeta = s.superMeta := congrArg Outer.superMeta outer
  obtain ⟨free', memory, device⟩ := release_clears (filed.congr registry).fhs (super ▸ size) cleared
  rw [slot] at memory device
  have same : u.registry = s.registry := registry'.trans registry
  have framed : u.outer = s.outer := outer'.trans outer
  have nextFile : u.nextFile = s.nextFile := congrArg Registry.nextFile same
  have next : u.nextDirectory = s.nextDirectory := congrArg Registry.nextDirectory same
  have place : (u.directories dir).metaSlot = (s.directories dir).metaSlot :=
    congrFun (congrArg Registry.homes same) dir
  have names : u.createdFiles = s.createdFiles := congrArg Registry.createdFiles same
  have housed := (sheltered.congr (shelves_of_outer framed)).housed
  have left := (filed.congr same).leaves housed (nextFile ▸ bound)
    ⟨next ▸ home.1, by rw [place, fileMeta_dh_of_registry same, home.2]⟩
  have tape := removeFileFromoDirectory_tape u dir f
  have metas : (u.removeFileFromoDirectory dir f).1.fileMetas = u.fileMetas := congrArg Tape.fileMetas tape
  have image : (u.removeFileFromoDirectory dir f).1.disk.fileMetas = u.disk.fileMetas :=
    congrArg (fun tape => tape.image.fileMetas) tape
  obtain ⟨files, _, _⟩ := removeFileFromoDirectory_files u dir f
  exact
    { outer := (removeFileFromoDirectory_outer u f dir).trans framed
      freeFhs := by
        have kept : (u.removeFileFromoDirectory dir f).1.freeFhs = u.freeFhs := by
          obtain ⟨done, ⟨result, _⟩ | result⟩ := removeFileFromoDirectory_cases u dir f <;> rw [result]
        rw [kept, free', free]
      metaSlots := fun g => by
        rw [files]
        exact metaSlot_of_registry same g
      names := fun K g entry => by
        rw [← names]
        exact removeFileFromoDirectory_names u dir f entry
      unnamed := left.2.unnamed
      memory := by
        rw [metas]
        exact memory
      device := by
        rw [image]
        exact device }

omit [Crc32] in
theorem findFile_of_parts {dirname name : Name} (leads : s.getCreatedDirectory dirname = .ok dir)
    (entry : s.createdFiles.lookup ((s.dirMeta dir).dh, name) = some f) :
    s.findFile dirname name = .ok (dir, f) := by
  unfold findFile
  rw [leads]
  dsimp only
  rw [entry]

/-- `unlink` deletes a file without links when it succeeds. -/
theorem Filed.unlinks (filed : Filed s) (sheltered : Sheltered s)
    (size : s.superMeta.fileMetaSize = kBlockFsFileMetaSize) {path : Name}
    (found : s.getCreatedFile path = .ok f) (idle : (s.files f).nlink ≤ 0)
    (done : s.unlink env path = (s', 0)) : Deleted s s' f := by
  obtain ⟨closed, short, dir, leads, entry⟩ := getCreatedFile_eq_ok.mp found
  have parts : FileHandle.transformPath path = .ok (getDirName path, getFileName path) := by
    rw [FileHandle.transformPath, if_neg closed, if_neg (not_le.mpr short)]
  unfold FileSystem.unlink at done
  split at done
  · simp at done
  next e _ =>
  have first := @findFile_of_parts (s.storeErrno e) f dir (getDirName path) (getFileName path) leads entry
  dsimp only at done
  rw [parts] at done
  dsimp only at done
  rw [first] at done
  dsimp only at done
  have idle' : ¬0 < ((s.storeErrno e).files f).nlink := not_lt.mpr idle
  rw [if_neg idle'] at done
  have noted : Filed (s.storeErrno e) := filed.congr rfl
  obtain ⟨home, bound⟩ := filed.found sheltered.housed first
  have kept := sheltered.congr (shelves_of_outer (storeErrno_outer s e))
  split at done
  · simp at done
  next t emptied =>
  split at done
  · simp at done
  next u cleared =>
  have deleted := noted.deletes kept size bound home emptied cleared
  split at done
  · simp at done
  next v left =>
  rw [left] at deleted
  obtain ⟨rfl, _⟩ := Prod.mk.inj done
  exact ⟨deleted.outer, deleted.freeFhs, deleted.metaSlots, deleted.names, deleted.unnamed, deleted.memory,
    deleted.device⟩

end Deletion

/-- A call whose metadata writes reach the device. -/
def Followed [Crc32] (s t : FileSystem) : Prop := ∃ e : Event, e.env.IoOk ∧ Step s e t

/-- A call that leaves `fd` open on `f`. -/
def FollowedOpen [Crc32] (fd : Nat) (f : FilePtr) (s t : FileSystem) : Prop :=
  Followed s t ∧ t.openedFile fd = some f

/-- The metadata of the device `d` is what a crash leaves of the writes issued between `s` and `t`. -/
def LeavesImage (s t : FileSystem) (d : Disk) : Prop :=
  ∃ writes, writes <+: t.journal.drop s.journal.length ∧ d.metadata = (s.disk.replay writes).metadata

/-- The slot of the file is in use, and neither its file block nor its blocks are free. -/
def KeepsStorage (s : FileSystem) (f : FilePtr) : Prop :=
  (s.fileMeta f).used = true ∧ (∀ b ∈ s.attached f, b ∉ s.freeFbhs) ∧
    ∀ id ∈ s.blockIds f, id ∉ s.blockIdPool

/-- The path of `f` is gone and can be used for another file, the content stays where it is for the
descriptors that are open, and no crash brings the file back. -/
structure UnlinksName [Crc32] (s s' : FileSystem) (path : Name) (f : FilePtr) : Prop where
  stat : ∀ p, s'.statPath p path = ({ s' with errno := ENOENT }, none)
  unopened : ∀ env flags, hasFlag flags O_CREAT = false →
    s'.openFile env path flags = .ok ({ s' with errno := ENOENT }, -1)
  recreated : ∀ env : Env, env.IoOk → ∃ t g, s'.createFilePath env path = (t, 0) ∧
    t.getCreatedFile path = .ok g ∧ g ≠ f ∧ (t.fileMeta g).size = 0 ∧ t.attached g = []
  content : ∀ fd, s.openedFile fd = some f → s.KeepsContent s' f ∧ s'.openedFile fd = some f ∧
    ∀ t, Relation.ReflTransGen (FollowedOpen fd f) s' t → t.KeepsStorage f
  departed : ∀ t, Relation.ReflTransGen Followed s' t → ∀ d, LeavesImage s' t d →
    ∀ env m, mountFileSystem env d = .ok (m, 0) → ∀ g < m.nextFile, (m.files g).metaSlot ≠ (t.files f).metaSlot

section Departure
variable [Crc32] {s s' t : FileSystem} {env : Env} {f : FilePtr} {x : Nat} {path : Name}

/-- Nothing leads to the file any more, and its slot stays as `p` says. -/
structure Abandoned (p : Pin) (f : FilePtr) (s : FileSystem) : Prop where
  settled : Settled s
  sheltered : Sheltered s
  filed : Filed s
  departed : Departed s f p.slot
  pinned : Pinned p s

theorem Abandoned.turn {p : Pin} (abandoned : Abandoned p f s) (ok : env.IoOk) (turn : Turn env s t) :
    Abandoned p f t := by
  obtain ⟨settled, sheltered, filed, departed, pinned⟩ := abandoned
  have taken : p.slot ∉ s.freeFhs := by
    obtain ⟨_, _, _, stocked⟩ := settled
    rw [← departed.slot]
    exact stocked.metaSlot_not_free departed.made
  have off (g : FilePtr) (known : s.Accessible g) : (s.files g).metaSlot ≠ p.slot := by
    intro same
    rw [← departed.slot] at same
    obtain rfl := filed.apart g (settled.accessible known) f departed.made same
    exact departed.gone known
  exact ⟨settled.turn ok turn, sheltered.turn turn, filed.turn settled sheltered ok turn,
    departed.turn filed settled sheltered ok turn, pinned.turn filed settled taken off turn⟩

theorem Abandoned.turns {p : Pin} (abandoned : Abandoned p f s) (ok : env.IoOk) (turns : Turns env s t) :
    Abandoned p f t := by
  induction turns with
  | refl => exact abandoned
  | tail _ turn ih => exact ih.turn ok turn

theorem Abandoned.later {p : Pin} (abandoned : Abandoned p f s)
    (later : Relation.ReflTransGen Followed s t) : Abandoned p f t := by
  induction later with
  | refl => exact abandoned
  | tail _ step ih =>
    obtain ⟨e, ok, taken⟩ := step
    obtain ⟨_, result⟩ := taken.call
    exact ih.turns ok (call_turns result)

omit [Crc32] in
/-- What holds of a slot on the device and in every page written over it holds once they are written. -/
theorem replay_identity {holds : Identity → Prop} {writes : List MetaWrite} {d : Disk}
    (start : holds (d.fileMetas x).identity)
    (pages : ∀ a slots, .filePage a slots ∈ writes → a ≤ x → x < a + filesPerPage → holds (slots x).identity) :
    holds ((d.replay writes).fileMetas x).identity := by
  induction writes generalizing d with
  | nil => exact start
  | cons w writes ih =>
    refine ih ?_ fun a slots member => pages a slots (List.mem_cons_of_mem w member)
    cases w with
    | dirPage a slots => exact start
    | fileBlock b slot => exact start
    | filePage a slots =>
      rw [Disk.apply]
      dsimp only
      split
      · next within => exact pages a slots List.mem_cons_self within.1 within.2
      · exact start

omit [Crc32] in
theorem Pinned.crash {p : Pin} {writes : List MetaWrite} (pinned : Pinned p s)
    (start : p.holds (p.start.fileMetas p.slot).identity)
    (before : writes <+: s.journal.drop p.base) : p.holds ((p.start.replay writes).fileMetas p.slot).identity :=
  replay_identity start fun a slots member => pinned.pages a slots (before.subset member)

/-- No crash after the deletion of a file brings it back. -/
theorem Reachable.deleted_departed {guard : FileSystem → Op → Prop} (reach : Reachable guard s)
    (deleted : Deleted s s' f) (reach' : Reachable guard s') (bound : f < s.nextFile)
    (idle : (s.files f).nlink ≤ 0) (later : Relation.ReflTransGen Followed s' t) {d : Disk}
    (image : LeavesImage s' t d) {m : FileSystem} (mounted : mountFileSystem env d = .ok (m, 0)) {g : FilePtr}
    (known : g < m.nextFile) : (m.files g).metaSlot ≠ (t.files f).metaSlot := by
  let p : Pin := ⟨(s.files f).metaSlot, fun i => i.used = false, s'.disk, s'.journal.length⟩
  obtain ⟨settled, sheltered⟩ := reach'.settled
  have parents := settled.1
  have nextFile : s'.nextFile = s.nextFile := congrArg Outer.nextFile deleted.outer
  have openFiles : s'.openFiles = s.openFiles := congrArg Outer.openFiles deleted.outer
  have departed : Departed s' f p.slot := by
    refine ⟨nextFile ▸ bound, deleted.metaSlots f, ?_⟩
    rintro (⟨fd, opened⟩ | ⟨K, entry⟩)
    · rw [openedFile, openFiles] at opened
      exact reach.linksCover.not_opened bound idle fd opened
    · exact deleted.unnamed K entry
  have pinned : Pinned p s' := by
    have none : s'.journal.drop p.base = [] := List.drop_length
    refine ⟨deleted.memory, fun a slots member => ?_, ?_, le_refl _, fun y parent held => ?_⟩
    · rw [none] at member
      simp at member
    · rw [none]
      rfl
    · rw [parents] at held
      simp at held
  have abandoned : Abandoned p f s' := ⟨settled, sheltered, reach'.filed, departed, pinned⟩
  obtain ⟨_, _, _, departed', pinned'⟩ := abandoned.later later
  obtain ⟨writes, before, same⟩ := image
  have unused := pinned'.crash deleted.device before
  have device : d.metadata.fileMetas = (s'.disk.replay writes).metadata.fileMetas := congrArg Disk.fileMetas same
  have cleared : (d.fileMetas p.slot).used = false := by
    change (d.metadata.fileMetas p.slot).used = false
    rw [device]
    exact unused
  intro slot
  obtain ⟨_, _, used, _⟩ := (mountFileSystem_files mounted).files g known
  rw [slot, departed'.slot, cleared] at used
  simp at used

end Departure

section Reuse
variable [Crc32] {s s' : FileSystem} {env : Env} {f : FilePtr} {path : Name}

/-- Without a file or a directory at the path, an open that does not create fails. -/
theorem openFile_absent (absent : s.resolve path = none) {flags : Nat} (plain : hasFlag flags O_CREAT = false) :
    s.openFile env path flags = .ok ({ s with errno := ENOENT }, -1) := by
  obtain ⟨file, directory⟩ := resolve_eq_none.mp absent
  have target : s.openTarget env path flags = .ok ({ s with errno := ENOENT }, none) := by
    unfold openTarget
    cases isNeedCreateTempFile flags with
    | mk e tmpfile =>
      dsimp only
      cases leads : (s.storeErrno e).getCreatedDirectory path with
      | ok d => exact absurd leads (directory d)
      | error e' =>
        cases tmpfile with
        | true =>
          rw [if_pos rfl, createFile, if_pos rfl, createFileIn, newFile, leads]
          rfl
        | false =>
          rw [if_neg Bool.false_ne_true]
          dsimp only
          cases entry : ((s.storeErrno e).storeErrno e').getCreatedFile path with
          | ok g => exact absurd entry (file g)
          | error e'' =>
            dsimp only
            rw [if_neg (by rw [plain]; exact Bool.false_ne_true)]
            rfl
  rw [openFile, target]
  rfl

/-- A file is created under a path whose directory exists, which no file has, while a slot is free. -/
theorem createFile_done (clean : CleanFhs s) (ok : env.IoOk) {dir : DirectoryPtr}
    (file : path.getLast? ≠ some '/') (short : (getFileName path).length < kBlockFsMaxFileNameLen)
    (leads : s.getCreatedDirectory (getDirName path) = .ok dir)
    (vacant : s.createdFiles.lookup ((s.dirMeta dir).dh, getFileName path) = none) (filled : s.freeFhs ≠ []) :
    ∃ u x rest m, s.createFile env path false = (u, some s.nextFile) ∧ Created s u x rest m ∧
      (m.dh, m.fileName) = ((s.dirMeta dir).dh, getFileName path) := by
  have parts : FileHandle.transformPath path = .ok (getDirName path, getFileName path) := by
    rw [FileHandle.transformPath, if_neg file, if_neg (not_le.mpr short)]
  rw [createFile, if_neg Bool.false_ne_true, parts]
  dsimp only
  obtain ⟨x, rest, free⟩ := List.exists_cons_of_ne_nil filled
  rcases createFileIn_cases clean ok (getDirName path) (getFileName path) false with
    ⟨e, refused⟩ | ⟨u, y, rest', m, done, created, key, _⟩
  · have taken : (s.createFileIn env (getDirName path) (getFileName path) false).2 ≠ none := by
      rw [createFileIn, newFile, leads]
      dsimp only
      rw [vacant, newFreeFileNolock, clean.newFreeFile_cons _ _ _ free]
      simp [writeMeta, writeFileMeta_ok ok]
    rw [refused] at taken
    exact absurd rfl taken
  · refine ⟨u, y, rest', m, done, created, ?_⟩
    rw [newKey, leads, free] at key
    rw [← Option.some.inj key, if_neg Bool.false_ne_true, List.take_of_length_le short.le]

/-- Without a free slot no file is created. -/
theorem createFile_full (empty : s.freeFhs = []) (path : Name) : (s.createFilePath env path).2 = -1 := by
  have unmade (dirname filename : Name) : (s.newFile env dirname filename false).2 = none := by
    rw [newFile]
    cases s.getCreatedDirectory dirname with
    | error e => rfl
    | ok dir =>
      dsimp only
      split
      · rfl
      · rw [if_neg Bool.false_ne_true, newFreeFileNolock, newFreeFile, empty]
  have refused (dirname filename : Name) : (s.createFileIn env dirname filename false).2 = none := by
    have none := unmade dirname filename
    rw [createFileIn]
    split
    · rfl
    · next t dir f same =>
      rw [same] at none
      simp at none
  have failed : (s.createFile env path false).2 = none := by
    rw [createFile, if_neg Bool.false_ne_true]
    cases FileHandle.transformPath path with
    | error e => rfl
    | ok parts => exact refused _ _
  rw [createFilePath]
  split
  · rfl
  · next t g same =>
    rw [same] at failed
    simp at failed

/-- A file with links keeps its path. -/
theorem unlink_linked (linked : 0 < (s.files f).nlink) (found : s.getCreatedFile path = .ok f)
    (done : s.unlink env path = (s', 0)) : s'.getCreatedFile path = .ok f := by
  obtain ⟨closed, short, dir, leads, entry⟩ := getCreatedFile_eq_ok.mp found
  have parts : FileHandle.transformPath path = .ok (getDirName path, getFileName path) := by
    rw [FileHandle.transformPath, if_neg closed, if_neg (not_le.mpr short)]
  unfold FileSystem.unlink at done
  split at done
  · simp at done
  next e _ =>
  have first := @findFile_of_parts (s.storeErrno e) f dir (getDirName path) (getFileName path) leads entry
  dsimp only at done
  rw [parts] at done
  dsimp only at done
  rw [first] at done
  dsimp only at done
  rw [if_pos (show 0 < ((s.storeErrno e).files f).nlink from linked)] at done
  obtain ⟨rfl, _⟩ := Prod.mk.inj done
  exact found

omit [Crc32] in
/-- The directory part of a path leads where it led once a file has been deleted. -/
theorem Deleted.leads (deleted : Deleted s s' f) (path : Name) :
    s'.getCreatedDirectory path = s.getCreatedDirectory path ∧ ∀ d, s'.dirMeta d = s.dirMeta d := by
  have metas : s'.dirMetas = s.dirMetas := congrArg Outer.dirMetas deleted.outer
  refine ⟨getCreatedDirectory_congr (congrArg Outer.createdDirs deleted.outer) path, fun d => ?_⟩
  have slot : (s'.directories d).metaSlot = (s.directories d).metaSlot :=
    congrFun (congrArg Outer.dirSlots deleted.outer) d
  rw [dirMeta, dirMeta, metas, slot]

/-- Nothing is found at the path of a deleted file. -/
theorem Deleted.resolve (deleted : Deleted s s' f) (found : s.getCreatedFile path = .ok f)
    (missing : ∀ d, s.getCreatedDirectory path ≠ .ok d) : s'.resolve path = none := by
  obtain ⟨_, _, dir, leads, entry⟩ := getCreatedFile_eq_ok.mp found
  refine resolve_eq_none.mpr ⟨fun g still => ?_, fun d => (deleted.leads path).1 ▸ missing d⟩
  obtain ⟨_, _, dir', leads', entry'⟩ := getCreatedFile_eq_ok.mp still
  obtain ⟨same, metas⟩ := deleted.leads (getDirName path)
  rw [same, leads] at leads'
  obtain rfl := Except.ok.inj leads'
  have before := deleted.names _ g entry'
  rw [metas, entry] at before
  obtain rfl := Option.some.inj before
  exact deleted.unnamed _ entry'

/-- The path of a deleted file can be taken by another file while a slot is free. -/
theorem Deleted.recreated (deleted : Deleted s s' f) (settled : Settled s') (bound : f < s.nextFile)
    (found : s.getCreatedFile path = .ok f) (filled : s.freeFhs ≠ []) (ok : env.IoOk) :
    ∃ t g, s'.createFilePath env path = (t, 0) ∧ t.getCreatedFile path = .ok g ∧ g ≠ f ∧
      (t.fileMeta g).size = 0 ∧ t.attached g = [] := by
  obtain ⟨closed, short, dir, leads, entry⟩ := getCreatedFile_eq_ok.mp found
  obtain ⟨same, metas⟩ := deleted.leads (getDirName path)
  have clean : CleanFhs s' := by
    obtain ⟨_, _, _, stocked⟩ := settled
    exact ⟨stocked.slots, stocked.cleanFhs⟩
  have vacant : s'.createdFiles.lookup ((s'.dirMeta dir).dh, getFileName path) = none := by
    rw [metas]
    cases there : s'.createdFiles.lookup ((s.dirMeta dir).dh, getFileName path) with
    | none => rfl
    | some g =>
      have before := deleted.names _ g there
      rw [entry] at before
      obtain rfl := Option.some.inj before
      exact absurd there (deleted.unnamed _)
  obtain ⟨u, x, rest, m, done, created, key⟩ := createFile_done clean ok closed short (same.trans leads) vacant
    (deleted.freeFhs ▸ filled)
  have object : u.files s'.nextFile =
      { metaSlot := x, nlink := 0, locked := false, deleted := false, itemMaps := ∅ } := by
    rw [created.files, Function.update_self]
  have dirs : u.createdDirs = s'.createdDirs := congrArg DirSide.createdDirs created.relisted.rest
  have dirMetas : u.dirMetas = s'.dirMetas := congrArg DirSide.dirMetas created.relisted.rest
  refine ⟨u, s'.nextFile, ?_, getCreatedFile_eq_ok.mpr ⟨closed, short, dir, ?_, ?_⟩, ?_, ?_, ?_⟩
  · rw [createFilePath, done]
  · rw [getCreatedDirectory_congr dirs, same, leads]
  · have home : u.dirMeta dir = s'.dirMeta dir := by
      rw [dirMeta, dirMeta, dirMetas, created.relisted.metaSlot]
    rw [created.createdFiles, key, home, AList.lookup_insert]
  · have nextFile : s'.nextFile = s.nextFile := congrArg Outer.nextFile deleted.outer
    rw [nextFile]
    exact bound.ne'
  · rw [fileMeta, object, created.fileMetas, Function.update_self]
    exact created.size
  · rw [attached, object]
    rfl

/-- An `unlink` that succeeds removes the name if and only if the file has no links, and another file can
take the name if and only if a slot is free. -/
theorem Reachable.unlinksName_iff (reach : Reachable anyCall s) (ok : env.IoOk)
    (found : s.getCreatedFile path = .ok f) (done : s.unlink env path = (s', 0)) :
    UnlinksName s s' path f ↔ (s.files f).nlink ≤ 0 ∧ s.freeFhs ≠ [] := by
  obtain ⟨settled, sheltered⟩ := reach.settled
  have filed := reach.filed
  obtain ⟨_, _, dir, leads, entry⟩ := getCreatedFile_eq_ok.mp found
  have bound : f < s.nextFile := filed.live _ f (filed.names _ f entry).2
  have missing (d : DirectoryPtr) : s.getCreatedDirectory path ≠ .ok d := by
    intro there
    rw [unlink, there] at done
    simp at done
  have nonempty : path ≠ [] := by
    rintro rfl
    exact missing dir leads
  constructor
  · intro removes
    have idle : (s.files f).nlink ≤ 0 := by
      by_contra linked
      have still := unlink_linked (not_le.mp linked) found done
      have gone := removes.stat ⟨0, 0⟩
      rw [statPath_found _ nonempty (resolve_file still)] at gone
      simp at gone
    refine ⟨idle, fun empty => ?_⟩
    have deleted := filed.unlinks sheltered reach.fileMetaSize found idle done
    obtain ⟨t, g, made, _⟩ := removes.recreated env ok
    have refused := @createFile_full _ s' env (deleted.freeFhs.trans empty) path
    rw [made] at refused
    simp at refused
  · rintro ⟨idle, filled⟩
    have deleted := filed.unlinks sheltered reach.fileMetaSize found idle done
    have step : Step s ⟨env, .unlink path⟩ s' := by
      rw [Step, next, call, done]
    have reach' : Reachable anyCall s' := .next reach ⟨ok, trivial⟩ step
    have absent := deleted.resolve found missing
    exact
      { stat := fun p => statPath_absent p nonempty absent
        unopened := fun env flags => openFile_absent absent
        recreated := fun env ok => deleted.recreated reach'.settled.1 bound found filled ok
        content := fun fd opened => absurd opened (reach.linksCover.not_opened bound idle fd)
        departed := fun t later d image env m mounted g =>
          reach.deleted_departed deleted reach' bound idle later image mounted }

omit [Crc32] in
theorem Reachable.unlinksName_iff_closed : ∃ s s', @Reachable zeroCrc anyCall s ∧
    s.getCreatedFile ['/', 'a'] = .ok 0 ∧ @unlink zeroCrc s steadyEnv ['/', 'a'] = (s', 0) ∧
    @UnlinksName zeroCrc s s' ['/', 'a'] 0 := by
  let _ := zeroCrc
  obtain ⟨s, reach, file, idle, filled, done⟩ := Reachable.exists_run
    [.openFile ['/', 'a'] 0o102, .truncateFd 0 1, .close 0]
    (fun s => (s.getCreatedFile ['/', 'a']).toOption = some 0 ∧ (s.files 0).nlink ≤ 0 ∧ s.freeFhs ≠ [] ∧
      (s.unlink steadyEnv ['/', 'a']).2 = 0)
    (freshDevice_fresh 8 fun _ => 0) steadyEnv_ok anyCall_sound (by decide +kernel)
  have found : s.getCreatedFile ['/', 'a'] = .ok 0 := by
    cases lookup : s.getCreatedFile ['/', 'a'] with
    | error e => simp [lookup, Except.toOption] at file
    | ok f => simpa [lookup, Except.toOption] using file
  have result : s.unlink steadyEnv ['/', 'a'] = ((s.unlink steadyEnv ['/', 'a']).1, 0) := Prod.ext rfl done
  exact ⟨s, _, reach, found, result, (reach.unlinksName_iff steadyEnv_ok found result).mpr ⟨idle, filled⟩⟩

omit [Crc32] in
/-- The path of an open file still leads to it after `unlink` has returned 0. -/
theorem not_unlinksName : ∃ s s', @Reachable zeroCrc anyCall s ∧ s.getCreatedFile ['/', 'a'] = .ok 0 ∧
    @unlink zeroCrc s steadyEnv ['/', 'a'] = (s', 0) ∧ s'.getCreatedFile ['/', 'a'] = .ok 0 ∧
    ¬@UnlinksName zeroCrc s s' ['/', 'a'] 0 := by
  let _ := zeroCrc
  obtain ⟨s, reach, file, after, done⟩ := Reachable.exists_run
    [.openFile ['/', 'a'] 0o102]
    (fun s => (s.getCreatedFile ['/', 'a']).toOption = some 0 ∧
      ((s.unlink steadyEnv ['/', 'a']).1.getCreatedFile ['/', 'a']).toOption = some 0 ∧
      (s.unlink steadyEnv ['/', 'a']).2 = 0)
    (freshDevice_fresh 8 fun _ => 0) steadyEnv_ok anyCall_sound (by decide +kernel)
  have found (t : FileSystem) (file : (t.getCreatedFile ['/', 'a']).toOption = some 0) :
      t.getCreatedFile ['/', 'a'] = .ok 0 := by
    cases lookup : t.getCreatedFile ['/', 'a'] with
    | error e => simp [lookup, Except.toOption] at file
    | ok f => simpa [lookup, Except.toOption] using file
  have still := found _ after
  refine ⟨s, _, reach, found s file, Prod.ext rfl done, still, fun removes => ?_⟩
  have gone := removes.stat ⟨0, 0⟩
  rw [statPath_found _ (by simp) (resolve_file still)] at gone
  simp at gone

end Reuse

end BlockFs.FileSystem
