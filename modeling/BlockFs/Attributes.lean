import BlockFs.Remount
import BlockFs.Stat

namespace BlockFs

/-- The slot up to its checksum. -/
def FileMeta.record (m : FileMeta) : FileMeta := { m with crc := 0 }

/-- Two slots with the same attributes, up to times that do not go backwards. -/
structure SameAttributes (m m' : FileMeta) : Prop where
  fh : m'.fh = m.fh
  nlink : m'.nlink = m.nlink
  mode : m'.mode = m.mode
  uid : m'.uid = m.uid
  gid : m'.gid = m.gid
  atime : m'.atime = m.atime
  mtime : m.mtime ≤ m'.mtime
  ctime : m.ctime ≤ m'.ctime
  dh : m'.dh = m.dh
  fileName : m'.fileName = m.fileName
  isTemp : m'.isTemp = m.isTemp

/-- A file object up to its file blocks. -/
def File.bare (o : File) : File := { o with itemMaps := ∅ }

namespace FileSystem

/-- A truncation has left the attributes of `f` alone: in its slot and in what `stat` reports, in the file
object, and on the device as a remount finds them, unless nothing was written there. -/
structure KeepsAttributes [Crc32] (s s' : FileSystem) (f : FilePtr) : Prop where
  slot : SameAttributes (s.fileMeta f) (s'.fileMeta f)
  stat : ∀ p, ∃ size blocks mtime ctime, s'.fileStat p f =
    { s.fileStat p f with size := size, blocks := blocks, mtime := mtime, ctime := ctime }
  nlink : (s'.files f).nlink = (s.files f).nlink
  locked : (s'.files f).locked = (s.files f).locked
  deleted : (s'.files f).deleted = (s.files f).deleted
  remount : s'.disk = s.disk ∨ ∀ env t, mountFileSystem env s'.disk = .ok (t, 0) → ∀ g < t.nextFile,
    (t.files g).metaSlot = (s'.files f).metaSlot → SameAttributes (s.fileMeta f) (t.fileMeta g)

section Loading
variable [Crc32] {d : Disk} {s s' : FileSystem} {env : Env} {i : Nat}

/-- The slots of files that are not temporary are as on the device. -/
def Recorded (d : Disk) (s : FileSystem) : Prop :=
  ∀ i, (d.fileMetas i).isTemp = false → (s.fileMetas i).record = (d.fileMetas i).record

omit [Crc32] in
theorem Recorded.congr (recorded : Recorded d s) (same : s'.berths = s.berths) : Recorded d s' := by
  have metas : s'.fileMetas = s.fileMetas := congrArg Berths.fileMetas same
  intro i lasting
  rw [metas]
  exact recorded i lasting

theorem record_sealed (m : FileMeta) : m.sealed.record = m.record := rfl

/-- A round of the file loop changes the slots of temporary files only, up to checksums. -/
theorem Recorded.initFileSlot (recorded : Recorded d s) (done : s.initFileSlot env i = (s', true)) :
    Recorded d s' := by
  unfold FileSystem.initFileSlot at done
  dsimp only at done
  split at done
  · simp at done
  split at done
  swap
  · obtain ⟨rfl, _⟩ := Prod.mk.inj done
    exact recorded
  split at done
  · next temp =>
    have written := @clearTemp_berths _ env s i
    rw [done] at written
    have metas : s'.fileMetas = _ := congrArg Berths.fileMetas written
    intro j lasting
    have other : j ≠ i := by
      rintro rfl
      have same := congrArg FileMeta.isTemp (recorded j lasting)
      simp [FileMeta.record, temp, lasting] at same
    rw [metas]
    dsimp only
    by_cases named : j = (s.fileMetas i).fh
    · subst named
      rw [Function.update_self, record_sealed, Function.update_of_ne other]
      exact recorded _ lasting
    · rw [Function.update_of_ne named, Function.update_of_ne other]
      exact recorded j lasting
  split at done
  · simp at done
  split at done
  · simp at done
  split at done
  · simp at done
  · next dir _ =>
    have state : s' = _ := (congrArg Prod.fst done).symm
    rw [state]
    refine Recorded.congr ?_ (addChildFile_berths _ dir s.nextFile)
    split
    · exact recorded
    · exact recorded

/-- A file of a mounted device has the attributes of its slot there. -/
theorem mountFileSystem_records (done : mountFileSystem env d = .ok (s, 0)) {g : FilePtr}
    (known : g < s.nextFile) : (s.fileMeta g).record = (d.fileMetas (s.files g).metaSlot).record := by
  have recorded : Recorded d s :=
    @mountFileSystem_loads d _ env (fun _ s => Recorded d s) (fun _ _ _ same recorded => recorded.congr same)
      (fun _ _ _ _ recorded _ result => recorded.initFileSlot result) (fun _ _ => rfl) s done
  obtain ⟨_, _, _, lasting⟩ := (mountFileSystem_files done).files g known
  exact recorded _ lasting

end Loading

section Growing
variable [Crc32] {s s' t : FileSystem} {env : Env} {f : FilePtr} {offset n needed : Nat} {b : FileBlockPtr}
  {isNew : Bool} {r : Int}

/-- The slots, and the file objects up to their file blocks. -/
def holdings (s : FileSystem) : (Nat → FileMeta) × SuperBlockMeta × (FilePtr → File) :=
  (s.fileMetas, s.superMeta, fun g => (s.files g).bare)

omit [Crc32] in
theorem addFileBlockNoLock_holdings (s : FileSystem) (f : FilePtr) (b : FileBlockPtr) :
    (s.addFileBlockNoLock f b).1.holdings = s.holdings := by
  unfold addFileBlockNoLock
  split
  · rfl
  · refine Prod.ext rfl (Prod.ext rfl ?_)
    funext g
    exact view_update s.files f g File.bare rfl

/-- A growth that succeeds ends with the new size in the slot and the slot on the device. -/
theorem extendBlocks_ok (done : s.extendBlocks env f offset needed b isNew = (s', 0)) :
    ∃ t : FileSystem, t.holdings = s.holdings ∧
      (t.modifyFileMeta (t.files f).metaSlot fun m => { m with size := offset }).writeMeta env f =
        (s', true) := by
  unfold extendBlocks at done
  split at done
  · simp at done
  next u ids taken =>
  have first : u.holdings = s.holdings := by
    split at taken
    · unfold getFreeBlockIdLock at taken
      split at taken
      · simp at taken
      · rw [← (Prod.mk.inj (Option.some.inj taken)).1]
        rfl
    · rw [← (Prod.mk.inj (Option.some.inj taken)).1]
  dsimp only at done
  split at done
  · simp at done
  next slot _ =>
  have written : (if ids.isEmpty then (u.setFileBlockMeta b slot, true)
      else (u.setFileBlockMeta b slot).writeFileBlockMeta env b).1.holdings = s.holdings := by
    split
    · exact first
    · rw [writeFileBlockMeta, pwriteDirect]
      split <;> exact first
  split at done
  · simp at done
  next v entered =>
  rw [entered] at written
  have attached : (if !ids.isEmpty && isNew then (v.addFileBlockNoLock f b).1 else v).holdings = s.holdings := by
    split
    · exact (addFileBlockNoLock_holdings v f b).trans written
    · exact written
  split at done
  · simp at done
  next w last =>
  obtain ⟨rfl, _⟩ := Prod.mk.inj done
  exact ⟨_, attached, last⟩

theorem extendFile_ok (done : s.extendFile env f offset = .ok (s', 0)) :
    ∃ t : FileSystem, t.holdings = s.holdings ∧
      (t.modifyFileMeta (t.files f).metaSlot fun m => { m with size := offset }).writeMeta env f =
        (s', true) := by
  unfold extendFile at done
  split at done
  · simp at done
  dsimp only at done
  split at done
  · split at done
    · simp at done
    obtain ⟨⟨u, free⟩, first, rest⟩ := Except.bind_eq_ok.mp done
    have same : u.holdings = s.holdings := by
      unfold getFileBlockLock at first
      split at first
      · rw [← (Prod.mk.inj (Except.ok.inj first)).1]
      split at first
      · simp at first
      split at first
      · simp at first
      · rw [← (Prod.mk.inj (Except.ok.inj first)).1]
        rfl
    cases free with
    | none => simp at rest
    | some b =>
      obtain ⟨t, kept, last⟩ := extendBlocks_ok (Except.ok.inj rest)
      exact ⟨t, kept.trans same, last⟩
  · split at done
    · simp at done
    split at done
    · simp at done
    split at done
    · simp at done
    · exact extendBlocks_ok (Except.ok.inj done)

omit [Crc32] in
/-- The page that is written for a slot holds the slot. -/
theorem filePage_holds (size : s.superMeta.fileMetaSize = kBlockFsFileMetaSize) (slots : Nat → FileMeta)
    (d : Disk) (i : Nat) : (d.apply (.filePage
      (pageAlignIndex (kBlockFsPageSize / s.superMeta.fileMetaSize) i) slots)).fileMetas i = slots i := by
  have page : kBlockFsPageSize / s.superMeta.fileMetaSize = filesPerPage := by rw [size, filesPerPage]
  have positive : 0 < filesPerPage := by decide
  have inside := Nat.mod_lt i positive
  rw [page, pageAlignIndex, Disk.apply]
  dsimp only
  rw [if_pos (by omega)]

/-- What a growth that succeeds leaves in memory and on the device. -/
theorem extendFile_leaves (fhs : ∀ i, (s.fileMetas i).fh = i)
    (size : s.superMeta.fileMetaSize = kBlockFsFileMetaSize) (done : s.extendFile env f offset = .ok (s', 0)) :
    (s'.files f).bare = (s.files f).bare ∧
      (s'.fileMeta f).record = { s.fileMeta f with size := offset }.record ∧
      (s'.disk.fileMetas (s'.files f).metaSlot).record = { s.fileMeta f with size := offset }.record := by
  obtain ⟨t, kept, last⟩ := extendFile_ok done
  have metas : t.fileMetas = s.fileMetas := congrArg Prod.fst kept
  have super : t.superMeta = s.superMeta := congrArg (fun h => h.2.1) kept
  have object : (t.files f).bare = (s.files f).bare := congrFun (congrArg (fun h => h.2.2) kept) f
  have slot : (t.files f).metaSlot = (s.files f).metaSlot := by
    have same := congrArg File.metaSlot object
    exact same
  let m : FileMeta := { s.fileMeta f with size := offset }
  let u := t.modifyFileMeta (s.files f).metaSlot fun m => { m with size := offset }
  have resized : u.fileMetas (s.files f).metaSlot = m := by
    dsimp only [u, modifyFileMeta]
    rw [Function.update_self, metas]
    rfl
  have handle : (u.fileMeta f).fh = (s.files f).metaSlot := by
    rw [fileMeta, show (u.files f).metaSlot = (s.files f).metaSlot from slot, resized]
    exact fhs _
  rw [slot, writeMeta, show (t.modifyFileMeta (s.files f).metaSlot fun m => { m with size := offset }) = u from rfl,
    handle, writeFileMeta, pwriteDirect] at last
  have sealed : (u.modifyFileMeta (s.files f).metaSlot FileMeta.sealed).fileMetas (s.files f).metaSlot = m.sealed := by
    dsimp only [modifyFileMeta]
    rw [Function.update_self, resized]
  split at last
  · obtain ⟨rfl, _⟩ := Prod.mk.inj last
    refine ⟨object, ?_, ?_⟩
    · change ((u.modifyFileMeta (s.files f).metaSlot FileMeta.sealed).fileMetas (t.files f).metaSlot).record = _
      rw [slot, sealed]
      rfl
    · change ((t.disk.apply (.filePage (pageAlignIndex (kBlockFsPageSize / t.superMeta.fileMetaSize)
        (s.files f).metaSlot) (u.modifyFileMeta (s.files f).metaSlot FileMeta.sealed).fileMetas)).fileMetas
          (t.files f).metaSlot).record = _
      rw [slot, filePage_holds (super ▸ size), sealed]
      rfl
  · simp at last

/-- A shrink that succeeds has moved the file to a slot that was free. -/
theorem shrinkFile_moves (done : s.shrinkFile env f offset = .ok (s', 0)) :
    (s'.files f).metaSlot ∈ s.freeFhs := by
  rcases shrinkFile_registry done with ⟨failed, _⟩ | ⟨w, rest, listed, _, ⟨failed, _⟩ | ⟨t, dir, _, _, _, same⟩⟩
  · simp at failed
  · simp at failed
  · have slot : (s'.files f).metaSlot = ((t.shrinkSwitch dir f w).files f).metaSlot :=
      congrFun (congrArg Registry.metaSlots same) f
    obtain ⟨directories, names, fhs, moved⟩ := shrinkSwitch_frame t dir f w
    rw [slot, moved, listed]
    dsimp only
    rw [Function.update_self]
    exact List.mem_cons_self

end Growing

section Run
variable [Crc32] {s s' : FileSystem} {env : Env} {f : FilePtr} {n : Nat} {m m' : FileMeta}

/-- No turn touches the super block. -/
theorem Turn.superMeta (turn : Turn env s s') : s'.superMeta = s.superMeta := by
  cases turn with
  | surface same => exact congrArg Beneath.superMeta same
  | created path tmpfile =>
    rcases @createFile_outer _ s env path tmpfile with ⟨_, kept⟩ | ⟨_, made⟩
    · exact congrArg Outer.superMeta kept
    · exact congrArg Outer.superMeta made
  | truncated _ result => exact congrArg Outer.superMeta (ftruncate_outer result)
  | stamped => rfl
  | discarded => exact congrArg Outer.superMeta (unlinkFileNolock_outer _)
  | unlinked path => exact congrArg Outer.superMeta (unlink_outer path)
  | renamed _ target => exact congrArg Outer.superMeta (fileRename_outer target)
  | madeDirectory result => exact congrArg FileSide.superMeta (createDirectory_fileSide s env result)
  | droppedDirectory path => exact congrArg FileSide.superMeta (deleteDirectory_fileSide s env path)
  | movedDirectory source target =>
    exact congrArg FileSide.superMeta (renameDirectory_fileSide s env source target)
  | readDirectory result => exact congrArg FileSide.superMeta (readDirectory_fileSide s env result)

theorem Turns.superMeta (turns : Turns env s s') : s'.superMeta = s.superMeta := by
  induction turns with
  | refl => rfl
  | tail _ turn ih => exact turn.superMeta.trans ih

theorem Reachable.fileMetaSize {guard : FileSystem → Op → Prop} (reach : Reachable guard s) :
    s.superMeta.fileMetaSize = kBlockFsFileMetaSize := by
  refine reach.invariant (fun s => s.superMeta.fileMetaSize = kBlockFsFileMetaSize) (fun s fresh => ?_)
    fun s e s' size _ step => ?_
  · obtain ⟨d, env, attempts, rfl, large⟩ := fresh.eq_mounted
    rw [(coherent_mounted large env attempts).consistent.super]
    rfl
  · obtain ⟨_, result⟩ := step.call
    rw [(call_turns result).superMeta]
    exact size

omit [Crc32] in
theorem sameAttributes_of_record {size : Nat} (same : m'.record = { m with size := size }.record) :
    SameAttributes m m' where
  fh := congrArg (·.fh) same
  nlink := congrArg (·.nlink) same
  mode := congrArg (·.mode) same
  uid := congrArg (·.uid) same
  gid := congrArg (·.gid) same
  atime := congrArg (·.atime) same
  mtime := (congrArg (·.mtime) same).ge
  ctime := (congrArg (·.ctime) same).ge
  dh := congrArg (·.dh) same
  fileName := congrArg (·.fileName) same
  isTemp := congrArg (·.isTemp) same

omit [Crc32] in
theorem fileStat_of_attributes (slot : SameAttributes (s.fileMeta f) (s'.fileMeta f))
    (nlink : (s'.files f).nlink = (s.files f).nlink) (p : Process) : ∃ size blocks mtime ctime,
    s'.fileStat p f = { s.fileStat p f with size := size, blocks := blocks, mtime := mtime, ctime := ctime } := by
  refine ⟨(s'.fileStat p f).size, (s'.fileStat p f).blocks, (s'.fileStat p f).mtime,
    (s'.fileStat p f).ctime, ?_⟩
  unfold fileStat
  rw [slot.fh, slot.atime, nlink]

end Run

end FileSystem

end BlockFs
