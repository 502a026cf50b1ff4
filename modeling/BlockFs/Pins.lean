import BlockFs.Entries

namespace BlockFs

/-- The fields of a slot that only the creation, the renaming and the deletion of a file set. -/
structure Identity where
  used : Bool
  fh : Nat
  dh : Nat
  fileName : Name
  isTemp : Bool
  atime : Int

def FileMeta.identity (m : FileMeta) : Identity :=
  { used := m.used, fh := m.fh, dh := m.dh, fileName := m.fileName, isTemp := m.isTemp,
    atime := m.atime }

/-- The device without its data blocks. -/
def Disk.metadata (d : Disk) : Disk := { d with data := fun _ => 0 }

theorem Disk.metadata_apply (d : Disk) (w : MetaWrite) : (d.apply w).metadata = d.metadata.apply w := by
  cases w <;> rfl

/-- A condition on the identity in one slot, and the image that the pages of a journal, from its
entry `base` on, are written over. -/
structure Pin where
  slot : Nat
  holds : Identity → Prop
  start : Disk
  base : Nat

namespace FileSystem

/-- The slot meets the condition in memory and in every page written since, the device is what those
pages have made of the image, and no parent that waits for its recycling has the slot. -/
structure Pinned (p : Pin) (s : FileSystem) : Prop where
  memory : p.holds (s.fileMetas p.slot).identity
  pages : ∀ a slots, .filePage a slots ∈ s.journal.drop p.base → a ≤ p.slot → p.slot < a + filesPerPage →
    p.holds (slots p.slot).identity
  image : s.disk.metadata = (p.start.replay (s.journal.drop p.base)).metadata
  length : p.base ≤ s.journal.length
  parents : ∀ x parent, s.parentFiles.lookup x = some parent → parent.metaSlot ≠ p.slot

/-- What a pin depends on. -/
structure Tape where
  fileMetas : Nat → FileMeta
  journal : List MetaWrite
  image : Disk
  parentFiles : Map Nat ParentFile

def tape (s : FileSystem) : Tape :=
  { fileMetas := s.fileMetas
    journal := s.journal
    image := s.disk.metadata
    parentFiles := s.parentFiles }

section Tapes
variable (s : FileSystem)

theorem putFreeBlockIdsLock_tape (ids : List Nat) : (s.putFreeBlockIdsLock ids).tape = s.tape := by
  induction ids generalizing s with
  | nil => rfl
  | cons id ids ih => exact (ih (s.putFreeBlockIdLock id)).trans rfl

theorem getFreeBlockIdLock_tape {env : Env} {n : Nat} {s' : FileSystem} {ids : List Nat}
    (taken : s.getFreeBlockIdLock env n = some (s', ids)) : s'.tape = s.tape := by
  unfold getFreeBlockIdLock at taken
  split at taken
  · simp at taken
  · obtain ⟨rfl, _⟩ := Prod.mk.inj (Option.some.inj taken)
    rfl

theorem getFileBlockLock_tape {s' : FileSystem} {b : Option FileBlockPtr}
    (taken : s.getFileBlockLock = .ok (s', b)) : s'.tape = s.tape := by
  unfold getFileBlockLock at taken
  split at taken
  · obtain ⟨rfl, _⟩ := Prod.mk.inj (Except.ok.inj taken)
    rfl
  · split at taken
    · simp at taken
    · split at taken
      · simp at taken
      · obtain ⟨rfl, _⟩ := Prod.mk.inj (Except.ok.inj taken)
        rfl

theorem addFileBlockNoLock_tape (f : FilePtr) (b : FileBlockPtr) :
    (s.addFileBlockNoLock f b).1.tape = s.tape := by
  unfold addFileBlockNoLock
  split <;> rfl

theorem pwriteCache_metadata (d : Disk) (buffer : Nat → UInt8) (start len offset : Nat) :
    (d.pwriteCache buffer start len offset).1.metadata = d.metadata := by
  unfold Disk.pwriteCache
  split <;> rfl

theorem copyLoop_tape (src dst fuel offset len : Nat) :
    (s.copyLoop src dst fuel offset len).1.tape = s.tape := by
  induction fuel generalizing s offset len with
  | zero => rfl
  | succ fuel ih =>
    have stored (d : Disk) (same : d.metadata = s.disk.metadata) : { s with disk := d }.tape = s.tape := by
      rw [tape, same]
      rfl
    unfold copyLoop
    grind only [pwriteCache_metadata]

theorem copyData_tape {env : Env} (src dst offset len : Nat) :
    (s.copyData env src dst offset len).1.tape = s.tape := by
  unfold copyData
  grind only [copyLoop_tape]

theorem recycleIds_tape (blockNum : Nat) (ids : List Nat) (index : Nat) :
    (recycleIds blockNum ids index s).1.tape = s.tape := by
  induction ids generalizing s index with
  | nil => rfl
  | cons id ids ih =>
    unfold recycleIds
    split
    · exact ih s (index + 1)
    · exact (ih (s.putFreeBlockIdLock id) index).trans rfl

theorem addChildFile_tape (d : DirectoryPtr) (f : FilePtr) : (s.addChildFile d f).1.tape = s.tape := by
  unfold addChildFile
  split <;> rfl

theorem removeChildFile_tape (d : DirectoryPtr) (f : FilePtr) :
    (s.removeChildFile d f).1.tape = s.tape := by
  unfold removeChildFile
  split <;> rfl

theorem removeFileNoLock_tape (f : FilePtr) : (s.removeFileNoLock f).1.tape = s.tape := by
  unfold removeFileNoLock
  split
  · rfl
  · dsimp only
    split <;> rfl

theorem removeFileFromoDirectory_tape (d : DirectoryPtr) (f : FilePtr) :
    (s.removeFileFromoDirectory d f).1.tape = s.tape := by
  unfold removeFileFromoDirectory
  grind only [removeChildFile_tape, removeFileNoLock_tape]

theorem addFileToDirectory_tape (d : DirectoryPtr) (f : FilePtr) :
    (s.addFileToDirectory d f).tape = s.tape :=
  (rfl : ((s.addChildFile d f).1.addFileNoLock f).tape = _).trans (addChildFile_tape s d f)

end Tapes

section Pinning
variable {p : Pin} {s s' : FileSystem}

theorem Pinned.congr (pinned : Pinned p s) (same : s'.tape = s.tape) : Pinned p s' := by
  have memory : s'.fileMetas = s.fileMetas := congrArg Tape.fileMetas same
  have journal : s'.journal = s.journal := congrArg Tape.journal same
  have image : s'.disk.metadata = s.disk.metadata := congrArg Tape.image same
  have parents : s'.parentFiles = s.parentFiles := congrArg Tape.parentFiles same
  constructor
  · rw [memory]
    exact pinned.memory
  · rw [journal]
    exact pinned.pages
  · rw [image, journal]
    exact pinned.image
  · rw [journal]
    exact pinned.length
  · rw [parents]
    exact pinned.parents

/-- A slot may change if it keeps its identity or is another one. -/
theorem Pinned.modifyFileMeta (pinned : Pinned p s) (i : Nat) (g : FileMeta → FileMeta)
    (same : i = p.slot → (g (s.fileMetas i)).identity = (s.fileMetas i).identity) :
    Pinned p (s.modifyFileMeta i g) := by
  refine ⟨?_, pinned.pages, pinned.image, pinned.length, pinned.parents⟩
  rw [FileSystem.modifyFileMeta]
  dsimp only
  by_cases here : p.slot = i
  · rw [here, Function.update_self, same here.symm, ← here]
    exact pinned.memory
  · rw [Function.update_of_ne here]
    exact pinned.memory

/-- A metadata write that reaches the device, if it is no page with the slot or shows the slot as it
should be. -/
theorem Pinned.pwriteDirect (pinned : Pinned p s) (env : Env) (w : MetaWrite)
    (page : ∀ a slots, w = .filePage a slots → p.holds (slots p.slot).identity) :
    Pinned p (s.pwriteDirect env w).1 := by
  unfold FileSystem.pwriteDirect
  split
  · have journal : (s.journal ++ [w]).drop p.base = s.journal.drop p.base ++ [w] :=
      List.drop_append_of_le_length pinned.length
    refine ⟨pinned.memory, fun a slots member from_ to_ => ?_, ?_, ?_, pinned.parents⟩
    · rw [journal, List.mem_append, List.mem_singleton] at member
      rcases member with before | here
      · exact pinned.pages a slots before from_ to_
      · exact page a slots here.symm
    · dsimp only
      rw [journal, Disk.metadata_apply, pinned.image, Disk.replay_append, Disk.replay_cons,
        Disk.replay_nil, Disk.metadata_apply]
    · dsimp only
      rw [List.length_append]
      exact Nat.le_add_right_of_le pinned.length
  · exact pinned.congr rfl

variable [Crc32] {env : Env}

theorem Pinned.writeFileMeta (pinned : Pinned p s) (env : Env) (fh : Nat) :
    Pinned p (s.writeFileMeta env fh).1 := by
  have sealed := pinned.modifyFileMeta fh FileMeta.sealed fun _ => rfl
  refine sealed.pwriteDirect env _ fun a slots same => ?_
  obtain ⟨_, rfl⟩ := MetaWrite.filePage.inj same
  exact sealed.memory

theorem Pinned.writeMeta (pinned : Pinned p s) (env : Env) (f : FilePtr) :
    Pinned p (s.writeMeta env f).1 := pinned.writeFileMeta env _

theorem Pinned.writeFileBlockMeta (pinned : Pinned p s) (env : Env) (b : FileBlockPtr) :
    Pinned p (s.writeFileBlockMeta env b).1 :=
  (@Pinned.congr p s (s.setFileBlockMeta b (s.fileBlockMetas b).sealed) pinned rfl).pwriteDirect env _ nofun

theorem Pinned.writeDirMeta (pinned : Pinned p s) (env : Env) (dh : Nat) :
    Pinned p (s.writeDirMeta env dh).1 :=
  (@Pinned.congr p s (s.modifyDirMeta dh DirMeta.sealed) pinned rfl).pwriteDirect env _ nofun

end Pinning

section Truncating
variable [Crc32] {p : Pin} {s s' : FileSystem} {env : Env} {f : FilePtr} {r : Int}

theorem Pinned.releaseMyself (pinned : Pinned p s) (env : Env) (b : FileBlockPtr) :
    Pinned p (s.releaseMyself env b).1 := by
  have cleared := @Pinned.congr p s (s.setFileBlockMeta b (s.fileBlockMetas b).clear) pinned rfl
  have written := cleared.writeFileBlockMeta env b
  unfold FileSystem.releaseMyself
  dsimp only
  split
  · next t same =>
    rw [same] at written
    exact written
  · next t same =>
    rw [same] at written
    exact written.congr rfl

theorem Pinned.releaseAll (pinned : Pinned p s) (env : Env) (b : FileBlockPtr) :
    Pinned p (s.releaseAll env b).1 :=
  (pinned.congr (putFreeBlockIdsLock_tape s _)).releaseMyself env b

theorem Pinned.recycleFileBlocks (pinned : Pinned p s) {fbMaps : Map Nat FileBlockPtr}
    {blockNum fuel i index : Nat}
    (done : recycleFileBlocks env fbMaps blockNum fuel i index s = .ok s') : Pinned p s' := by
  induction fuel generalizing s i index with
  | zero =>
    obtain rfl := Except.ok.inj done
    exact pinned
  | succ fuel ih =>
    unfold FileSystem.recycleFileBlocks at done
    split at done
    · simp at done
    · next b found =>
      have ids := pinned.congr (recycleIds_tape s blockNum (s.fileBlockMetas b).ids index)
      split at done
      next t index' same =>
        rw [same] at ids
        exact ih (ids.releaseMyself env b) done

/-- The recycling of a parent clears the slot that it has. -/
theorem Pinned.recycle (pinned : Pinned p s) {parent : ParentFile} (off : parent.metaSlot ≠ p.slot)
    {b : Bool} (done : s.recycle env parent = .ok (s', b)) : Pinned p s' := by
  obtain ⟨t, blocks, rest⟩ := Except.bind_eq_ok.mp done
  have cleared := (pinned.recycleFileBlocks blocks).modifyFileMeta parent.metaSlot FileMeta.clear
    fun here => absurd here off
  have written := cleared.writeFileMeta env
    ((t.modifyFileMeta parent.metaSlot FileMeta.clear).fileMetas parent.metaSlot).fh
  dsimp only at rest
  split at rest
  · next u same =>
    obtain ⟨rfl, _⟩ := Prod.mk.inj (Except.ok.inj rest)
    rw [same] at written
    exact written
  · next u same =>
    obtain ⟨rfl, _⟩ := Prod.mk.inj (Except.ok.inj rest)
    rw [same] at written
    exact written.congr rfl

theorem Pinned.removeParentFile (pinned : Pinned p s) {fh : Nat} {b : Bool}
    (done : s.removeParentFile env fh = .ok (s', b)) : Pinned p s' := by
  unfold FileSystem.removeParentFile at done
  split at done
  · obtain ⟨rfl, _⟩ := Prod.mk.inj (Except.ok.inj done)
    exact pinned
  · next parent found =>
    have erased : Pinned p { s with parentFiles := s.parentFiles.erase fh } :=
      { pinned with parents := fun x q there => pinned.parents x q (lookup_of_erase there).1 }
    exact erased.recycle (pinned.parents fh parent found) done

theorem Pinned.recycleParentFh (pinned : Pinned p s) {fh : Nat}
    (done : s.recycleParentFh env f fh = .ok (s', r)) : Pinned p s' := by
  obtain ⟨⟨t, recycled⟩, first, rest⟩ := Except.bind_eq_ok.mp done
  have kept := pinned.removeParentFile first
  dsimp only at rest
  split at rest
  · obtain ⟨rfl, _⟩ := Prod.mk.inj (Except.ok.inj rest)
    exact kept
  · have written := (kept.modifyFileMeta (t.files f).metaSlot
      (fun m => { m with parentFh := -1, parentSize := 0 }) fun _ => rfl).writeMeta env f
    split at rest
    · next u same =>
      obtain ⟨rfl, _⟩ := Prod.mk.inj (Except.ok.inj rest)
      rw [same] at written
      exact written
    · next u same =>
      obtain ⟨rfl, _⟩ := Prod.mk.inj (Except.ok.inj rest)
      rw [same] at written
      exact written

theorem Pinned.shrinkPersist (pinned : Pinned p s) {oldFh : Nat} {fileBlock : Option FileBlockPtr}
    (done : s.shrinkPersist env f oldFh fileBlock = .ok (s', r)) : Pinned p s' := by
  have written := pinned.writeMeta env f
  unfold FileSystem.shrinkPersist at done
  split at done
  · next t same =>
    obtain ⟨rfl, _⟩ := Prod.mk.inj (Except.ok.inj done)
    rw [same] at written
    exact written
  · next t same =>
    rw [same] at written
    split at done
    · next u same' =>
      obtain ⟨rfl, _⟩ := Prod.mk.inj (Except.ok.inj done)
      cases fileBlock with
      | none => simp at same'
      | some b =>
        have blocks := written.writeFileBlockMeta env b
        rw [show t.writeFileBlockMeta env b = (u, false) from same'] at blocks
        exact blocks
    · next u same' =>
      have block : Pinned p u := by
        cases fileBlock with
        | none =>
          obtain rfl := congrArg Prod.fst same'
          exact written
        | some b =>
          have blocks := written.writeFileBlockMeta env b
          rw [show t.writeFileBlockMeta env b = (u, true) from same'] at blocks
          exact blocks
      have old := block.writeFileMeta env oldFh
      split at done
      · next v same'' =>
        obtain ⟨rfl, _⟩ := Prod.mk.inj (Except.ok.inj done)
        rw [same''] at old
        exact old
      · next v same'' =>
        rw [same''] at old
        exact old.recycleParentFh done

omit [Crc32] in
theorem Pinned.shrinkFileBlock (pinned : Pinned p s) {newFh offset : Nat}
    {result : Option (Option FileBlockPtr)}
    (done : s.shrinkFileBlock env f newFh offset = .ok (s', result)) : Pinned p s' := by
  have blank (t : FileSystem) (b : FileBlockPtr) (m : FileBlockMeta) :
      (t.setFileBlockMeta b m).tape = t.tape := rfl
  refine pinned.congr ?_
  unfold FileSystem.shrinkFileBlock at done
  dsimp only at done
  split at done
  · obtain ⟨rfl, _⟩ := Prod.mk.inj (Except.ok.inj done)
    rfl
  · obtain ⟨⟨t, taken⟩, first, rest⟩ := Except.bind_eq_ok.mp done
    have kept := getFileBlockLock_tape s first
    cases taken with
    | none =>
      obtain ⟨rfl, _⟩ := Prod.mk.inj (Except.ok.inj rest)
      exact kept
    | some b =>
      dsimp only at rest
      grind only [getFreeBlockIdLock_tape, copyData_tape]

omit [Crc32] in
theorem shrinkSwitch_tape (s : FileSystem) (dir : DirectoryPtr) (f : FilePtr) (newFh : Nat) :
    (s.shrinkSwitch dir f newFh).tape = s.tape := by
  have left := removeFileFromoDirectory_tape s dir f
  unfold shrinkSwitch
  exact (addFileToDirectory_tape _ dir f).trans left

theorem Pinned.shrinkCommit (pinned : Pinned p s) {newFh oldSlot offset : Nat}
    {fileBlock : Option FileBlockPtr} (off : oldSlot ≠ p.slot)
    (done : s.shrinkCommit env f newFh oldSlot offset fileBlock = .ok (s', r)) : Pinned p s' := by
  have marked := pinned.modifyFileMeta oldSlot
    (fun m => { m with childFh := (s.fileMetas newFh).fh }) fun _ => rfl
  unfold FileSystem.shrinkCommit at done
  dsimp only at done
  generalize s.modifyFileMeta oldSlot (fun m => { m with childFh := (s.fileMetas newFh).fh }) = t
    at done marked
  split at done
  · obtain ⟨rfl, _⟩ := Prod.mk.inj (Except.ok.inj done)
    exact marked
  · next dir found =>
    have switched := marked.congr (shrinkSwitch_tape t dir f newFh)
    generalize t.shrinkSwitch dir f newFh = u at done switched
    split at done
    · obtain ⟨rfl, _⟩ := Prod.mk.inj (Except.ok.inj done)
      exact switched.congr rfl
    · let parent : ParentFile :=
        { metaSlot := oldSlot, offset := offset, fbMaps := (u.files f).itemMaps }
      have waiting : Pinned p { u.modifyFile f fun o => { o with itemMaps := ∅ } with
          parentFiles := u.parentFiles.insert (u.fileMetas oldSlot).fh parent } :=
        { switched with
          parents := fun x q there => by
            rcases lookup_of_insert there with ⟨_, rfl⟩ | ⟨_, before⟩
            · exact off
            · exact switched.parents x q before }
      cases fileBlock with
      | none =>
        exact (waiting.modifyFileMeta newFh (fun m => { m with size := offset }) fun _ => rfl).shrinkPersist done
      | some b =>
        have added := waiting.congr (addFileBlockNoLock_tape _ f b)
        exact (added.modifyFileMeta newFh (fun m => { m with size := offset }) fun _ => rfl).shrinkPersist done

/-- A shrink touches the slot of the file and the head of the free list. -/
theorem Pinned.shrinkFile (pinned : Pinned p s) {offset : Nat} (off : (s.files f).metaSlot ≠ p.slot)
    (taken : p.slot ∉ s.freeFhs) (done : s.shrinkFile env f offset = .ok (s', r)) : Pinned p s' := by
  unfold FileSystem.shrinkFile at done
  rcases newFreeFileMeta_cases s f with ⟨e, refused⟩ | ⟨w, rest, listed, handle, drawn⟩
  · rw [refused] at done
    obtain ⟨rfl, _⟩ := Prod.mk.inj (Except.ok.inj done)
    exact pinned.congr rfl
  · have apart : w ≠ p.slot := by
      rintro rfl
      exact taken (by rw [listed]; exact List.mem_cons_self)
    rw [drawn] at done
    have child : Pinned p (s.childSlot f w) := pinned.modifyFileMeta w _ fun here => absurd here apart
    have child' : Pinned p { s.childSlot f w with freeFhs := rest } := child.congr rfl
    obtain ⟨⟨u, fileBlock⟩, blocks, commit⟩ := Except.bind_eq_ok.mp done
    have kept := (child'.modifyFileMeta w _ fun here => absurd here apart).shrinkFileBlock blocks
    cases fileBlock with
    | none =>
      obtain ⟨rfl, _⟩ := Prod.mk.inj (Except.ok.inj commit)
      exact kept
    | some fileBlock => exact kept.shrinkCommit off commit

theorem Pinned.extendBlocks (pinned : Pinned p s) (env : Env) (f : FilePtr) (offset needed : Nat)
    (b : FileBlockPtr) (isNew : Bool) : Pinned p (s.extendBlocks env f offset needed b isNew).1 := by
  have put (t : FileSystem) : (t.putFileBlockLock b).tape = t.tape := rfl
  have filled (t : FileSystem) (m : FileBlockMeta) : (t.setFileBlockMeta b m).tape = t.tape := rfl
  unfold FileSystem.extendBlocks
  split
  · split <;> exact pinned.congr rfl
  · next t ids taken =>
    have drawn : t.tape = s.tape := by
      split at taken
      · exact getFreeBlockIdLock_tape s taken
      · obtain ⟨rfl, _⟩ := Prod.mk.inj (Option.some.inj taken)
        rfl
    have kept := pinned.congr drawn
    dsimp only
    split
    · exact kept.congr rfl
    · next slot _ =>
      have set_ : Pinned p (t.setFileBlockMeta b slot) := kept.congr rfl
      generalize t.setFileBlockMeta b slot = u at set_
      split
      · next v same =>
        split at same
        · simp at same
        · have written := set_.writeFileBlockMeta env b
          rw [same] at written
          exact written
      · next v same =>
        have persisted : Pinned p v := by
          split at same
          · obtain ⟨rfl, _⟩ := Prod.mk.inj same
            exact set_
          · have written := set_.writeFileBlockMeta env b
            rw [same] at written
            exact written
        have attached : Pinned p (if !ids.isEmpty && isNew then (v.addFileBlockNoLock f b).1 else v) := by
          split
          · exact persisted.congr (addFileBlockNoLock_tape v f b)
          · exact persisted
        generalize (if !ids.isEmpty && isNew then (v.addFileBlockNoLock f b).1 else v) = w at attached
        have written := (attached.modifyFileMeta (w.files f).metaSlot
          (fun m => { m with size := offset }) fun _ => rfl).writeMeta env f
        split
        · next x same' =>
          rw [same'] at written
          exact written
        · next x same' =>
          rw [same'] at written
          exact written

theorem Pinned.extendFile (pinned : Pinned p s) {offset : Nat}
    (done : s.extendFile env f offset = .ok (s', r)) : Pinned p s' := by
  unfold FileSystem.extendFile at done
  dsimp only at done
  split at done
  · obtain ⟨rfl, _⟩ := Prod.mk.inj (Except.ok.inj done)
    exact pinned
  · split at done
    · split at done
      · simp at done
      · obtain ⟨⟨t, block⟩, first, rest⟩ := Except.bind_eq_ok.mp done
        have kept := pinned.congr (getFileBlockLock_tape s first)
        cases block with
        | none =>
          obtain ⟨rfl, _⟩ := Prod.mk.inj (Except.ok.inj rest)
          exact kept
        | some b =>
          have extended := kept.extendBlocks env f offset (numBlocksNeeded (s.fileMeta f).size offset) b true
          rw [congrArg Prod.fst (Except.ok.inj rest)] at extended
          exact extended
    · split at done
      · simp at done
      · split at done
        · obtain ⟨rfl, _⟩ := Prod.mk.inj (Except.ok.inj done)
          exact pinned
        · next b _ =>
          split at done
          · obtain ⟨rfl, _⟩ := Prod.mk.inj (Except.ok.inj done)
            exact pinned
          · have extended := pinned.extendBlocks env f offset (numBlocksNeeded (s.fileMeta f).size offset) b false
            rw [congrArg Prod.fst (Except.ok.inj done)] at extended
            exact extended

theorem Pinned.ftruncate (pinned : Pinned p s) {offset : Nat} (off : (s.files f).metaSlot ≠ p.slot)
    (taken : p.slot ∉ s.freeFhs) (done : s.ftruncate env f offset = .ok (s', r)) : Pinned p s' := by
  unfold FileSystem.ftruncate at done
  split at done
  · exact pinned.extendFile done
  · split at done
    · exact pinned.shrinkFile off taken done
    · obtain ⟨rfl, _⟩ := Prod.mk.inj (Except.ok.inj done)
      exact pinned

end Truncating

section Deleting
variable [Crc32] {p : Pin} {s s' : FileSystem} {env : Env} {f : FilePtr} {r : Int}

theorem Pinned.updateTimeStamp (pinned : Pinned p s) (f : FilePtr) (now : Int) :
    Pinned p (s.updateTimeStamp f now) := pinned.modifyFileMeta _ _ fun _ => rfl

theorem Pinned.releaseEntries (pinned : Pinned p s) (env : Env) (bs : List FileBlockPtr) :
    Pinned p (releaseEntries env bs s).1 := by
  induction bs generalizing s with
  | nil => exact pinned
  | cons b bs ih =>
    have released := pinned.releaseAll env b
    unfold FileSystem.releaseEntries
    split
    · next t same =>
      rw [same] at released
      exact released
    · next t same =>
      rw [same] at released
      exact ih released

theorem Pinned.removeAllFileBlock (pinned : Pinned p s) (env : Env) (f : FilePtr) :
    Pinned p (s.removeAllFileBlock env f).1 := by
  have released := pinned.releaseEntries env ((s.files f).itemMaps.entries.map (·.2))
  unfold FileSystem.removeAllFileBlock
  split
  · next t same =>
    rw [same] at released
    exact released
  · next t same =>
    rw [same] at released
    exact released.congr rfl

theorem Pinned.release (pinned : Pinned p s) (env : Env) (off : (s.files f).metaSlot ≠ p.slot) :
    Pinned p (s.release env f).1 :=
  (pinned.modifyFileMeta _ FileMeta.clear fun here => absurd here off).writeMeta env f

omit [Crc32] in
/-- A slot that stays whose it is, while the entries of the files change. -/
theorem metaSlot_of_registry (same : s'.registry = s.registry) (f : FilePtr) :
    (s'.files f).metaSlot = (s.files f).metaSlot := congrFun (congrArg Registry.metaSlots same) f

/-- The content and the slot of a file go, and it leaves its directory. -/
theorem Pinned.deletes (pinned : Pinned p s) (off : (s.files f).metaSlot ≠ p.slot) (dir : DirectoryPtr)
    {t u : FileSystem} {b b' : Bool} (emptied : s.removeAllFileBlock env f = (t, b))
    (cleared : t.release env f = (u, b')) :
    Pinned p t ∧ Pinned p u ∧ Pinned p (u.removeFileFromoDirectory dir f).1 := by
  have first := pinned.removeAllFileBlock env f
  have registry := @removeAllFileBlock_registry _ s env f
  rw [emptied] at first registry
  have second := first.release env (f := f) (by rw [metaSlot_of_registry registry]; exact off)
  rw [cleared] at second
  exact ⟨first, second, second.congr (removeFileFromoDirectory_tape u dir f)⟩

theorem Pinned.unlinkFileNolock (pinned : Pinned p s) {fh : Nat}
    (off : ∀ f, s.createdFhs.lookup fh = some f → (s.files f).metaSlot ≠ p.slot) :
    Pinned p (s.unlinkFileNolock env fh).1 := by
  unfold FileSystem.unlinkFileNolock
  split
  · exact pinned.congr rfl
  · next f found =>
    have apart := off f found
    split
    · exact pinned.congr rfl
    · next dir home =>
      have stamped := pinned.modifyFileMeta (s.files f).metaSlot
        (fun m => { m with mtime := env.now, ctime := env.now }) fun _ => rfl
      have slot : ((s.modifyFileMeta (s.files f).metaSlot fun m =>
        { m with mtime := env.now, ctime := env.now }).files f).metaSlot ≠ p.slot := apart
      dsimp only
      generalize (s.modifyFileMeta (s.files f).metaSlot fun m =>
        { m with mtime := env.now, ctime := env.now }) = u at stamped slot
      split
      · exact stamped
      · cases emptied : u.removeAllFileBlock env f with
        | mk v b =>
          cases cleared : v.release env f with
          | mk w b' =>
            obtain ⟨first, second, third⟩ := stamped.deletes slot dir emptied cleared
            cases b with
            | false => exact first
            | true =>
              dsimp only
              rw [cleared]
              cases b' with
              | false => exact second
              | true =>
                dsimp only
                cases left : w.removeFileFromoDirectory dir f with
                | mk x b'' =>
                  rw [left] at third
                  cases b'' with
                  | false => exact third
                  | true => exact third.congr rfl

theorem Pinned.unlink (pinned : Pinned p s) {path : Name}
    (off : ∀ dirname name dir f, s.findFile dirname name = .ok (dir, f) → (s.files f).metaSlot ≠ p.slot) :
    Pinned p (s.unlink env path).1 := by
  unfold FileSystem.unlink
  split
  · exact pinned.congr rfl
  · next e _ =>
    dsimp only
    split
    · exact pinned.congr rfl
    · next dirname name _ =>
      split
      · exact pinned.congr rfl
      · next dir f found =>
        have apart : ((s.storeErrno e).files f).metaSlot ≠ p.slot := off dirname name dir f found
        have noted : Pinned p (s.storeErrno e) := pinned.congr rfl
        generalize s.storeErrno e = u at apart noted
        split
        · exact noted.congr rfl
        · cases emptied : u.removeAllFileBlock env f with
          | mk v b =>
            cases cleared : v.release env f with
            | mk w b' =>
              obtain ⟨first, second, third⟩ := noted.deletes apart dir emptied cleared
              cases b with
              | false => exact first
              | true =>
                dsimp only
                rw [cleared]
                cases b' with
                | false => exact second
                | true =>
                  dsimp only
                  cases left : w.removeFileFromoDirectory dir f with
                  | mk x b'' =>
                    rw [left] at third
                    cases b'' with
                    | false => exact third
                    | true => exact third.congr rfl

end Deleting

section Naming
variable [Crc32] {p : Pin} {s s' : FileSystem} {env : Env} {f : FilePtr} {r : Int}

theorem Pinned.createFileIn (pinned : Pinned p s) (taken : p.slot ∉ s.freeFhs) (dirname filename : Name)
    (tmpfile : Bool) : Pinned p (s.createFileIn env dirname filename tmpfile).1 := by
  have drawn (t : FileSystem) (dh : Nat) (nameOf : Nat → Name) (isTemp : Bool) (kept : Pinned p t)
      (off : p.slot ∉ t.freeFhs) : Pinned p (t.newFreeFile dh nameOf isTemp).1 ∧
        ∀ f, (t.newFreeFile dh nameOf isTemp).2 = some f →
          ((t.newFreeFile dh nameOf isTemp).1.files f).metaSlot ≠ p.slot := by
    unfold newFreeFile
    cases free : t.freeFhs with
    | nil => exact ⟨kept.congr rfl, nofun⟩
    | cons x rest =>
      have apart : x ≠ p.slot := by
        rintro rfl
        exact off (by rw [free]; exact List.mem_cons_self)
      dsimp only
      split
      · exact ⟨kept.congr rfl, nofun⟩
      · have named := kept.modifyFileMeta x (fun m => { (m.setFileName (nameOf x)) with
          used := true, fh := x, dh := dh, isTemp := isTemp }) fun here => absurd here apart
        refine ⟨named.congr rfl, fun f same => ?_⟩
        obtain rfl := Option.some.inj same
        dsimp only
        rw [Function.update_self]
        exact apart
  have made : Pinned p (s.newFile env dirname filename tmpfile).1 := by
    unfold newFile
    split
    · exact pinned.congr rfl
    · next dir _ =>
      dsimp only
      split
      · exact pinned.congr rfl
      · have outcome : Pinned p (if tmpfile then s.newFreeTmpFileNolock (s.dirMeta dir).dh
            else s.newFreeFileNolock (s.dirMeta dir).dh filename).1 ∧
            ∀ f, (if tmpfile then s.newFreeTmpFileNolock (s.dirMeta dir).dh
              else s.newFreeFileNolock (s.dirMeta dir).dh filename).2 = some f →
              ((if tmpfile then s.newFreeTmpFileNolock (s.dirMeta dir).dh
                else s.newFreeFileNolock (s.dirMeta dir).dh filename).1.files f).metaSlot ≠ p.slot := by
          split
          · exact drawn s _ _ _ pinned taken
          · exact drawn s _ _ _ pinned taken
        split
        · next t same =>
          rw [same] at outcome
          exact outcome.1
        · next t f same =>
          rw [same] at outcome
          have kept : Pinned p t := outcome.1
          have off : (t.files f).metaSlot ≠ p.slot := outcome.2 f rfl
          exact kept.modifyFileMeta (t.files f).metaSlot
            (fun m => { m with atime := env.now, mtime := env.now, ctime := env.now })
            fun here => absurd here off
  unfold FileSystem.createFileIn
  split
  · next t same =>
    rw [same] at made
    exact made
  · next t dir f same =>
    rw [same] at made
    have written := made.writeMeta env f
    split
    · next u same' =>
      rw [same'] at written
      exact written
    · next u same' =>
      rw [same'] at written
      exact (written.congr (addFileToDirectory_tape u dir f)).congr rfl

theorem Pinned.createFile (pinned : Pinned p s) (taken : p.slot ∉ s.freeFhs) (filename : Name)
    (tmpfile : Bool) : Pinned p (s.createFile env filename tmpfile).1 := by
  unfold FileSystem.createFile
  split
  · exact pinned.createFileIn taken _ _ _
  · split
    · exact pinned.congr rfl
    · exact pinned.createFileIn taken _ _ _

theorem Pinned.fileRename (pinned : Pinned p s) (off : (s.files f).metaSlot ≠ p.slot) (target : Name) :
    Pinned p (s.fileRename env f target).1 := by
  have entered (t : FileSystem) (kept : Pinned p t) (slot : (t.files f).metaSlot ≠ p.slot)
      (dir : DirectoryPtr) : Pinned p (t.enterRenamed env f dir target).1 := by
    have named := (kept.modifyFileMeta (t.files f).metaSlot
      (fun m => { (m.setFileName (getFileName target)) with dh := (t.dirMeta dir).dh })
      fun here => absurd here slot).updateTimeStamp f env.now
    unfold enterRenamed
    dsimp only
    generalize ((t.modifyFileMeta (t.files f).metaSlot fun m =>
      { (m.setFileName (getFileName target)) with dh := (t.dirMeta dir).dh }).updateTimeStamp f
        env.now) = v at named
    have listed : Pinned p (v.addFileNoLock f) := named.congr rfl
    have added := listed.congr (addChildFile_tape (v.addFileNoLock f) dir f)
    split
    · next u same =>
      rw [same] at added
      exact added
    · next u same =>
      rw [same] at added
      have written := added.writeMeta env f
      split
      · next v same' =>
        rw [same'] at written
        exact written
      · next v same' =>
        rw [same'] at written
        exact written
  unfold FileSystem.fileRename
  split
  · exact pinned
  · next oldDir _ =>
    split
    · exact pinned.congr rfl
    · next newDir _ =>
      have left := pinned.congr (removeChildFile_tape s oldDir f)
      have files : (s.removeChildFile oldDir f).1.files = s.files := by
        unfold removeChildFile
        split <;> rfl
      split
      · next t same =>
        rw [same] at left
        exact left
      · next t same =>
        rw [same] at left files
        have gone := left.congr (removeFileNoLock_tape t f)
        have files' : (t.removeFileNoLock f).1.files = t.files := by
          unfold removeFileNoLock
          split
          · rfl
          · dsimp only
            split <;> rfl
        split
        · next u same' =>
          rw [same'] at gone
          exact gone
        · next u same' =>
          rw [same'] at gone files'
          refine entered u gone ?_ newDir
          rw [files', files]
          exact off

end Naming

section Directories
variable [Crc32] {p : Pin} {s s' : FileSystem} {env : Env}

omit [Crc32] in
theorem Pinned.storeErrno (pinned : Pinned p s) (e : Option Errno) : Pinned p (s.storeErrno e) :=
  pinned.congr rfl

omit [Crc32] in
theorem Pinned.errno (pinned : Pinned p s) (e : Errno) : Pinned p { s with errno := e } :=
  pinned.congr rfl

omit [Crc32] in
theorem Pinned.modifyDirMeta (pinned : Pinned p s) (i : Nat) (g : DirMeta → DirMeta) :
    Pinned p (s.modifyDirMeta i g) := pinned.congr rfl

omit [Crc32] in
theorem addDirectory2CreateNolock_tape (s : FileSystem) (d : DirectoryPtr) :
    (s.addDirectory2CreateNolock d).1.tape = s.tape := by
  unfold addDirectory2CreateNolock
  grind only [tape]

omit [Crc32] in
theorem removeDirectoryFromCreateNolock_tape (s : FileSystem) (d : DirectoryPtr) :
    (s.removeDirectoryFromCreateNolock d).1.tape = s.tape := by
  unfold removeDirectoryFromCreateNolock
  grind only [tape]

omit [Crc32] in
theorem addChildDirectory_tape (s : FileSystem) (parent child : DirectoryPtr) :
    (s.addChildDirectory parent child).1.tape = s.tape := by
  unfold addChildDirectory
  split <;> rfl

omit [Crc32] in
theorem removChildDirectory_tape (s : FileSystem) (parent child : DirectoryPtr) :
    (s.removChildDirectory parent child).1.tape = s.tape := by
  unfold removChildDirectory
  split <;> rfl

theorem Pinned.writeDirMetaRetry (pinned : Pinned p s) (dh tries : Nat) :
    Pinned p (writeDirMetaRetry env dh tries s).1 := by
  induction tries generalizing s with
  | zero => exact pinned
  | succ tries ih =>
    have written := pinned.writeDirMeta env dh
    rw [FileSystem.writeDirMetaRetry]
    split <;> next t same =>
      rw [same] at written
      first
        | exact written
        | exact ih written

omit [Crc32] in
theorem Pinned.newDirectory (pinned : Pinned p s) (dirname : Name) :
    Pinned p (s.newDirectory env dirname).1 := by
  have drawn : (s.newFreeDirectoryNolock env dirname).1.tape = s.tape := by
    unfold newFreeDirectoryNolock
    split
    · rfl
    · split <;> rfl
  have refused (e : Errno) : { s with errno := e }.tape = s.tape := rfl
  refine pinned.congr ?_
  unfold FileSystem.newDirectory
  grind only

omit [Crc32] in
theorem Pinned.addDirectory (pinned : Pinned p s) {parent : Option DirectoryPtr} {child : DirectoryPtr}
    {added : Bool} (result : s.addDirectory parent child = .ok (s', added)) : Pinned p s' := by
  refine pinned.congr ?_
  unfold FileSystem.addDirectory at result
  grind only [addDirectory2CreateNolock_tape, addChildDirectory_tape, removChildDirectory_tape]

theorem Pinned.createDirectory (pinned : Pinned p s) {path : Name} {r : Int}
    (result : s.createDirectory env path = .ok (s', r)) : Pinned p s' := by
  unfold FileSystem.createDirectory at result
  have noted := pinned.storeErrno (s.checkFileExist path true).1
  dsimp only at result
  generalize s.storeErrno (s.checkFileExist path true).1 = t at result noted
  split at result
  · obtain ⟨rfl, _⟩ := Prod.mk.inj (Except.ok.inj result)
    exact noted
  · split at result
    · obtain ⟨rfl, _⟩ := Prod.mk.inj (Except.ok.inj result)
      exact noted.storeErrno _
    · next dirName _ =>
      have drawn := @Pinned.newDirectory _ _ env noted dirName
      split at result
      · next u same =>
        obtain ⟨rfl, _⟩ := Prod.mk.inj (Except.ok.inj result)
        rw [same] at drawn
        exact drawn
      · next u parent dir same =>
        rw [same] at drawn
        have written := @Pinned.writeDirMetaRetry _ _ _ env drawn (u.dirMeta dir).dh 3
        split at result
        · next v same' =>
          obtain ⟨rfl, _⟩ := Prod.mk.inj (Except.ok.inj result)
          rw [same'] at written
          exact written
        · next v same' =>
          rw [same'] at written
          obtain ⟨⟨w, added⟩, done, rest⟩ := Except.bind_eq_ok.mp result
          have kept := Pinned.addDirectory (s := v) written done
          dsimp only at rest
          split at rest <;> obtain ⟨rfl, _⟩ := Prod.mk.inj (Except.ok.inj rest)
          · exact kept.errno 0
          · exact kept

theorem Pinned.deleteDirectory (pinned : Pinned p s) (path : Name) :
    Pinned p (s.deleteDirectory env path).1 := by
  have noted (t : FileSystem) (kept : Pinned p t) (e : Option Errno) := kept.storeErrno e
  have failed (t : FileSystem) (kept : Pinned p t) (e : Errno) := kept.errno e
  have cleared (t : FileSystem) (kept : Pinned p t) (i : Nat) :=
    kept.modifyDirMeta i fun m => m.clear.sealed
  have written (t : FileSystem) (kept : Pinned p t) (i : Nat) := kept.writeDirMeta env i
  have orphaned (t : FileSystem) (kept : Pinned p t) (parent child : DirectoryPtr) :=
    kept.congr (removChildDirectory_tape t parent child)
  have removed (t : FileSystem) (kept : Pinned p t) (d : DirectoryPtr) :=
    kept.congr (removeDirectoryFromCreateNolock_tape t d)
  unfold FileSystem.deleteDirectory
  grind only

theorem Pinned.directoryRename (pinned : Pinned p s) (dir : DirectoryPtr) (target : Name) :
    Pinned p (s.directoryRename env dir target).1 := by
  have noted (t : FileSystem) (kept : Pinned p t) (e : Option Errno) := kept.storeErrno e
  have named (t : FileSystem) (kept : Pinned p t) (i : Nat) :=
    kept.modifyDirMeta i fun m => m.setDirName target
  have written (t : FileSystem) (kept : Pinned p t) (i : Nat) := kept.writeDirMeta env i
  have orphaned (t : FileSystem) (kept : Pinned p t) (parent child : DirectoryPtr) :=
    kept.congr (removChildDirectory_tape t parent child)
  have removed (t : FileSystem) (kept : Pinned p t) (d : DirectoryPtr) :=
    kept.congr (removeDirectoryFromCreateNolock_tape t d)
  have listed (t : FileSystem) (kept : Pinned p t) (d : DirectoryPtr) :=
    kept.congr (addDirectory2CreateNolock_tape t d)
  have adopted (t : FileSystem) (kept : Pinned p t) (parent child : DirectoryPtr) :=
    kept.congr (addChildDirectory_tape t parent child)
  unfold FileSystem.directoryRename
  grind only

theorem Pinned.renameDirectory (pinned : Pinned p s) (source target : Name) :
    Pinned p (s.renameDirectory env source target).1 := by
  have noted (t : FileSystem) (kept : Pinned p t) (e : Option Errno) := kept.storeErrno e
  have failed (t : FileSystem) (kept : Pinned p t) (e : Errno) := kept.errno e
  have moved (t : FileSystem) (kept : Pinned p t) (dir : DirectoryPtr) (target : Name) :=
    @Pinned.directoryRename _ _ _ env kept dir target
  unfold FileSystem.renameDirectory
  grind only

theorem Pinned.readDirectory (pinned : Pinned p s) {stream : Nat} {item : Option BlockFsDirent}
    (result : s.readDirectory env stream = .ok (s', item)) : Pinned p s' := by
  have streams (t : FileSystem) (kept : Pinned p t) (streams : Map Nat DirStream) :
      Pinned p { t with dirStreams := streams } := kept.congr rfl
  have stamped (i : Nat) : Pinned p (s.modifyDirMeta i fun m =>
      { m with mtime := env.now, ctime := env.now }.sealed) := pinned.modifyDirMeta i _
  unfold FileSystem.readDirectory at result
  grind only [Except.bind_eq_ok]

end Directories

section Turning
variable [Crc32] {p : Pin} {s s' : FileSystem} {env : Env}

omit [Crc32] in
theorem tape_of_beneath (same : s'.beneath = s.beneath) : s'.tape = s.tape :=
  congrArg (fun b : Beneath =>
    { fileMetas := b.fileMetas
      journal := b.journal
      image := b.image
      parentFiles := b.parentFiles : Tape }) same

/-- A turn keeps a pin in a slot that is neither free nor of a file within reach. -/
theorem Pinned.turn (pinned : Pinned p s) (filed : Filed s) (settled : Settled s)
    (taken : p.slot ∉ s.freeFhs) (off : ∀ f, s.Accessible f → (s.files f).metaSlot ≠ p.slot)
    (turn : Turn env s s') : Pinned p s' := by
  have named {f : FilePtr} {K : Nat × Name} (entry : s.createdFiles.lookup K = some f) :
      (s.files f).metaSlot ≠ p.slot := off f (.inr ⟨K, entry⟩)
  cases turn with
  | surface same => exact pinned.congr (tape_of_beneath same)
  | created path tmpfile => exact pinned.createFile taken path tmpfile
  | truncated known result => exact pinned.ftruncate (off _ known) taken result
  | stamped => exact pinned.updateTimeStamp _ _
  | @discarded fd f opened =>
    refine pinned.unlinkFileNolock fun g found => ?_
    have known := settled.accessible (.inl ⟨fd, opened⟩)
    rw [fileMeta, filed.fhs] at found
    rw [filed.slots f known g found]
    exact off f (.inl ⟨fd, opened⟩)
  | unlinked path =>
    refine pinned.unlink fun dirname name dir f found => ?_
    exact named (findFile_ok found).2
  | renamed found target =>
    obtain ⟨_, _, _, entry⟩ := getCreatedFile_ok found
    exact pinned.fileRename (named entry) target
  | madeDirectory result => exact pinned.createDirectory result
  | droppedDirectory path => exact pinned.deleteDirectory path
  | movedDirectory source target => exact pinned.renameDirectory source target
  | readDirectory result => exact pinned.readDirectory result

end Turning

end FileSystem

end BlockFs
