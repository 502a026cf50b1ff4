import BlockFs.Calls

namespace BlockFs.FileSystem

/-- What the calls on files leave alone, whatever the state and the device do: the super block, the
directories up to the files they list, the descriptors, the link counts and the locks. -/
structure Outer where
  superMeta : SuperBlockMeta
  dirMetas : Nat → DirMeta
  freeDhs : List Nat
  dirSlots : Nat → Nat
  dirLinks : Nat → Int
  childDirMaps : Nat → Map Nat DirectoryPtr
  nextDirectory : Nat
  createdDirs : Map Name DirectoryPtr
  createdDhs : Map Nat DirectoryPtr
  openDirs : Map Nat DirectoryPtr
  dirStreams : Map Nat DirStream
  nextStream : Nat
  freeFdPool : List Int
  openFiles : Map Nat OpenFile
  links : Nat → Int
  locks : Nat → Bool
  nextFile : Nat

def outer (s : FileSystem) : Outer :=
  { superMeta := s.superMeta
    dirMetas := s.dirMetas
    freeDhs := s.freeDhs
    dirSlots := fun d => (s.directories d).metaSlot
    dirLinks := fun d => (s.directories d).nlink
    childDirMaps := fun d => (s.directories d).childDirMaps
    nextDirectory := s.nextDirectory
    createdDirs := s.createdDirs
    createdDhs := s.createdDhs
    openDirs := s.openDirs
    dirStreams := s.dirStreams
    nextStream := s.nextStream
    freeFdPool := s.freeFdPool
    openFiles := s.openFiles
    links := fun f => (s.files f).nlink
    locks := fun f => (s.files f).locked
    nextFile := s.nextFile }

section Primitives
variable [Crc32] (s : FileSystem) (env : Env) (f : FilePtr)

omit [Crc32] in
theorem errno_outer (e : Errno) : { s with errno := e }.outer = s.outer := rfl

omit [Crc32] in
theorem storeErrno_outer (e : Option Errno) : (s.storeErrno e).outer = s.outer := rfl

omit [Crc32] in
theorem disk_outer (d : Disk) : { s with disk := d }.outer = s.outer := rfl

omit [Crc32] in
theorem parentFiles_outer (m : Map Nat ParentFile) : { s with parentFiles := m }.outer = s.outer := rfl

omit [Crc32] in
theorem modifyFileMeta_outer (i : Nat) (g : FileMeta → FileMeta) :
    (s.modifyFileMeta i g).outer = s.outer := rfl

omit [Crc32] in
theorem setFileBlockMeta_outer (b : FileBlockPtr) (m : FileBlockMeta) :
    (s.setFileBlockMeta b m).outer = s.outer := rfl

omit [Crc32] in
theorem modifyFile_outer (g : File → File) (nlink : (g (s.files f)).nlink = (s.files f).nlink)
    (locked : (g (s.files f)).locked = (s.files f).locked) : (s.modifyFile f g).outer = s.outer := by
  have links : (fun h => ((s.modifyFile f g).files h).nlink) = fun h => (s.files h).nlink := by
    funext h
    exact view_update s.files f h (·.nlink) nlink
  have locks : (fun h => ((s.modifyFile f g).files h).locked) = fun h => (s.files h).locked := by
    funext h
    exact view_update s.files f h (·.locked) locked
  unfold outer
  rw [links, locks]
  rfl

omit [Crc32] in
theorem itemMaps_outer (d : DirectoryPtr) (items : Map Nat FilePtr) :
    (s.modifyDirectory d fun o => { o with itemMaps := items }).outer = s.outer := by
  have agree {α : Type} (view : Directory → α)
      (blind : ∀ o, view { o with itemMaps := items } = view o) :
      (fun e => view ((s.modifyDirectory d fun o => { o with itemMaps := items }).directories e)) =
        fun e => view (s.directories e) := by
    funext e
    exact view_update s.directories d e view (blind _)
  unfold outer
  rw [agree (·.metaSlot) fun _ => rfl, agree (·.nlink) fun _ => rfl,
    agree (·.childDirMaps) fun _ => rfl]
  rfl

omit [Crc32] in
theorem pwriteDirect_outer (w : MetaWrite) : (s.pwriteDirect env w).1.outer = s.outer := by
  unfold pwriteDirect
  split <;> rfl

theorem writeFileMeta_outer (fh : Nat) : (s.writeFileMeta env fh).1.outer = s.outer :=
  pwriteDirect_outer _ _ _

theorem writeMeta_outer : (s.writeMeta env f).1.outer = s.outer := writeFileMeta_outer _ _ _

theorem writeFileBlockMeta_outer (b : FileBlockPtr) :
    (s.writeFileBlockMeta env b).1.outer = s.outer :=
  pwriteDirect_outer _ _ _

omit [Crc32] in
theorem putFreeBlockIdLock_outer (id : Nat) : (s.putFreeBlockIdLock id).outer = s.outer := rfl

omit [Crc32] in
theorem putFreeBlockIdsLock_outer (ids : List Nat) : (s.putFreeBlockIdsLock ids).outer = s.outer := by
  induction ids generalizing s with
  | nil => rfl
  | cons id ids ih => exact (ih (s.putFreeBlockIdLock id)).trans rfl

omit [Crc32] in
theorem putFileBlockLock_outer (b : FileBlockPtr) : (s.putFileBlockLock b).outer = s.outer := rfl

theorem releaseMyself_outer (b : FileBlockPtr) : (s.releaseMyself env b).1.outer = s.outer := by
  unfold releaseMyself
  grind only [setFileBlockMeta_outer, writeFileBlockMeta_outer, putFileBlockLock_outer]

theorem releaseAll_outer (b : FileBlockPtr) : (s.releaseAll env b).1.outer = s.outer :=
  (releaseMyself_outer _ env b).trans (putFreeBlockIdsLock_outer s _)

omit [Crc32] in
theorem getFreeBlockIdLock_outer {n : Nat} {s' : FileSystem} {ids : List Nat}
    (taken : s.getFreeBlockIdLock env n = some (s', ids)) : s'.outer = s.outer := by
  unfold getFreeBlockIdLock at taken
  split at taken
  · simp at taken
  · obtain ⟨rfl, _⟩ := Prod.mk.inj (Option.some.inj taken)
    rfl

omit [Crc32] in
theorem getFileBlockLock_outer {s' : FileSystem} {b : Option FileBlockPtr}
    (taken : s.getFileBlockLock = .ok (s', b)) : s'.outer = s.outer := by
  unfold getFileBlockLock at taken
  split at taken
  · obtain ⟨rfl, _⟩ := Prod.mk.inj (Except.ok.inj taken)
    rfl
  · split at taken
    · simp at taken
    · split at taken
      · simp at taken
      · obtain ⟨rfl, _⟩ := Prod.mk.inj (Except.ok.inj taken)
        rfl

omit [Crc32] in
theorem addFileNoLock_outer : (s.addFileNoLock f).outer = s.outer := rfl

omit [Crc32] in
theorem removeFileNoLock_outer : (s.removeFileNoLock f).1.outer = s.outer := by
  unfold removeFileNoLock
  split
  · rfl
  · dsimp only
    split <;> rfl

omit [Crc32] in
theorem addChildFile_outer (d : DirectoryPtr) : (s.addChildFile d f).1.outer = s.outer := by
  unfold addChildFile
  split
  · rfl
  · exact itemMaps_outer s d _

omit [Crc32] in
theorem removeChildFile_outer (d : DirectoryPtr) : (s.removeChildFile d f).1.outer = s.outer := by
  unfold removeChildFile
  split
  · rfl
  · exact itemMaps_outer s d _

omit [Crc32] in
theorem addFileToDirectory_outer (d : DirectoryPtr) : (s.addFileToDirectory d f).outer = s.outer :=
  (addFileNoLock_outer _ f).trans (addChildFile_outer s f d)

omit [Crc32] in
theorem removeFileFromoDirectory_outer (d : DirectoryPtr) :
    (s.removeFileFromoDirectory d f).1.outer = s.outer := by
  unfold removeFileFromoDirectory
  grind only [removeChildFile_outer, removeFileNoLock_outer]

omit [Crc32] in
theorem addFileBlockNoLock_outer (b : FileBlockPtr) : (s.addFileBlockNoLock f b).1.outer = s.outer := by
  unfold addFileBlockNoLock
  split
  · rfl
  · exact modifyFile_outer s f _ rfl rfl

omit [Crc32] in
theorem newFreeFileMeta_outer (dh : Nat) (name : Name) :
    (s.newFreeFileMeta dh name).1.outer = s.outer := by
  unfold newFreeFileMeta
  split
  · rfl
  · split <;> rfl

omit [Crc32] in
theorem copyLoop_outer (src dst fuel offset len : Nat) :
    (s.copyLoop src dst fuel offset len).1.outer = s.outer := by
  induction fuel generalizing s offset len with
  | zero => rfl
  | succ fuel ih =>
    unfold copyLoop
    grind only [disk_outer]

omit [Crc32] in
theorem copyData_outer (src dst offset len : Nat) :
    (s.copyData env src dst offset len).1.outer = s.outer := by
  unfold copyData
  grind only [copyLoop_outer]

omit [Crc32] in
theorem recycleIds_outer (blockNum : Nat) (ids : List Nat) (index : Nat) :
    (recycleIds blockNum ids index s).1.outer = s.outer := by
  induction ids generalizing s index with
  | nil => rfl
  | cons id ids ih =>
    unfold recycleIds
    split
    · exact ih s (index + 1)
    · exact (ih (s.putFreeBlockIdLock id) index).trans rfl

end Primitives

section Truncation
variable [Crc32] {s s' : FileSystem} {env : Env} {f : FilePtr} {r : Int}

theorem recycleFileBlocks_outer {fbMaps : Map Nat FileBlockPtr} {blockNum fuel i index : Nat}
    (done : recycleFileBlocks env fbMaps blockNum fuel i index s = .ok s') : s'.outer = s.outer := by
  induction fuel generalizing s i index with
  | zero =>
    obtain rfl := Except.ok.inj done
    rfl
  | succ fuel ih =>
    unfold recycleFileBlocks at done
    split at done
    · simp at done
    · next b found =>
      have ids := recycleIds_outer s blockNum (s.fileBlockMetas b).ids index
      split at done
      next t index' same =>
        rw [same] at ids
        exact ((ih done).trans (releaseMyself_outer t env b)).trans ids

theorem recycle_outer {parent : ParentFile} {b : Bool}
    (done : s.recycle env parent = .ok (s', b)) : s'.outer = s.outer := by
  obtain ⟨t, blocks, rest⟩ := Except.bind_eq_ok.mp done
  have kept := recycleFileBlocks_outer blocks
  have written := writeFileMeta_outer (t.modifyFileMeta parent.metaSlot FileMeta.clear) env
    ((t.modifyFileMeta parent.metaSlot FileMeta.clear).fileMetas parent.metaSlot).fh
  dsimp only at rest
  split at rest
  · next u same =>
    obtain ⟨rfl, _⟩ := Prod.mk.inj (Except.ok.inj rest)
    rw [same] at written
    exact written.trans kept
  · next u same =>
    obtain ⟨rfl, _⟩ := Prod.mk.inj (Except.ok.inj rest)
    rw [same] at written
    exact written.trans kept

theorem removeParentFile_outer {fh : Nat} {b : Bool}
    (done : s.removeParentFile env fh = .ok (s', b)) : s'.outer = s.outer := by
  unfold removeParentFile at done
  split at done
  · obtain ⟨rfl, _⟩ := Prod.mk.inj (Except.ok.inj done)
    rfl
  · have kept := recycle_outer done
    exact kept

theorem recycleParentFh_outer {fh : Nat} (done : s.recycleParentFh env f fh = .ok (s', r)) :
    s'.outer = s.outer := by
  unfold recycleParentFh at done
  grind only [Except.bind_eq_ok, removeParentFile_outer, modifyFileMeta_outer, writeMeta_outer]

omit [Crc32] in
theorem shrinkSwitch_outer (dir : DirectoryPtr) (newFh : Nat) :
    (s.shrinkSwitch dir f newFh).outer = s.outer := by
  have removed := removeFileFromoDirectory_outer s f dir
  generalize same : (s.removeFileFromoDirectory dir f).1 = t at removed
  have moved := modifyFile_outer t f (fun o => { o with metaSlot := newFh }) rfl rfl
  have added := addFileToDirectory_outer (t.modifyFile f fun o => { o with metaSlot := newFh }) f dir
  rw [shrinkSwitch, same]
  exact (added.trans moved).trans removed

theorem shrinkPersist_outer {oldFh : Nat} {fileBlock : Option FileBlockPtr}
    (done : s.shrinkPersist env f oldFh fileBlock = .ok (s', r)) : s'.outer = s.outer := by
  unfold shrinkPersist at done
  cases fileBlock with
  | none => grind only [writeMeta_outer, writeFileMeta_outer, recycleParentFh_outer]
  | some b =>
    grind only [writeMeta_outer, writeFileBlockMeta_outer, writeFileMeta_outer, recycleParentFh_outer]

theorem shrinkCommit_outer {newFh oldSlot offset : Nat} {fileBlock : Option FileBlockPtr}
    (done : s.shrinkCommit env f newFh oldSlot offset fileBlock = .ok (s', r)) :
    s'.outer = s.outer := by
  unfold shrinkCommit at done
  dsimp only at done
  split at done
  · obtain ⟨rfl, _⟩ := Prod.mk.inj (Except.ok.inj done)
    rfl
  · next dir found =>
    have first := modifyFileMeta_outer s oldSlot fun m => { m with childFh := (s.fileMetas newFh).fh }
    generalize s.modifyFileMeta oldSlot (fun m => { m with childFh := (s.fileMetas newFh).fh }) = t
      at done first
    have switched := shrinkSwitch_outer (s := t) (f := f) dir newFh
    generalize t.shrinkSwitch dir f newFh = u at done switched
    have emptied := modifyFile_outer u f (fun o => { o with itemMaps := ∅ }) rfl rfl
    generalize u.modifyFile f (fun o => { o with itemMaps := ∅ }) = v at done emptied
    have before : v.outer = s.outer := (emptied.trans switched).trans first
    cases fileBlock with
    | none =>
      grind only [parentFiles_outer, modifyFileMeta_outer, shrinkPersist_outer]
    | some b =>
      grind only [parentFiles_outer, addFileBlockNoLock_outer, modifyFileMeta_outer, shrinkPersist_outer]

omit [Crc32] in
theorem shrinkFileBlock_outer {newFh offset : Nat} {result : Option (Option FileBlockPtr)}
    (done : s.shrinkFileBlock env f newFh offset = .ok (s', result)) : s'.outer = s.outer := by
  unfold shrinkFileBlock at done
  dsimp only at done
  split at done
  · obtain ⟨rfl, _⟩ := Prod.mk.inj (Except.ok.inj done)
    rfl
  · obtain ⟨⟨t, taken⟩, first, rest⟩ := Except.bind_eq_ok.mp done
    have kept := getFileBlockLock_outer s first
    cases taken with
    | none =>
      obtain ⟨rfl, _⟩ := Prod.mk.inj (Except.ok.inj rest)
      exact kept
    | some b =>
      dsimp only at rest
      grind only [setFileBlockMeta_outer, getFreeBlockIdLock_outer, copyData_outer]

theorem shrinkFile_outer {offset : Nat} (done : s.shrinkFile env f offset = .ok (s', r)) :
    s'.outer = s.outer := by
  have taken := newFreeFileMeta_outer s (s.fileMeta f).dh (s.fileMeta f).fileName
  unfold shrinkFile at done
  split at done
  · next t same =>
    rw [same] at taken
    obtain ⟨rfl, _⟩ := Prod.mk.inj (Except.ok.inj done)
    exact taken
  · next t newFh same =>
    rw [same] at taken
    obtain ⟨⟨u, result⟩, blocks, rest⟩ := Except.bind_eq_ok.mp done
    have kept := shrinkFileBlock_outer blocks
    rw [modifyFileMeta_outer] at kept
    cases result with
    | none =>
      obtain ⟨rfl, _⟩ := Prod.mk.inj (Except.ok.inj rest)
      exact kept.trans taken
    | some fileBlock => exact ((shrinkCommit_outer rest).trans kept).trans taken

theorem extendBlocks_outer {offset needed : Nat} {b : FileBlockPtr} {isNew : Bool} :
    (s.extendBlocks env f offset needed b isNew).1.outer = s.outer := by
  unfold extendBlocks
  grind only [putFileBlockLock_outer, getFreeBlockIdLock_outer, setFileBlockMeta_outer,
    writeFileBlockMeta_outer, addFileBlockNoLock_outer, modifyFileMeta_outer, writeMeta_outer]

theorem extendFile_outer {offset : Nat} (done : s.extendFile env f offset = .ok (s', r)) :
    s'.outer = s.outer := by
  unfold extendFile at done
  grind only [Except.bind_eq_ok, getFileBlockLock_outer, extendBlocks_outer]

theorem ftruncate_outer {offset : Nat} (done : s.ftruncate env f offset = .ok (s', r)) :
    s'.outer = s.outer := by
  unfold ftruncate at done
  split at done
  · exact extendFile_outer done
  · split at done
    · exact shrinkFile_outer done
    · obtain ⟨rfl, _⟩ := Prod.mk.inj (Except.ok.inj done)
      rfl

end Truncation

section Files
variable [Crc32] {s s' : FileSystem} {env : Env} {f : FilePtr} {r : Int}

theorem updateTimeStamp_outer (now : Int) : (s.updateTimeStamp f now).outer = s.outer := rfl

theorem enterRenamed_outer (newDir : DirectoryPtr) (target : Name) :
    (s.enterRenamed env f newDir target).1.outer = s.outer := by
  unfold enterRenamed
  grind only [modifyFileMeta_outer, updateTimeStamp_outer, addFileNoLock_outer, addChildFile_outer,
    writeMeta_outer]

theorem fileRename_outer (target : Name) : (s.fileRename env f target).1.outer = s.outer := by
  unfold fileRename
  grind only [storeErrno_outer, removeChildFile_outer, removeFileNoLock_outer, enterRenamed_outer]

theorem releaseEntries_outer (bs : List FileBlockPtr) (s : FileSystem) :
    (releaseEntries env bs s).1.outer = s.outer := by
  induction bs generalizing s with
  | nil => rfl
  | cons b bs ih =>
    unfold releaseEntries
    grind only [releaseAll_outer]

theorem removeAllFileBlock_outer : (s.removeAllFileBlock env f).1.outer = s.outer := by
  have released := @releaseEntries_outer _ env ((s.files f).itemMaps.entries.map (·.2)) s
  unfold removeAllFileBlock
  split
  · next t same =>
    rw [same] at released
    exact released
  · next t same =>
    rw [same] at released
    exact (modifyFile_outer t f (fun o => { o with itemMaps := ∅ }) rfl rfl).trans released

theorem release_outer : (s.release env f).1.outer = s.outer := writeMeta_outer _ _ _

theorem unlinkFileNolock_outer (fh : Nat) : (s.unlinkFileNolock env fh).1.outer = s.outer := by
  unfold unlinkFileNolock
  grind only [errno_outer, modifyFileMeta_outer, removeAllFileBlock_outer, release_outer,
    removeFileFromoDirectory_outer]

omit [Crc32] in
theorem deleted_outer : (s.modifyFile f fun o => { o with deleted := true }).outer = s.outer :=
  modifyFile_outer s f _ rfl rfl

theorem unlink_outer (path : Name) : (s.unlink env path).1.outer = s.outer := by
  unfold unlink
  split
  · rfl
  · next e absent =>
    have stored := storeErrno_outer s e
    generalize s.storeErrno e = t at stored ⊢
    dsimp only
    split
    · exact stored
    · split
      · exact stored
      · split
        · exact deleted_outer.trans stored
        · grind only [errno_outer, removeAllFileBlock_outer, release_outer,
            removeFileFromoDirectory_outer]

theorem closeLast_outer : (s.closeLast env f).outer = s.outer := by
  unfold closeLast
  grind only [unlinkFileNolock_outer]

end Files

/-- The frame after a file is made. -/
def Outer.created (o : Outer) : Outer :=
  { o with
    links := fun g => if g = o.nextFile then 0 else o.links g
    locks := fun g => if g = o.nextFile then false else o.locks g
    nextFile := o.nextFile + 1 }

section Making
variable [Crc32] {s : FileSystem} {env : Env}

omit [Crc32] in
theorem newFreeFile_outer (dh : Nat) (nameOf : Nat → Name) (isTemp : Bool) :
    ((s.newFreeFile dh nameOf isTemp).2 = none ∧
      (s.newFreeFile dh nameOf isTemp).1.outer = s.outer) ∨
    ((s.newFreeFile dh nameOf isTemp).2 = some s.nextFile ∧
      (s.newFreeFile dh nameOf isTemp).1.outer = s.outer.created) := by
  unfold newFreeFile
  split
  · exact .inl ⟨rfl, rfl⟩
  · split
    · exact .inl ⟨rfl, rfl⟩
    · next fh rest _ _ =>
      refine .inr ⟨rfl, ?_⟩
      have links : (fun g => (Function.update s.files s.nextFile
          { metaSlot := fh, nlink := 0, locked := false, deleted := false, itemMaps := ∅ } g).nlink) =
          fun g => if g = s.nextFile then 0 else (s.files g).nlink := by
        funext g
        rw [Function.update_apply]
        split <;> rfl
      have locks : (fun g => (Function.update s.files s.nextFile
          { metaSlot := fh, nlink := 0, locked := false, deleted := false, itemMaps := ∅ } g).locked) =
          fun g => if g = s.nextFile then false else (s.files g).locked := by
        funext g
        rw [Function.update_apply]
        split <;> rfl
      unfold outer Outer.created
      dsimp only [modifyFileMeta]
      rw [links, locks]

omit [Crc32] in
theorem newFile_outer (dirname filename : Name) (tmpfile : Bool) :
    ((s.newFile env dirname filename tmpfile).2 = none ∧
      (s.newFile env dirname filename tmpfile).1.outer = s.outer) ∨
    ((s.newFile env dirname filename tmpfile).2.map (·.2) = some s.nextFile ∧
      (s.newFile env dirname filename tmpfile).1.outer = s.outer.created) := by
  unfold newFile
  split
  · exact .inl ⟨rfl, rfl⟩
  · next dir _ =>
    dsimp only
    split
    · exact .inl ⟨rfl, rfl⟩
    · have taken : ((if tmpfile then s.newFreeTmpFileNolock (s.dirMeta dir).dh
            else s.newFreeFileNolock (s.dirMeta dir).dh filename).2 = none ∧
          (if tmpfile then s.newFreeTmpFileNolock (s.dirMeta dir).dh
            else s.newFreeFileNolock (s.dirMeta dir).dh filename).1.outer = s.outer) ∨
          ((if tmpfile then s.newFreeTmpFileNolock (s.dirMeta dir).dh
            else s.newFreeFileNolock (s.dirMeta dir).dh filename).2 = some s.nextFile ∧
          (if tmpfile then s.newFreeTmpFileNolock (s.dirMeta dir).dh
            else s.newFreeFileNolock (s.dirMeta dir).dh filename).1.outer =
              s.outer.created) := by
        split
        · exact newFreeFile_outer _ _ _
        · exact newFreeFile_outer _ _ _
      split
      · next t same =>
        rw [same] at taken
        exact .inl ⟨rfl, (taken.resolve_right fun made => by simp at made).2⟩
      · next t f same =>
        rw [same] at taken
        obtain ⟨made, kept⟩ := taken.resolve_left fun none => by simp at none
        exact .inr ⟨made, kept⟩

/-- A file that is created takes the next pointer; no descriptor moves. -/
theorem createFileIn_outer (dirname filename : Name) (tmpfile : Bool) :
    ((s.createFileIn env dirname filename tmpfile).2 = none ∧
      (s.createFileIn env dirname filename tmpfile).1.outer = s.outer) ∨
    (((s.createFileIn env dirname filename tmpfile).2 = none ∨
        (s.createFileIn env dirname filename tmpfile).2 = some s.nextFile) ∧
      (s.createFileIn env dirname filename tmpfile).1.outer = s.outer.created) := by
  have made := @newFile_outer s env dirname filename tmpfile
  unfold createFileIn
  split
  · next t same =>
    rw [same] at made
    exact .inl ⟨rfl, (made.resolve_right fun made => by simp at made).2⟩
  · next t parentDir f same =>
    rw [same] at made
    obtain ⟨made, kept⟩ := made.resolve_left fun none => by simp at none
    have written := writeMeta_outer t env f
    split
    · next u same' =>
      rw [same'] at written
      exact .inr ⟨.inl rfl, written.trans kept⟩
    · next u same' =>
      rw [same'] at written
      have added := addFileToDirectory_outer u f parentDir
      exact .inr ⟨.inr made, added.trans (written.trans kept)⟩

theorem createFile_outer (filename : Name) (tmpfile : Bool) :
    ((s.createFile env filename tmpfile).2 = none ∧
      (s.createFile env filename tmpfile).1.outer = s.outer) ∨
    (((s.createFile env filename tmpfile).2 = none ∨
        (s.createFile env filename tmpfile).2 = some s.nextFile) ∧
      (s.createFile env filename tmpfile).1.outer = s.outer.created) := by
  unfold createFile
  split
  · exact createFileIn_outer filename [] true
  · split
    · exact .inl ⟨rfl, rfl⟩
    · exact createFileIn_outer _ _ false

end Making

/-- What the first half of an open does, up to `errno`: it stops or takes the file that is there as
it is, creates a file, or cuts the file that is there to length 0. -/
inductive Targeted [Crc32] (s : FileSystem) (env : Env) (path : Name) :
    FileSystem → Option FilePtr → Prop
  | refused (e : Errno) : Targeted s env path { s with errno := e } none
  | taken (e : Errno) {f} (found : s.getCreatedFile path = .ok f) :
    Targeted s env path { s with errno := e } (some f)
  | created (e : Errno) {tmpfile u target}
    (result : { s with errno := e }.createFile env path tmpfile = (u, target)) :
    Targeted s env path u target
  | truncated (e : Errno) {f u r} (found : s.getCreatedFile path = .ok f)
    (result : { s with errno := e }.ftruncate env f 0 = .ok (u, r)) :
    Targeted s env path u (if r < 0 then none else some f)

theorem openTarget_targeted [Crc32] {s u : FileSystem} {env : Env} {path : Name} {flags : Nat}
    {target : Option FilePtr} (result : s.openTarget env path flags = .ok (u, target)) :
    Targeted s env path u target := by
  have errno (t : FileSystem) (e : Errno) (same : t = { s with errno := e }) {u target}
      (here : (Except.ok (t, none) : Except Fault _) = .ok (u, target)) : Targeted s env path u target := by
    obtain ⟨rfl, rfl⟩ := Prod.mk.inj (Except.ok.inj here)
    exact same ▸ .refused e
  unfold openTarget at result
  dsimp only [storeErrno] at result
  split at result
  · exact .created _ (Except.ok.inj result)
  · cases directory : { s with errno := (isNeedCreateTempFile flags).1.getD s.errno }.getCreatedDirectory
        path with
    | ok dir =>
      rw [directory] at result
      exact errno _ EISDIR rfl result
    | error e' =>
      rw [directory] at result
      dsimp only at result
      generalize e'.getD ((isNeedCreateTempFile flags).1.getD s.errno) = e at result
      have same : { s with errno := e }.getCreatedFile path = s.getCreatedFile path := rfl
      rw [same] at result
      cases found : s.getCreatedFile path with
      | error e'' =>
        rw [found] at result
        dsimp only at result
        split at result
        · exact .created _ (Except.ok.inj result)
        · exact errno _ ENOENT rfl result
      | ok f =>
        rw [found] at result
        dsimp only at result
        split at result
        · next e'' _ => exact errno _ e'' rfl result
        · split at result
          · obtain ⟨⟨v, r⟩, cut, rest⟩ := Except.bind_eq_ok.mp result
            have ended := Targeted.truncated e found cut
            dsimp only at rest
            split at rest
            · next failed =>
              obtain ⟨rfl, rfl⟩ := Prod.mk.inj (Except.ok.inj rest)
              rwa [if_pos failed] at ended
            · next done =>
              obtain ⟨rfl, rfl⟩ := Prod.mk.inj (Except.ok.inj rest)
              rwa [if_neg done] at ended
          · obtain ⟨rfl, rfl⟩ := Prod.mk.inj (Except.ok.inj result)
            exact .taken e found

/-- What a read leaves behind: the open file may have moved. -/
theorem pread_cases {s s' : FileSystem} {fd size offset : Nat} {o : OpenFile}
    {buffer back : Nat → UInt8} {r : Int}
    (result : s.pread fd o buffer size offset = .ok (s', back, r)) :
    s' = s ∨ ∃ ret, s' = s.advance fd o ret := by
  unfold pread readData at result
  dsimp only at result
  split at result
  · obtain ⟨rfl, _⟩ := Prod.mk.inj (Except.ok.inj result)
    exact .inl rfl
  · split at result
    · obtain ⟨rfl, _⟩ := Prod.mk.inj (Except.ok.inj result)
      exact .inl rfl
    · obtain ⟨blocks, _, rest⟩ := Except.bind_eq_ok.mp result
      obtain ⟨⟨filled, moved⟩, _, rest⟩ := Except.bind_eq_ok.mp rest
      obtain ⟨rfl, _⟩ := Prod.mk.inj (Except.ok.inj rest)
      exact .inr ⟨moved, rfl⟩

/-- What a write leaves behind: nothing new, a growth that failed, or, on top of a growth where one
was needed, new times, bytes on the device and a moved open file. -/
inductive Written [Crc32] (s : FileSystem) (env : Env) (fd : Nat) (o : OpenFile) : FileSystem → Prop
  | kept : Written s env fd o s
  | failed {n u r} (grown : s.ftruncate env o.file n = .ok (u, r)) : Written s env fd o u
  | written {u} (grown : u = s ∨ ∃ n r, s.ftruncate env o.file n = .ok (u, r)) (data : Nat → UInt8)
    (ret : Int) : Written s env fd o (((u.stamped env o.file).stored data).advance fd o ret)

theorem pwrite_written [Crc32] {s s' : FileSystem} {env : Env} {fd size offset : Nat} {o : OpenFile}
    {buffer : Nat → UInt8} {r : Int}
    (result : s.pwrite env fd o buffer size offset = .ok (s', r)) : Written s env fd o s' := by
  have wrote (u : FileSystem) (grown : u = s ∨ ∃ n r, s.ftruncate env o.file n = .ok (u, r))
      (rest : (u.stamped env o.file).writeData fd o buffer size offset = .ok (s', r)) :
      Written s env fd o s' := by
    unfold writeData at rest
    split at rest
    · simp at rest
    · obtain ⟨blocks, _, rest⟩ := Except.bind_eq_ok.mp rest
      obtain ⟨⟨disk, moved⟩, transfer, rest⟩ := Except.bind_eq_ok.mp rest
      obtain ⟨rfl, _⟩ := Prod.mk.inj (Except.ok.inj rest)
      obtain ⟨data, rfl⟩ := writeBlocks_data transfer
      exact .written grown data moved
  unfold pwrite at result
  split at result
  · obtain ⟨rfl, _⟩ := Prod.mk.inj (Except.ok.inj result)
    exact .kept
  · dsimp only at result
    by_cases grows : (s.fileMeta o.file).size < (offset + size) % 2 ^ 64
    · rw [if_pos grows] at result
      obtain ⟨⟨u, ret⟩, first, rest⟩ := Except.bind_eq_ok.mp result
      dsimp only at rest
      split at rest
      · obtain ⟨rfl, _⟩ := Prod.mk.inj (Except.ok.inj rest)
        exact .failed first
      · exact wrote u (.inr ⟨_, ret, first⟩) rest
    · rw [if_neg grows] at result
      exact wrote s (.inl rfl) result

end BlockFs.FileSystem
