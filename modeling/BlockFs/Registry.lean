import BlockFs.Frames

namespace BlockFs.FileSystem

/-- Where the files are entered: the slots they have, the handle, directory and name in each slot,
both indices and the item maps. -/
structure Registry where
  nextFile : Nat
  metaSlots : FilePtr → Nat
  fhs : Nat → Nat
  tags : Nat → Nat × Name
  createdFiles : Map (Nat × Name) FilePtr
  createdFhs : Map Nat FilePtr
  nextDirectory : Nat
  homes : DirectoryPtr → Nat
  items : DirectoryPtr → Map Nat FilePtr
  createdDhs : Map Nat DirectoryPtr

def registry (s : FileSystem) : Registry :=
  { nextFile := s.nextFile
    metaSlots := fun f => (s.files f).metaSlot
    fhs := fun i => (s.fileMetas i).fh
    tags := fun i => ((s.fileMetas i).dh, (s.fileMetas i).fileName)
    createdFiles := s.createdFiles
    createdFhs := s.createdFhs
    nextDirectory := s.nextDirectory
    homes := fun d => (s.directories d).metaSlot
    items := fun d => (s.directories d).itemMaps
    createdDhs := s.createdDhs }

section Views
variable [Crc32] (s : FileSystem) (env : Env) (f : FilePtr)

omit [Crc32] in
theorem errno_registry (e : Errno) : { s with errno := e }.registry = s.registry := rfl

omit [Crc32] in
theorem storeErrno_registry (e : Option Errno) : (s.storeErrno e).registry = s.registry := rfl

omit [Crc32] in
theorem disk_registry (d : Disk) : { s with disk := d }.registry = s.registry := rfl

omit [Crc32] in
theorem parentFiles_registry (m : Map Nat ParentFile) :
    { s with parentFiles := m }.registry = s.registry := rfl

omit [Crc32] in
theorem freeFhs_registry (fhs : List Nat) : { s with freeFhs := fhs }.registry = s.registry := rfl

omit [Crc32] in
theorem setFileBlockMeta_registry (b : FileBlockPtr) (m : FileBlockMeta) :
    (s.setFileBlockMeta b m).registry = s.registry := rfl

omit [Crc32] in
/-- A slot that keeps its handle, its directory and its name. -/
theorem modifyFileMeta_registry (i : Nat) (g : FileMeta → FileMeta)
    (fh : (g (s.fileMetas i)).fh = (s.fileMetas i).fh) (dh : (g (s.fileMetas i)).dh = (s.fileMetas i).dh)
    (fileName : (g (s.fileMetas i)).fileName = (s.fileMetas i).fileName) :
    (s.modifyFileMeta i g).registry = s.registry := by
  have tags : (fun j => (((s.modifyFileMeta i g).fileMetas j).dh,
      ((s.modifyFileMeta i g).fileMetas j).fileName)) =
      fun j => ((s.fileMetas j).dh, (s.fileMetas j).fileName) := by
    funext j
    exact view_update s.fileMetas i j (fun m => (m.dh, m.fileName)) (Prod.ext dh fileName)
  have fhs : (fun j => ((s.modifyFileMeta i g).fileMetas j).fh) = fun j => (s.fileMetas j).fh := by
    funext j
    exact view_update s.fileMetas i j (·.fh) fh
  unfold registry
  rw [tags, fhs]
  rfl

omit [Crc32] in
theorem modifyFile_registry (g : File → File) (metaSlot : (g (s.files f)).metaSlot = (s.files f).metaSlot) :
    (s.modifyFile f g).registry = s.registry := by
  have slots : (fun h => ((s.modifyFile f g).files h).metaSlot) = fun h => (s.files h).metaSlot := by
    funext h
    exact view_update s.files f h (·.metaSlot) metaSlot
  unfold registry
  rw [slots]
  rfl

omit [Crc32] in
theorem pwriteDirect_registry (w : MetaWrite) : (s.pwriteDirect env w).1.registry = s.registry := by
  unfold pwriteDirect
  split <;> rfl

theorem writeFileMeta_registry (fh : Nat) : (s.writeFileMeta env fh).1.registry = s.registry := by
  have sealed := modifyFileMeta_registry s fh FileMeta.sealed rfl rfl rfl
  exact (pwriteDirect_registry (s.modifyFileMeta fh FileMeta.sealed) env _).trans sealed

theorem writeMeta_registry : (s.writeMeta env f).1.registry = s.registry := writeFileMeta_registry _ _ _

theorem writeFileBlockMeta_registry (b : FileBlockPtr) :
    (s.writeFileBlockMeta env b).1.registry = s.registry :=
  pwriteDirect_registry _ _ _

omit [Crc32] in
theorem putFreeBlockIdsLock_registry (ids : List Nat) :
    (s.putFreeBlockIdsLock ids).registry = s.registry := by
  induction ids generalizing s with
  | nil => rfl
  | cons id ids ih => exact (ih (s.putFreeBlockIdLock id)).trans rfl

omit [Crc32] in
theorem putFileBlockLock_registry (b : FileBlockPtr) :
    (s.putFileBlockLock b).registry = s.registry := rfl

theorem releaseMyself_registry (b : FileBlockPtr) :
    (s.releaseMyself env b).1.registry = s.registry := by
  unfold releaseMyself
  grind only [setFileBlockMeta_registry, writeFileBlockMeta_registry, putFileBlockLock_registry]

theorem releaseAll_registry (b : FileBlockPtr) : (s.releaseAll env b).1.registry = s.registry :=
  (releaseMyself_registry _ env b).trans (putFreeBlockIdsLock_registry s _)

omit [Crc32] in
theorem getFreeBlockIdLock_registry {n : Nat} {s' : FileSystem} {ids : List Nat}
    (taken : s.getFreeBlockIdLock env n = some (s', ids)) : s'.registry = s.registry := by
  unfold getFreeBlockIdLock at taken
  split at taken
  · simp at taken
  · obtain ⟨rfl, _⟩ := Prod.mk.inj (Option.some.inj taken)
    rfl

omit [Crc32] in
theorem getFileBlockLock_registry {s' : FileSystem} {b : Option FileBlockPtr}
    (taken : s.getFileBlockLock = .ok (s', b)) : s'.registry = s.registry := by
  unfold getFileBlockLock at taken
  split at taken
  · obtain ⟨rfl, _⟩ := Prod.mk.inj (Except.ok.inj taken)
    rfl
  · split at taken
    · simp at taken
    · split at taken
      · simp at taken
      · obtain ⟨rfl, _⟩ := Prod.mk.inj (Except.ok.inj taken)
        rfl

omit [Crc32] in
theorem addFileBlockNoLock_registry (b : FileBlockPtr) :
    (s.addFileBlockNoLock f b).1.registry = s.registry := by
  unfold addFileBlockNoLock
  split
  · rfl
  · exact modifyFile_registry s f _ rfl

omit [Crc32] in
theorem copyLoop_registry (src dst fuel offset len : Nat) :
    (s.copyLoop src dst fuel offset len).1.registry = s.registry := by
  induction fuel generalizing s offset len with
  | zero => rfl
  | succ fuel ih =>
    unfold copyLoop
    grind only [disk_registry]

omit [Crc32] in
theorem copyData_registry (src dst offset len : Nat) :
    (s.copyData env src dst offset len).1.registry = s.registry := by
  unfold copyData
  grind only [copyLoop_registry]

omit [Crc32] in
theorem recycleIds_registry (blockNum : Nat) (ids : List Nat) (index : Nat) :
    (recycleIds blockNum ids index s).1.registry = s.registry := by
  induction ids generalizing s index with
  | nil => rfl
  | cons id ids ih =>
    unfold recycleIds
    split
    · exact ih s (index + 1)
    · exact (ih (s.putFreeBlockIdLock id) index).trans rfl

end Views

section Truncation
variable [Crc32] {s s' : FileSystem} {env : Env} {f : FilePtr} {r : Int}

theorem recycleFileBlocks_registry {fbMaps : Map Nat FileBlockPtr} {blockNum fuel i index : Nat}
    (done : recycleFileBlocks env fbMaps blockNum fuel i index s = .ok s') : s'.registry = s.registry := by
  induction fuel generalizing s i index with
  | zero =>
    obtain rfl := Except.ok.inj done
    rfl
  | succ fuel ih =>
    unfold recycleFileBlocks at done
    split at done
    · simp at done
    · next b found =>
      have ids := recycleIds_registry s blockNum (s.fileBlockMetas b).ids index
      split at done
      next t index' same =>
        rw [same] at ids
        exact ((ih done).trans (releaseMyself_registry t env b)).trans ids

theorem recycle_registry {parent : ParentFile} {b : Bool}
    (done : s.recycle env parent = .ok (s', b)) : s'.registry = s.registry := by
  obtain ⟨t, blocks, rest⟩ := Except.bind_eq_ok.mp done
  have kept := recycleFileBlocks_registry blocks
  have cleared := modifyFileMeta_registry t parent.metaSlot FileMeta.clear rfl rfl rfl
  have written := writeFileMeta_registry (t.modifyFileMeta parent.metaSlot FileMeta.clear) env
    ((t.modifyFileMeta parent.metaSlot FileMeta.clear).fileMetas parent.metaSlot).fh
  dsimp only at rest
  split at rest
  · next u same =>
    obtain ⟨rfl, _⟩ := Prod.mk.inj (Except.ok.inj rest)
    rw [same] at written
    exact (written.trans cleared).trans kept
  · next u same =>
    obtain ⟨rfl, _⟩ := Prod.mk.inj (Except.ok.inj rest)
    rw [same] at written
    exact (written.trans cleared).trans kept

theorem removeParentFile_registry {fh : Nat} {b : Bool}
    (done : s.removeParentFile env fh = .ok (s', b)) : s'.registry = s.registry := by
  unfold removeParentFile at done
  split at done
  · obtain ⟨rfl, _⟩ := Prod.mk.inj (Except.ok.inj done)
    rfl
  · have kept := recycle_registry done
    exact kept

theorem recycleParentFh_registry {fh : Nat} (done : s.recycleParentFh env f fh = .ok (s', r)) :
    s'.registry = s.registry := by
  unfold recycleParentFh at done
  grind only [Except.bind_eq_ok, removeParentFile_registry, modifyFileMeta_registry, writeMeta_registry]

theorem shrinkPersist_registry {oldFh : Nat} {fileBlock : Option FileBlockPtr}
    (done : s.shrinkPersist env f oldFh fileBlock = .ok (s', r)) : s'.registry = s.registry := by
  unfold shrinkPersist at done
  cases fileBlock with
  | none => grind only [writeMeta_registry, writeFileMeta_registry, recycleParentFh_registry]
  | some b =>
    grind only [writeMeta_registry, writeFileBlockMeta_registry, writeFileMeta_registry,
      recycleParentFh_registry]

omit [Crc32] in
theorem shrinkFileBlock_registry {newFh offset : Nat} {result : Option (Option FileBlockPtr)}
    (done : s.shrinkFileBlock env f newFh offset = .ok (s', result)) : s'.registry = s.registry := by
  unfold shrinkFileBlock at done
  dsimp only at done
  split at done
  · obtain ⟨rfl, _⟩ := Prod.mk.inj (Except.ok.inj done)
    rfl
  · obtain ⟨⟨t, taken⟩, first, rest⟩ := Except.bind_eq_ok.mp done
    have kept := getFileBlockLock_registry s first
    cases taken with
    | none =>
      obtain ⟨rfl, _⟩ := Prod.mk.inj (Except.ok.inj rest)
      exact kept
    | some b =>
      dsimp only at rest
      grind only [setFileBlockMeta_registry, getFreeBlockIdLock_registry, copyData_registry]

/-- The slot `w` with the directory and the name of the file `f`. -/
def childSlot (s : FileSystem) (f : FilePtr) (w : Nat) : FileSystem :=
  s.modifyFileMeta w fun m =>
    { m with used := true, fh := w, dh := (s.fileMeta f).dh, fileName := (s.fileMeta f).fileName }

omit [Crc32] in
theorem newFreeFileMeta_cases (s : FileSystem) (f : FilePtr) :
    (∃ e, s.newFreeFileMeta (s.fileMeta f).dh (s.fileMeta f).fileName = ({ s with errno := e }, none)) ∨
    ∃ w rest, s.freeFhs = w :: rest ∧ (s.fileMetas w).fh = w ∧
      s.newFreeFileMeta (s.fileMeta f).dh (s.fileMeta f).fileName =
        ({ s.childSlot f w with freeFhs := rest }, some w) := by
  unfold newFreeFileMeta
  cases free : s.freeFhs with
  | nil => exact .inl ⟨ENFILE, rfl⟩
  | cons w rest =>
    dsimp only
    split
    · exact .inl ⟨EINVAL, rfl⟩
    · next clean =>
      have handle : (s.fileMetas w).fh = w := by
        by_contra other
        exact clean (.inr (.inl other))
      exact .inr ⟨w, rest, rfl, handle, rfl⟩

/-- The last steps of a shrink leave the file entered as the switch has entered it. -/
theorem shrinkCommit_registry {newFh oldSlot offset : Nat} {fileBlock : Option FileBlockPtr}
    (done : s.shrinkCommit env f newFh oldSlot offset fileBlock = .ok (s', r)) :
    (r = -1 ∧ s'.registry = s.registry) ∨ ∃ (t : FileSystem) (dir : DirectoryPtr), t.registry = s.registry ∧
      t.outer = s.outer ∧
      t.createdDhs.lookup (t.fileMeta f).dh = some dir ∧
      s'.registry = (t.shrinkSwitch dir f newFh).registry := by
  have marked := modifyFileMeta_registry s oldSlot
    (fun m => { m with childFh := (s.fileMetas newFh).fh }) rfl rfl rfl
  have framed := modifyFileMeta_outer s oldSlot fun m => { m with childFh := (s.fileMetas newFh).fh }
  unfold shrinkCommit at done
  dsimp only at done
  split at done
  · obtain ⟨rfl, failed⟩ := Prod.mk.inj (Except.ok.inj done)
    exact .inl ⟨failed.symm, marked⟩
  · next dir found =>
    refine .inr ⟨_, dir, marked, framed, found, ?_⟩
    generalize s.modifyFileMeta oldSlot (fun m => { m with childFh := (s.fileMetas newFh).fh }) = t
      at done
    generalize t.shrinkSwitch dir f newFh = u at done ⊢
    have emptied := modifyFile_registry u f (fun o => { o with itemMaps := ∅ }) rfl
    generalize u.modifyFile f (fun o => { o with itemMaps := ∅ }) = v at done emptied
    clear marked framed found
    cases fileBlock with
    | none => grind only [parentFiles_registry, modifyFileMeta_registry, shrinkPersist_registry]
    | some b =>
      grind only [parentFiles_registry, addFileBlockNoLock_registry, modifyFileMeta_registry,
        shrinkPersist_registry]

omit [Crc32] in
theorem tag_of_registry (same : s'.registry = s.registry) (i : Nat) :
    (s'.fileMetas i).dh = (s.fileMetas i).dh ∧ (s'.fileMetas i).fileName = (s.fileMetas i).fileName :=
  Prod.mk.inj (congrFun (congrArg Registry.tags same) i)

omit [Crc32] in
theorem fileMeta_dh_of_registry (same : s'.registry = s.registry) (f : FilePtr) :
    (s'.fileMeta f).dh = (s.fileMeta f).dh := by
  have slot : (s'.files f).metaSlot = (s.files f).metaSlot :=
    congrFun (congrArg Registry.metaSlots same) f
  rw [fileMeta, fileMeta, slot]
  exact (tag_of_registry same _).1

/-- A shrink fails and leaves the entries alone or takes a slot for nothing, or it switches the file to
the slot. -/
theorem shrinkFile_registry {offset : Nat} (done : s.shrinkFile env f offset = .ok (s', r)) :
    (r = -1 ∧ s'.registry = s.registry) ∨
      ∃ w rest, s.freeFhs = w :: rest ∧ (s.fileMetas w).fh = w ∧
      ((r = -1 ∧ s'.registry = (s.childSlot f w).registry) ∨
        ∃ (t : FileSystem) (dir : DirectoryPtr), t.registry = (s.childSlot f w).registry ∧
          t.outer = s.outer ∧ t.createdDhs.lookup (t.fileMeta f).dh = some dir ∧
          s'.registry = (t.shrinkSwitch dir f w).registry) := by
  unfold shrinkFile at done
  rcases newFreeFileMeta_cases s f with ⟨e, refused⟩ | ⟨w, rest, listed, handle, taken⟩
  · rw [refused] at done
    obtain ⟨rfl, failed⟩ := Prod.mk.inj (Except.ok.inj done)
    exact .inl ⟨failed.symm, rfl⟩
  · rw [taken] at done
    obtain ⟨⟨u, fileBlock⟩, blocks, commit⟩ := Except.bind_eq_ok.mp done
    have same := (shrinkFileBlock_registry blocks).trans (modifyFileMeta_registry _ _ _ rfl rfl rfl)
    have outer := shrinkFileBlock_outer blocks
    refine .inr ⟨w, rest, listed, handle, ?_⟩
    cases fileBlock with
    | none =>
      obtain ⟨rfl, failed⟩ := Prod.mk.inj (Except.ok.inj commit)
      exact .inl ⟨failed.symm, same⟩
    | some fileBlock =>
      rcases shrinkCommit_registry commit with ⟨failed, kept⟩ | ⟨t, dir, before, framed, found, ended⟩
      · exact .inl ⟨failed, kept.trans same⟩
      · exact .inr ⟨t, dir, before.trans same, framed.trans outer, found, ended⟩

theorem extendBlocks_registry {offset needed : Nat} {b : FileBlockPtr} {isNew : Bool} :
    (s.extendBlocks env f offset needed b isNew).1.registry = s.registry := by
  unfold extendBlocks
  grind only [putFileBlockLock_registry, getFreeBlockIdLock_registry, setFileBlockMeta_registry,
    writeFileBlockMeta_registry, addFileBlockNoLock_registry, modifyFileMeta_registry, writeMeta_registry]

theorem extendFile_registry {offset : Nat} (done : s.extendFile env f offset = .ok (s', r)) :
    s'.registry = s.registry := by
  unfold extendFile at done
  grind only [Except.bind_eq_ok, getFileBlockLock_registry, extendBlocks_registry]

theorem updateTimeStamp_registry (now : Int) : (s.updateTimeStamp f now).registry = s.registry :=
  modifyFileMeta_registry s _ _ rfl rfl rfl

theorem releaseEntries_registry (bs : List FileBlockPtr) (s : FileSystem) :
    (releaseEntries env bs s).1.registry = s.registry := by
  induction bs generalizing s with
  | nil => rfl
  | cons b bs ih =>
    unfold releaseEntries
    grind only [releaseAll_registry]

theorem removeAllFileBlock_registry : (s.removeAllFileBlock env f).1.registry = s.registry := by
  have released := @releaseEntries_registry _ env ((s.files f).itemMaps.entries.map (·.2)) s
  unfold removeAllFileBlock
  split
  · next t same =>
    rw [same] at released
    exact released
  · next t same =>
    rw [same] at released
    exact (modifyFile_registry t f (fun o => { o with itemMaps := ∅ }) rfl).trans released

theorem release_registry : (s.release env f).1.registry = s.registry :=
  (writeMeta_registry _ _ _).trans (modifyFileMeta_registry s _ FileMeta.clear rfl rfl rfl)

/-- A deletion behind the last close leaves the entries alone or takes the file out of them. -/
theorem unlinkFileNolock_registry (fh : Nat) :
    (s.unlinkFileNolock env fh).1.registry = s.registry ∨ ∃ (t : FileSystem) (f : FilePtr)
      (dir : DirectoryPtr), t.registry = s.registry ∧ t.outer = s.outer ∧
      s.createdFhs.lookup fh = some f ∧ t.createdDhs.lookup (t.fileMeta f).dh = some dir ∧
      (s.unlinkFileNolock env fh).1.registry = (t.removeFileFromoDirectory dir f).1.registry := by
  unfold unlinkFileNolock
  split
  · exact .inl rfl
  · next f found =>
    split
    · exact .inl rfl
    · next dir home =>
      have stamped := modifyFileMeta_registry s (s.files f).metaSlot
        (fun m => { m with mtime := env.now, ctime := env.now }) rfl rfl rfl
      have stamped' := modifyFileMeta_outer s (s.files f).metaSlot
        (fun m => { m with mtime := env.now, ctime := env.now })
      dsimp only
      generalize (s.modifyFileMeta (s.files f).metaSlot fun m =>
        { m with mtime := env.now, ctime := env.now }) = u at stamped stamped'
      split
      · exact .inl stamped
      · have emptied := @removeAllFileBlock_registry _ u env f
        have emptied' := @removeAllFileBlock_outer _ u env f
        split
        · next v same =>
          rw [same] at emptied
          exact .inl (emptied.trans stamped)
        · next v same =>
          rw [same] at emptied emptied'
          have cleared := @release_registry _ v env f
          have cleared' := @release_outer _ v env f
          split
          · next w same' =>
            rw [same'] at cleared
            exact .inl ((cleared.trans emptied).trans stamped)
          · next w same' =>
            rw [same'] at cleared cleared'
            have kept := (cleared.trans emptied).trans stamped
            refine .inr ⟨w, f, dir, kept, (cleared'.trans emptied').trans stamped', found, ?_, ?_⟩
            · rw [show w.createdDhs = s.createdDhs from congrArg Registry.createdDhs kept,
                fileMeta_dh_of_registry kept]
              exact home
            · split
              · next x gone => rw [gone]
              · next x gone =>
                rw [gone]
                rfl

/-- So does `unlink`, which only marks a file that is open. -/
theorem unlink_registry (path : Name) :
    (s.unlink env path).1.registry = s.registry ∨ ∃ (t : FileSystem) (f : FilePtr) (dir : DirectoryPtr)
      (dirname name : Name), t.registry = s.registry ∧ t.outer = s.outer ∧
      s.findFile dirname name = .ok (dir, f) ∧
      (s.unlink env path).1.registry = (t.removeFileFromoDirectory dir f).1.registry := by
  unfold unlink
  split
  · exact .inl rfl
  · next e _ =>
    dsimp only
    split
    · exact .inl rfl
    · next dirname name _ =>
      split
      · exact .inl rfl
      · next dir f found =>
        split
        · exact .inl (modifyFile_registry _ f _ rfl)
        · have emptied := @removeAllFileBlock_registry _ (s.storeErrno e) env f
          have emptied' := @removeAllFileBlock_outer _ (s.storeErrno e) env f
          split
          · next v same =>
            rw [same] at emptied
            exact .inl emptied
          · next v same =>
            rw [same] at emptied emptied'
            have cleared := @release_registry _ v env f
            have cleared' := @release_outer _ v env f
            split
            · next w same' =>
              rw [same'] at cleared
              exact .inl (cleared.trans emptied)
            · next w same' =>
              rw [same'] at cleared cleared'
              refine .inr ⟨w, f, dir, dirname, name, cleared.trans emptied, cleared'.trans emptied', found, ?_⟩
              split
              · next x gone => rw [gone]
              · next x gone =>
                rw [gone]
                rfl

end Truncation

end BlockFs.FileSystem
