import BlockFs.Stock
import BlockFs.Turns

namespace BlockFs.FileSystem

section Calls
variable [Crc32] {s s' t : FileSystem} {env : Env} {f : FilePtr} {fhs fbhs : Multiset Nat} {r : Int}

/-- A new file in slot `x`. -/
def enrolled (s : FileSystem) (x : Nat) (rest : List Nat) : FileSystem :=
  { s with
    files := Function.update s.files s.nextFile
      { metaSlot := x, nlink := 0, locked := false, deleted := false, itemMaps := ∅ }
    nextFile := s.nextFile + 1
    freeFhs := rest }

omit [Crc32] in
theorem enrolled_new (s : FileSystem) (x : Nat) (rest : List Nat) :
    (s.enrolled x rest).files s.nextFile =
      { metaSlot := x, nlink := 0, locked := false, deleted := false, itemMaps := ∅ } :=
  Function.update_self _ _ _

omit [Crc32] in
theorem enrolled_old (s : FileSystem) (x : Nat) (rest : List Nat) {g : FilePtr}
    (old : g ≠ s.nextFile) : (s.enrolled x rest).files g = s.files g :=
  Function.update_of_ne old _ _

omit [Crc32] in
/-- A new file takes the slot at the head of the free list. -/
theorem Stocked.enrolls (stocked : Stocked s fhs fbhs) {x : Nat} {rest : List Nat}
    (free : s.freeFhs = x :: rest) : Stocked (s.enrolled x rest) fhs fbhs where
  slots := stocked.slots
  handles := by
    have head : (s.freeFhs : Multiset Nat) = rest + {x} := by
      rw [free, ← Multiset.cons_coe, ← Multiset.singleton_add, add_comm]
    have next : (s.enrolled x rest).nextFile = s.nextFile + 1 := rfl
    rw [next, Finset.range_add_one]
    refine stocked.handles.enroll Finset.notMem_range_self (fun g member => ?_) ?_
    · rw [enrolled_old s x rest (Finset.mem_range.mp member).ne]
    · rw [enrolled_new, head]
      rfl
  fileBlocks := by
    have next : (s.enrolled x rest).nextFile = s.nextFile + 1 := rfl
    rw [next, Finset.range_add_one]
    refine stocked.fileBlocks.enroll Finset.notMem_range_self (fun g member => ?_) ?_
    · rw [attached, enrolled_old s x rest (Finset.mem_range.mp member).ne, attached]
    · rw [attached, enrolled_new]
      exact add_zero _
  cleanFhs i member := stocked.cleanFhs i (free ▸ List.mem_cons_of_mem x member)
  cleanFbhs := stocked.cleanFbhs
  single g known := by
    by_cases new : g = s.nextFile
    · rw [attached, new, enrolled_new]
      exact Nat.zero_le _
    · rw [attached, enrolled_old s x rest new]
      exact stocked.single g (Nat.lt_of_le_of_ne (Nat.lt_succ_iff.mp known) new)
  names K g found := Nat.lt_succ_of_lt (stocked.names K g found)
  live i g found := Nat.lt_succ_of_lt (stocked.live i g found)
  opens fd g found := Nat.lt_succ_of_lt (stocked.opens fd g found)

omit [Crc32] in
theorem Settled.openFiles (settled : Settled s) {opened : Map Nat OpenFile}
    (bound : ∀ fd o, opened.lookup fd = some o → o.file < s.nextFile) :
    Settled { s with openFiles := opened } := by
  obtain ⟨parents, fhs, fbhs, stocked⟩ := settled
  refine ⟨parents, fhs, fbhs, { stocked with opens := fun fd f found => ?_ }⟩
  obtain ⟨o, listed, rfl⟩ := Option.map_eq_some_iff.mp found
  exact bound fd o listed

omit [Crc32] in
theorem Settled.opens (settled : Settled s) {fd : Nat} {o : OpenFile}
    (listed : s.openFiles.lookup fd = some o) : o.file < s.nextFile := by
  obtain ⟨_, _, _, stocked⟩ := settled
  exact stocked.opens fd o.file (by rw [openedFile, listed]; rfl)

omit [Crc32] in
theorem Settled.newFreeFile (settled : Settled s) (dh : Nat) (nameOf : Nat → Name) (isTemp : Bool) :
    Settled (s.newFreeFile dh nameOf isTemp).1 ∧
      ∀ g, (s.newFreeFile dh nameOf isTemp).2 = some g →
        g < (s.newFreeFile dh nameOf isTemp).1.nextFile := by
  obtain ⟨parents, fhs, fbhs, stocked⟩ := settled
  unfold FileSystem.newFreeFile
  split
  · exact ⟨⟨parents, fhs, fbhs, stocked.congr rfl⟩, nofun⟩
  · next x rest free =>
    split
    · exact ⟨⟨parents, fhs, fbhs, stocked.congr rfl⟩, nofun⟩
    · have taken := stocked.takesSlot free
      have enrolled := stocked.enrolls free
      have off : x ∉ rest := taken.fh_not_free (by simp)
      refine ⟨⟨parents, fhs, fbhs, enrolled.touchMeta (i := x) off (fun m =>
        { (m.setFileName (nameOf x)) with used := true, fh := x, dh := dh, isTemp := isTemp })
        (stocked.slots x).symm⟩, fun g made => ?_⟩
      obtain rfl := Option.some.inj made
      exact Nat.lt_succ_self _

omit [Crc32] in
theorem Settled.newFile (settled : Settled s) {dirname filename : Name} {tmpfile : Bool}
    {target : Option (DirectoryPtr × FilePtr)}
    (result : s.newFile env dirname filename tmpfile = (t, target)) :
    Settled t ∧ ∀ d g, target = some (d, g) → g < t.nextFile := by
  unfold FileSystem.newFile at result
  split at result
  · obtain ⟨rfl, rfl⟩ := Prod.mk.inj result
    exact ⟨settled.congr rfl, nofun⟩
  · next dir _ =>
    dsimp only at result
    split at result
    · obtain ⟨rfl, rfl⟩ := Prod.mk.inj result
      exact ⟨settled.congr rfl, nofun⟩
    · have taken : Settled (if tmpfile then s.newFreeTmpFileNolock (s.dirMeta dir).dh
            else s.newFreeFileNolock (s.dirMeta dir).dh filename).1 ∧
          ∀ g, (if tmpfile then s.newFreeTmpFileNolock (s.dirMeta dir).dh
              else s.newFreeFileNolock (s.dirMeta dir).dh filename).2 = some g →
            g < (if tmpfile then s.newFreeTmpFileNolock (s.dirMeta dir).dh
              else s.newFreeFileNolock (s.dirMeta dir).dh filename).1.nextFile := by
        split
        · exact settled.newFreeFile _ _ _
        · exact settled.newFreeFile _ _ _
      split at result
      · next u same =>
        rw [same] at taken
        obtain ⟨rfl, rfl⟩ := Prod.mk.inj result
        exact ⟨taken.1, nofun⟩
      · next u g same =>
        rw [same] at taken
        obtain ⟨rfl, rfl⟩ := Prod.mk.inj result
        refine ⟨taken.1.congr (modifyFileMeta_stock u _ _ rfl rfl rfl), fun d h made => ?_⟩
        obtain ⟨_, rfl⟩ := Prod.mk.inj (Option.some.inj made)
        exact taken.2 g rfl

/-- A creation keeps the stock, whatever its result. -/
theorem Settled.createFileIn (settled : Settled s) {dirname filename : Name} {tmpfile : Bool}
    {target : Option FilePtr} (result : s.createFileIn env dirname filename tmpfile = (t, target)) :
    Settled t ∧ ∀ g, target = some g → g < t.nextFile := by
  unfold FileSystem.createFileIn at result
  split at result
  · next u same =>
    obtain ⟨rfl, rfl⟩ := Prod.mk.inj result
    exact ⟨(settled.newFile same).1, nofun⟩
  · next u parentDir g same =>
    obtain ⟨made, bound⟩ := settled.newFile same
    have bound := bound parentDir g rfl
    have written := writeMeta_stock u env g
    split at result
    · next v same' =>
      obtain ⟨rfl, rfl⟩ := Prod.mk.inj result
      rw [same'] at written
      exact ⟨made.congr written, nofun⟩
    · next v same' =>
      obtain ⟨rfl, rfl⟩ := Prod.mk.inj result
      rw [same'] at written
      obtain ⟨parents, fhs, fbhs, stocked⟩ := made.congr written
      have nextFile : v.nextFile = u.nextFile := congrArg Stock.nextFile written
      have holders := addFileToDirectory_holders v parentDir g
      have entered := stocked.entersDirectory (nextFile.symm ▸ bound) parentDir
      refine ⟨⟨(parents_congr holders).trans parents, fhs, fbhs, entered.congr rfl⟩, fun h known => ?_⟩
      obtain rfl := Option.some.inj known
      have next : (v.addFileToDirectory parentDir g).nextFile = v.nextFile :=
        congrArg Holders.nextFile holders
      change g < (v.addFileToDirectory parentDir g).nextFile
      rw [next, nextFile]
      exact bound

theorem Settled.createFile (settled : Settled s) {filename : Name} {tmpfile : Bool}
    {target : Option FilePtr} (result : s.createFile env filename tmpfile = (t, target)) :
    Settled t ∧ ∀ g, target = some g → g < t.nextFile := by
  unfold FileSystem.createFile at result
  split at result
  · exact settled.createFileIn result
  · split at result
    · obtain ⟨rfl, rfl⟩ := Prod.mk.inj result
      exact ⟨settled.congr rfl, nofun⟩
    · exact settled.createFileIn result

/-- A file that is removed gives its file blocks back and keeps its slot. -/
theorem Settled.removes (settled : Settled s) (bound : f < s.nextFile) (ok : env.IoOk) :
    s.removeAllFileBlock env f = (s.drained f, true) ∧ Settled (s.drained f) ∧
      f < (s.drained f).nextFile := by
  obtain ⟨parents, fhs, fbhs, stocked⟩ := settled
  obtain ⟨nextFile, _, _, parents'⟩ := foldl_releasedAll_outer (s.attached f) s
  exact ⟨removeAllFileBlock_ok ok, ⟨parents'.trans parents, fhs, fbhs, stocked.drained bound⟩,
    nextFile.symm ▸ bound⟩

theorem Settled.release (settled : Settled s) (bound : f < s.nextFile) :
    Settled (s.release env f).1 := by
  obtain ⟨parents, fhs, fbhs, stocked⟩ := settled
  have cleared := stocked.touchMeta (stocked.metaSlot_not_free bound) FileMeta.clear rfl
  have written := writeMeta_stock (s.modifyFileMeta (s.files f).metaSlot FileMeta.clear) env f
  exact ⟨(parents_congr (holders_of_stock written)).trans parents, fhs, fbhs, cleared.congr written⟩

omit [Crc32] in
theorem Settled.leavesDirectory (settled : Settled s) (d : DirectoryPtr) (f : FilePtr) :
    Settled (s.removeFileFromoDirectory d f).1 := by
  obtain ⟨parents, fhs, fbhs, stocked⟩ := settled
  exact ⟨(parents_congr (removeFileFromoDirectory_holders s d f)).trans parents, fhs, fbhs,
    stocked.leavesDirectory d f⟩

theorem Settled.unlinkFileNolock (settled : Settled s) (ok : env.IoOk) (fh : Nat) :
    Settled (s.unlinkFileNolock env fh).1 := by
  unfold FileSystem.unlinkFileNolock
  split
  · exact settled.congr rfl
  · next f found =>
    split
    · exact settled.congr rfl
    · next parentDir _ =>
      have stamped := modifyFileMeta_stock s (s.files f).metaSlot
        (fun m => { m with mtime := env.now, ctime := env.now }) rfl rfl rfl
      have before := settled.congr stamped
      have bound : f < s.nextFile := by
        obtain ⟨_, _, _, stocked⟩ := settled
        exact stocked.live fh f found
      have nextFile : (s.modifyFileMeta (s.files f).metaSlot fun m =>
          { m with mtime := env.now, ctime := env.now }).nextFile = s.nextFile := rfl
      dsimp only
      generalize (s.modifyFileMeta (s.files f).metaSlot fun m =>
        { m with mtime := env.now, ctime := env.now }) = u at *
      split
      · exact before
      · obtain ⟨emptied, drained, bound'⟩ := before.removes (nextFile.symm ▸ bound) ok
        have released := @Settled.release _ _ env _ drained bound'
        rw [emptied]
        dsimp only
        split
        · next v same =>
          rw [same] at released
          exact released
        · next v same =>
          rw [same] at released
          have left := released.leavesDirectory parentDir f
          split
          · next w same' =>
            rw [same'] at left
            exact left
          · next w same' =>
            rw [same'] at left
            exact left.congr rfl

theorem Settled.unlink (settled : Settled s) (ok : env.IoOk) (path : Name) :
    Settled (s.unlink env path).1 := by
  unfold FileSystem.unlink
  split
  · exact settled.congr rfl
  · next e _ =>
    have before : Settled (s.storeErrno e) := settled.congr rfl
    dsimp only
    generalize s.storeErrno e = s at before
    split
    · exact before.congr rfl
    · split
      · exact before.congr rfl
      · next parentDir f found =>
        have bound : f < s.nextFile := by
          obtain ⟨_, _, _, stocked⟩ := before
          exact stocked.names _ f (findFile_ok found).2
        split
        · exact before.congr (modifyFile_stock _ f _ rfl rfl)
        · obtain ⟨emptied, drained, bound'⟩ := before.removes bound ok
          have released := @Settled.release _ _ env _ drained bound'
          rw [emptied]
          dsimp only
          split
          · next v same =>
            rw [same] at released
            exact released
          · next v same =>
            rw [same] at released
            have left := released.leavesDirectory parentDir f
            split
            · next w same' =>
              rw [same'] at left
              exact left
            · next w same' =>
              rw [same'] at left
              exact left.congr rfl

omit [Crc32] in
theorem Settled.found (settled : Settled s) {path : Name} (found : s.getCreatedFile path = .ok f) :
    f < s.nextFile := by
  obtain ⟨_, _, _, stocked⟩ := settled
  obtain ⟨⟨dirname, filename⟩, _, rest⟩ := Except.bind_eq_ok.mp found
  obtain ⟨dir, _, entry⟩ := Except.bind_eq_ok.mp rest
  split at entry
  · next g listed =>
    obtain rfl := Except.ok.inj entry
    exact stocked.names _ _ listed
  · simp at entry

theorem updateTimeStamp_stock (s : FileSystem) (f : FilePtr) (now : Int) :
    (s.updateTimeStamp f now).stock = s.stock := by
  unfold updateTimeStamp
  exact modifyFileMeta_stock s _ _ rfl rfl rfl

theorem Settled.enterRenamed (settled : Settled s) (bound : f < s.nextFile) (newDir : DirectoryPtr)
    (target : Name) : Settled (s.enterRenamed env f newDir target).1 := by
  have named := settled.congr (modifyFileMeta_stock s (s.files f).metaSlot (fun m =>
    { (m.setFileName (getFileName target)) with dh := (s.dirMeta newDir).dh }) rfl rfl rfl)
  have nextFile : (s.modifyFileMeta (s.files f).metaSlot fun m =>
    { (m.setFileName (getFileName target)) with dh := (s.dirMeta newDir).dh }).nextFile = s.nextFile := rfl
  unfold FileSystem.enterRenamed
  dsimp only
  generalize (s.modifyFileMeta (s.files f).metaSlot fun m =>
    { (m.setFileName (getFileName target)) with dh := (s.dirMeta newDir).dh }) = u at named nextFile
  have stamped := updateTimeStamp_stock u f env.now
  have before := named.congr stamped
  have nextFile' : (u.updateTimeStamp f env.now).nextFile = u.nextFile := rfl
  generalize u.updateTimeStamp f env.now = v at before nextFile'
  obtain ⟨parents, fhs, fbhs, stocked⟩ := before
  have entered : Settled (v.addFileNoLock f) :=
    ⟨parents, fhs, fbhs, stocked.enters (by rw [nextFile', nextFile]; exact bound)⟩
  have listed := addChildFile_stock (v.addFileNoLock f) f newDir
  split
  · next w same =>
    rw [same] at listed
    exact entered.congr listed
  · next w same =>
    rw [same] at listed
    have written := writeMeta_stock w env f
    split <;> next x same' =>
      rw [same'] at written
      exact (entered.congr listed).congr written

theorem Settled.fileRename (settled : Settled s) (bound : f < s.nextFile) (target : Name) :
    Settled (s.fileRename env f target).1 := by
  unfold FileSystem.fileRename
  split
  · exact settled
  · next oldDir _ =>
    split
    · exact settled.congr rfl
    · next newDir _ =>
      have delisted := removeChildFile_stock s f oldDir
      split
      · next u same =>
        rw [same] at delisted
        exact settled.congr delisted
      · next u same =>
        rw [same] at delisted
        obtain ⟨parents, fhs, fbhs, stocked⟩ := settled.congr delisted
        have left := stocked.leaves f
        have nextFile : u.nextFile = s.nextFile := congrArg Stock.nextFile delisted
        have outer := removeFileNoLock_outer u f
        have nextFile' : (u.removeFileNoLock f).1.nextFile = u.nextFile := congrArg Outer.nextFile outer
        have parents' : (u.removeFileNoLock f).1.parentFiles = u.parentFiles := by
          unfold removeFileNoLock
          split
          · rfl
          · dsimp only
            split <;> rfl
        split <;> next v same' =>
          rw [same'] at left nextFile' parents'
          have after : Settled v := ⟨parents'.trans parents, fhs, fbhs, left⟩
          first
            | exact after
            | exact after.enterRenamed (by rw [nextFile', nextFile]; exact bound) newDir target

omit [Crc32] in
theorem stock_of_beneath (same : t.beneath = s.beneath) :
    t.stock = { s.stock with opened := t.openedFile } :=
  congrArg (fun b : Beneath =>
    { freeFhs := b.freeFhs
      freeFbhs := b.freeFbhs
      nextFile := b.nextFile
      metaSlots := b.fileSlots
      items := b.fileItems
      fhs := fun i => (b.fileMetas i).fh
      sizes := fun i => (b.fileMetas i).size
      used := fun i => (b.fileMetas i).used
      blocksUsed := fun c => (b.fileBlockMetas c).used
      blockNums := fun c => (b.fileBlockMetas c).usedBlockNum
      parents := b.parentFiles
      names := b.createdFiles
      live := b.createdFhs
      opened := t.openedFile : Stock }) same

omit [Crc32] in
theorem Settled.accessible (settled : Settled s) (known : s.Accessible f) : f < s.nextFile := by
  obtain ⟨_, _, _, stocked⟩ := settled
  rcases known with ⟨fd, opened⟩ | ⟨K, entry⟩
  · exact stocked.opens fd f opened
  · exact stocked.names K f entry

omit [Crc32] in
theorem Settled.surface (settled : Settled s) (same : t.beneath = s.beneath)
    (opens : ∀ fd f, t.openedFile fd = some f → s.Accessible f) : Settled t := by
  have nextFile : t.nextFile = s.nextFile := congrArg Beneath.nextFile same
  have closed : Settled { t with openFiles := s.openFiles } :=
    settled.congr (congrArg (fun v : Stock => { v with opened := s.openedFile }) (stock_of_beneath same))
  refine closed.openFiles fun fd o listed => ?_
  have opened : t.openedFile fd = some o.file := by rw [openedFile, listed]; rfl
  exact nextFile ▸ settled.accessible (opens fd o.file opened)

/-- Every turn keeps the stock. -/
theorem Settled.turn (settled : Settled s) (ok : env.IoOk) (turn : Turn env s t) : Settled t := by
  cases turn with
  | surface same opens => exact settled.surface same opens
  | created path tmpfile => exact (settled.createFile rfl).1
  | truncated known result => exact settled.ftruncate (settled.accessible known) ok result
  | stamped => exact settled.congr (updateTimeStamp_stock s _ _)
  | discarded => exact settled.unlinkFileNolock ok _
  | unlinked path => exact settled.unlink ok path
  | renamed found target => exact settled.fileRename (settled.found found) target
  | madeDirectory result => exact settled.congr (stock_of_fileSide (createDirectory_fileSide s env result))
  | droppedDirectory path => exact settled.congr (stock_of_fileSide (deleteDirectory_fileSide s env path))
  | movedDirectory source target =>
    exact settled.congr (stock_of_fileSide (renameDirectory_fileSide s env source target))
  | readDirectory result => exact settled.congr (stock_of_fileSide (readDirectory_fileSide s env result))

/-- Every call keeps the stock, whatever its result. -/
theorem Settled.call (settled : Settled s) {op : Op} (ok : env.IoOk)
    (result : s.call env op = .ok (t, r)) : Settled t := by
  have turns := call_turns result
  clear result
  induction turns with
  | refl => exact settled
  | tail _ turn ih => exact ih.turn ok turn

/-- Nothing is missing from a fresh stock. -/
theorem settled_mounted {d : Disk} (large : 675282944 ≤ d.size) (env : Env) (attempts : Nat) :
    Settled (mounted d env attempts) := by
  have consistent := consistent_mounted large env attempts
  exact ⟨rfl, 0, 0,
    { slots := consistent.slots
      handles := consistent.handles
      fileBlocks := consistent.fileBlocks
      cleanFhs := consistent.cleanFhs
      cleanFbhs := consistent.cleanFbhs
      single := fun f bound => absurd bound (Nat.not_lt_zero f)
      names := fun K f found => by simp [mounted, initialized, unmounted] at found
      live := fun x f found => by simp [mounted, initialized, unmounted] at found
      opens := fun fd f found => by simp [openedFile, mounted, initialized, unmounted] at found }⟩

end Calls

end BlockFs.FileSystem
