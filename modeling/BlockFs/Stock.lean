import BlockFs.Frames

namespace BlockFs.FileSystem

/-- The free lists of file slots and file blocks, what the files hold of either, and the indices that
lead to the files. -/
structure Stock where
  freeFhs : List Nat
  freeFbhs : List FileBlockPtr
  nextFile : Nat
  metaSlots : FilePtr → Nat
  items : FilePtr → Map Nat FileBlockPtr
  fhs : Nat → Nat
  sizes : Nat → Nat
  used : Nat → Bool
  blocksUsed : FileBlockPtr → Bool
  blockNums : FileBlockPtr → Nat
  parents : Map Nat ParentFile
  names : Map (Nat × Name) FilePtr
  live : Map Nat FilePtr
  opened : Nat → Option FilePtr

def stock (s : FileSystem) : Stock :=
  { freeFhs := s.freeFhs
    freeFbhs := s.freeFbhs
    nextFile := s.nextFile
    metaSlots := fun f => (s.files f).metaSlot
    items := fun f => (s.files f).itemMaps
    fhs := fun i => (s.fileMetas i).fh
    sizes := fun i => (s.fileMetas i).size
    used := fun i => (s.fileMetas i).used
    blocksUsed := fun b => (s.fileBlockMetas b).used
    blockNums := fun b => (s.fileBlockMetas b).usedBlockNum
    parents := s.parentFiles
    names := s.createdFiles
    live := s.createdFhs
    opened := s.openedFile }

/-- The file slots and the file blocks are free, held by files or, like `fhs` and `fbhs`, in nobody's
hands; what is free is clean, and every index leads to a file. -/
structure Stocked (s : FileSystem) (fhs fbhs : Multiset Nat) : Prop where
  slots : ∀ i, (s.fileMetas i).fh = i
  handles : Ledger.Balanced (Multiset.range kMaxFileNum) s.freeFhs (Finset.range s.nextFile)
    (fun f => {(s.files f).metaSlot}) fhs
  fileBlocks : Ledger.Balanced (Multiset.range 133554) s.freeFbhs (Finset.range s.nextFile)
    (fun f => s.attached f) fbhs
  cleanFhs : ∀ i ∈ s.freeFhs, (s.fileMetas i).used = false ∧ (s.fileMetas i).size = 0
  cleanFbhs : ∀ b ∈ s.freeFbhs,
    (s.fileBlockMetas b).used = false ∧ (s.fileBlockMetas b).usedBlockNum = 0
  single : ∀ f < s.nextFile, (s.attached f).length ≤ 1
  names : ∀ K f, s.createdFiles.lookup K = some f → f < s.nextFile
  live : ∀ x f, s.createdFhs.lookup x = some f → f < s.nextFile
  opens : ∀ fd f, s.openedFile fd = some f → f < s.nextFile

/-- Between two calls no parent slot waits for its recycling. -/
def Settled (s : FileSystem) : Prop := s.parentFiles = ∅ ∧ ∃ fhs fbhs, Stocked s fhs fbhs

section Views
variable {s s' : FileSystem}

theorem Stocked.congr {fhs fbhs : Multiset Nat} (stocked : Stocked s fhs fbhs)
    (same : s'.stock = s.stock) : Stocked s' fhs fbhs := by
  have freeFhs : s'.freeFhs = s.freeFhs := congrArg Stock.freeFhs same
  have freeFbhs : s'.freeFbhs = s.freeFbhs := congrArg Stock.freeFbhs same
  have nextFile : s'.nextFile = s.nextFile := congrArg Stock.nextFile same
  have metaSlots : ∀ f, (s'.files f).metaSlot = (s.files f).metaSlot :=
    congrFun (congrArg Stock.metaSlots same)
  have items : ∀ f, (s'.files f).itemMaps = (s.files f).itemMaps := congrFun (congrArg Stock.items same)
  have attached (f : FilePtr) : s'.attached f = s.attached f := by
    rw [FileSystem.attached, FileSystem.attached, items]
  have fhs : ∀ i, (s'.fileMetas i).fh = (s.fileMetas i).fh := congrFun (congrArg Stock.fhs same)
  have sizes : ∀ i, (s'.fileMetas i).size = (s.fileMetas i).size := congrFun (congrArg Stock.sizes same)
  have used : ∀ i, (s'.fileMetas i).used = (s.fileMetas i).used := congrFun (congrArg Stock.used same)
  have blocksUsed : ∀ b, (s'.fileBlockMetas b).used = (s.fileBlockMetas b).used :=
    congrFun (congrArg Stock.blocksUsed same)
  have blockNums : ∀ b, (s'.fileBlockMetas b).usedBlockNum = (s.fileBlockMetas b).usedBlockNum :=
    congrFun (congrArg Stock.blockNums same)
  have names : s'.createdFiles = s.createdFiles := congrArg Stock.names same
  have live : s'.createdFhs = s.createdFhs := congrArg Stock.live same
  have opened : ∀ fd, s'.openedFile fd = s.openedFile fd := congrFun (congrArg Stock.opened same)
  refine ⟨fun i => (fhs i).trans (stocked.slots i), ?_, ?_, fun i member => ?_, fun b member => ?_,
    fun f bound => ?_, fun K f => ?_, fun x f => ?_, fun fd f => ?_⟩
  · rw [freeFhs, nextFile]
    exact stocked.handles.congr fun f _ => by rw [metaSlots]
  · rw [freeFbhs, nextFile]
    exact stocked.fileBlocks.congr fun f _ => by rw [attached]
  · rw [used, sizes]
    exact stocked.cleanFhs i (freeFhs ▸ member)
  · rw [blocksUsed, blockNums]
    exact stocked.cleanFbhs b (freeFbhs ▸ member)
  · rw [attached]
    exact stocked.single f (nextFile ▸ bound)
  · rw [names, nextFile]
    exact stocked.names K f
  · rw [live, nextFile]
    exact stocked.live x f
  · rw [opened, nextFile]
    exact stocked.opens fd f

theorem stock_of_fileSide (same : s'.fileSide = s.fileSide) : s'.stock = s.stock := by
  have freeFhs : s'.freeFhs = s.freeFhs := congrArg FileSide.freeFhs same
  have freeFbhs : s'.freeFbhs = s.freeFbhs := congrArg FileSide.freeFbhs same
  have nextFile : s'.nextFile = s.nextFile := congrArg FileSide.nextFile same
  have files : s'.files = s.files := congrArg FileSide.files same
  have fileMetas : s'.fileMetas = s.fileMetas := congrArg FileSide.fileMetas same
  have fileBlockMetas : s'.fileBlockMetas = s.fileBlockMetas := congrArg FileSide.fileBlockMetas same
  have parents : s'.parentFiles = s.parentFiles := congrArg FileSide.parentFiles same
  have names : s'.createdFiles = s.createdFiles := congrArg FileSide.createdFiles same
  have live : s'.createdFhs = s.createdFhs := congrArg FileSide.createdFhs same
  have opened : s'.openedFile = s.openedFile := by
    funext fd
    rw [openedFile, openedFile, show s'.openFiles = s.openFiles from congrArg FileSide.openFiles same]
  unfold stock
  rw [freeFhs, freeFbhs, nextFile, files, fileMetas, fileBlockMetas, parents, names, live, opened]

theorem Settled.congr (settled : Settled s) (same : s'.stock = s.stock) : Settled s' := by
  obtain ⟨parents, fhs, fbhs, stocked⟩ := settled
  exact ⟨(congrArg Stock.parents same).trans parents, fhs, fbhs, stocked.congr same⟩

end Views

section Blind
variable [Crc32] (s : FileSystem) (env : Env) (f : FilePtr)

omit [Crc32] in
theorem modifyFileMeta_stock (i : Nat) (g : FileMeta → FileMeta)
    (fh : (g (s.fileMetas i)).fh = (s.fileMetas i).fh)
    (size : (g (s.fileMetas i)).size = (s.fileMetas i).size)
    (used : (g (s.fileMetas i)).used = (s.fileMetas i).used) :
    (s.modifyFileMeta i g).stock = s.stock := by
  have agree {α : Type} (view : FileMeta → α) (blind : view (g (s.fileMetas i)) = view (s.fileMetas i)) :
      (fun j => view ((s.modifyFileMeta i g).fileMetas j)) = fun j => view (s.fileMetas j) := by
    funext j
    exact view_update s.fileMetas i j view blind
  unfold stock
  rw [agree (·.fh) fh, agree (·.size) size, agree (·.used) used]
  rfl

omit [Crc32] in
theorem setFileBlockMeta_stock (b : FileBlockPtr) (m : FileBlockMeta)
    (used : m.used = (s.fileBlockMetas b).used)
    (usedBlockNum : m.usedBlockNum = (s.fileBlockMetas b).usedBlockNum) :
    (s.setFileBlockMeta b m).stock = s.stock := by
  have agree {α : Type} (view : FileBlockMeta → α) (blind : view m = view (s.fileBlockMetas b)) :
      (fun c => view ((s.setFileBlockMeta b m).fileBlockMetas c)) =
        fun c => view (s.fileBlockMetas c) := by
    funext c
    exact view_update s.fileBlockMetas b c view blind
  unfold stock
  rw [agree (·.used) used, agree (·.usedBlockNum) usedBlockNum]
  rfl

omit [Crc32] in
theorem modifyFile_stock (g : File → File) (metaSlot : (g (s.files f)).metaSlot = (s.files f).metaSlot)
    (itemMaps : (g (s.files f)).itemMaps = (s.files f).itemMaps) :
    (s.modifyFile f g).stock = s.stock := by
  have agree {α : Type} (view : File → α) (blind : view (g (s.files f)) = view (s.files f)) :
      (fun h => view ((s.modifyFile f g).files h)) = fun h => view (s.files h) := by
    funext h
    exact view_update s.files f h view blind
  unfold stock
  rw [agree (·.metaSlot) metaSlot, agree (·.itemMaps) itemMaps]
  rfl

omit [Crc32] in
theorem pwriteDirect_stock (w : MetaWrite) : (s.pwriteDirect env w).1.stock = s.stock := by
  unfold pwriteDirect
  split <;> rfl

theorem writeFileMeta_stock (fh : Nat) : (s.writeFileMeta env fh).1.stock = s.stock :=
  (pwriteDirect_stock _ env _).trans (modifyFileMeta_stock s fh FileMeta.sealed rfl rfl rfl)

theorem writeMeta_stock : (s.writeMeta env f).1.stock = s.stock := writeFileMeta_stock s env _

theorem writeFileBlockMeta_stock (b : FileBlockPtr) :
    (s.writeFileBlockMeta env b).1.stock = s.stock :=
  (pwriteDirect_stock _ env _).trans (setFileBlockMeta_stock s b _ rfl rfl)

omit [Crc32] in
theorem putFreeBlockIdsLock_stock (ids : List Nat) : (s.putFreeBlockIdsLock ids).stock = s.stock := by
  induction ids generalizing s with
  | nil => rfl
  | cons id ids ih => exact (ih (s.putFreeBlockIdLock id)).trans rfl

omit [Crc32] in
theorem getFreeBlockIdLock_stock {n : Nat} {s' : FileSystem} {ids : List Nat}
    (taken : s.getFreeBlockIdLock env n = some (s', ids)) : s'.stock = s.stock := by
  unfold getFreeBlockIdLock at taken
  split at taken
  · simp at taken
  · obtain ⟨rfl, _⟩ := Prod.mk.inj (Option.some.inj taken)
    rfl

omit [Crc32] in
theorem copyLoop_stock (src dst fuel offset len : Nat) :
    (s.copyLoop src dst fuel offset len).1.stock = s.stock := by
  have kept (d : Disk) : { s with disk := d }.stock = s.stock := rfl
  induction fuel generalizing s offset len with
  | zero => rfl
  | succ fuel ih =>
    unfold copyLoop
    grind only

omit [Crc32] in
theorem copyData_stock (src dst offset len : Nat) :
    (s.copyData env src dst offset len).1.stock = s.stock := by
  unfold copyData
  grind only [copyLoop_stock]

omit [Crc32] in
theorem recycleIds_stock (blockNum : Nat) (ids : List Nat) (index : Nat) :
    (recycleIds blockNum ids index s).1.stock = s.stock := by
  induction ids generalizing s index with
  | nil => rfl
  | cons id ids ih =>
    unfold recycleIds
    split
    · exact ih s (index + 1)
    · exact (ih (s.putFreeBlockIdLock id) index).trans rfl

omit [Crc32] in
theorem addChildFile_stock (d : DirectoryPtr) : (s.addChildFile d f).1.stock = s.stock := by
  unfold addChildFile
  split <;> rfl

omit [Crc32] in
theorem removeChildFile_stock (d : DirectoryPtr) : (s.removeChildFile d f).1.stock = s.stock := by
  unfold removeChildFile
  split <;> rfl

end Blind

theorem modifyFile_here (s : FileSystem) (f : FilePtr) (g : File → File) :
    (s.modifyFile f g).files f = g (s.files f) := Function.update_self _ _ _

theorem modifyFile_there (s : FileSystem) {f h : FilePtr} (g : File → File) (apart : h ≠ f) :
    (s.modifyFile f g).files h = s.files h := Function.update_of_ne apart _ _

namespace Stocked
variable {s : FileSystem} {fhs fbhs : Multiset Nat} {f : FilePtr} {i : Nat} {b : FileBlockPtr}

section Places
variable (stocked : Stocked s fhs fbhs)
include stocked

theorem metaSlot_not_free (bound : f < s.nextFile) : (s.files f).metaSlot ∉ s.freeFhs :=
  stocked.handles.not_free_of_held (Multiset.nodup_range _) (mem_range bound)
    (Multiset.mem_singleton_self _)

theorem attached_not_free (bound : f < s.nextFile) (member : b ∈ s.attached f) : b ∉ s.freeFbhs :=
  stocked.fileBlocks.not_free_of_held (Multiset.nodup_range _) (mem_range bound) member

theorem fh_not_free (held : i ∈ fhs) : i ∉ s.freeFhs :=
  stocked.handles.not_free_of_lost (Multiset.nodup_range _) held

theorem fbh_not_free (held : b ∈ fbhs) : b ∉ s.freeFbhs :=
  stocked.fileBlocks.not_free_of_lost (Multiset.nodup_range _) held

theorem fileMeta_fh (f : FilePtr) : (s.fileMeta f).fh = (s.files f).metaSlot := stocked.slots _

/-- A slot that is not free may change, but for its handle. -/
theorem touchMeta (off : i ∉ s.freeFhs) (g : FileMeta → FileMeta)
    (fh : (g (s.fileMetas i)).fh = (s.fileMetas i).fh) :
    Stocked (s.modifyFileMeta i g) fhs fbhs where
  slots j := (view_update s.fileMetas i j (·.fh) fh).trans (stocked.slots j)
  handles := stocked.handles
  fileBlocks := stocked.fileBlocks
  cleanFhs j member := by
    have distinct : j ≠ i := by
      rintro rfl
      exact off member
    have same : (s.modifyFileMeta i g).fileMetas j = s.fileMetas j :=
      Function.update_of_ne distinct _ _
    rw [same]
    exact stocked.cleanFhs j member
  cleanFbhs := stocked.cleanFbhs
  single := stocked.single
  names := stocked.names
  live := stocked.live
  opens := stocked.opens

/-- A file block that is not free may change. -/
theorem touchBlock (off : b ∉ s.freeFbhs) (m : FileBlockMeta) :
    Stocked (s.setFileBlockMeta b m) fhs fbhs where
  slots := stocked.slots
  handles := stocked.handles
  fileBlocks := stocked.fileBlocks
  cleanFhs := stocked.cleanFhs
  cleanFbhs c member := by
    have distinct : c ≠ b := by
      rintro rfl
      exact off member
    have same : (s.setFileBlockMeta b m).fileBlockMetas c = s.fileBlockMetas c :=
      Function.update_of_ne distinct _ _
    rw [same]
    exact stocked.cleanFbhs c member
  single := stocked.single
  names := stocked.names
  live := stocked.live
  opens := stocked.opens

theorem takesBlock {rest : List FileBlockPtr} (free : s.freeFbhs = b :: rest) :
    Stocked { s with freeFbhs := rest } fhs ({b} + fbhs) where
  slots := stocked.slots
  handles := stocked.handles
  fileBlocks := by
    refine stocked.fileBlocks.lose ?_
    have head : (s.freeFbhs : Multiset Nat) = {b} + (rest : Multiset Nat) := by rw [free]; rfl
    rw [head]
    abel
  cleanFhs := stocked.cleanFhs
  cleanFbhs c member := stocked.cleanFbhs c (free ▸ List.mem_cons_of_mem b member)
  single := stocked.single
  names := stocked.names
  live := stocked.live
  opens := stocked.opens

theorem takesSlot {x : Nat} {rest : List Nat} (free : s.freeFhs = x :: rest) :
    Stocked { s with freeFhs := rest } ({x} + fhs) fbhs where
  slots := stocked.slots
  handles := by
    refine stocked.handles.lose ?_
    have head : (s.freeFhs : Multiset Nat) = {x} + (rest : Multiset Nat) := by rw [free]; rfl
    rw [head]
    abel
  fileBlocks := stocked.fileBlocks
  cleanFhs c member := stocked.cleanFhs c (free ▸ List.mem_cons_of_mem x member)
  cleanFbhs := stocked.cleanFbhs
  single := stocked.single
  names := stocked.names
  live := stocked.live
  opens := stocked.opens

/-- The file blocks of a file are let go. -/
theorem detaches (bound : f < s.nextFile) :
    Stocked (s.modifyFile f fun o => { o with itemMaps := ∅ }) fhs ((s.attached f : List Nat) + fbhs) := by
  have slot (g : FilePtr) : ((s.modifyFile f fun o => { o with itemMaps := ∅ }).files g).metaSlot =
      (s.files g).metaSlot := view_update s.files f g (·.metaSlot) rfl
  have here : (s.modifyFile f fun o => { o with itemMaps := ∅ }).attached f = [] := by
    rw [attached, modifyFile_here]
    rfl
  have there (g : FilePtr) (apart : g ≠ f) :
      (s.modifyFile f fun o => { o with itemMaps := ∅ }).attached g = s.attached g := by
    rw [attached, modifyFile_there s _ apart, attached]
  refine ⟨stocked.slots, stocked.handles.congr fun g _ => by rw [slot], ?_, stocked.cleanFhs,
    stocked.cleanFbhs, fun g known => ?_, stocked.names, stocked.live, stocked.opens⟩
  · refine stocked.fileBlocks.exchange (mem_range bound) (fun g _ apart => by rw [there g apart]) ?_
    rw [here]
    change (s.freeFbhs : Multiset Nat) + 0 + _ = _
    abel
  · by_cases same : g = f
    · rw [same, here]
      exact Nat.zero_le _
    · rw [there g same]
      exact stocked.single g known

end Places

theorem putsBlock (stocked : Stocked s fhs ({b} + fbhs))
    (clean : (s.fileBlockMetas b).used = false ∧ (s.fileBlockMetas b).usedBlockNum = 0) :
    Stocked (s.putFileBlockLock b) fhs fbhs where
  slots := stocked.slots
  handles := stocked.handles
  fileBlocks := by
    refine stocked.fileBlocks.lose ?_
    rw [putFileBlockLock, ← Multiset.coe_add, Multiset.coe_singleton]
    abel
  cleanFhs := stocked.cleanFhs
  cleanFbhs c member := by
    rcases List.mem_append.mp member with old | new
    · exact stocked.cleanFbhs c old
    · rw [List.mem_singleton.mp new]
      exact clean
  single := stocked.single
  names := stocked.names
  live := stocked.live
  opens := stocked.opens

theorem putsSlot {x : Nat} (stocked : Stocked s ({x} + fhs) fbhs)
    (clean : (s.fileMetas x).used = false ∧ (s.fileMetas x).size = 0) :
    Stocked { s with freeFhs := s.freeFhs ++ [x] } fhs fbhs where
  slots := stocked.slots
  handles := by
    refine stocked.handles.lose ?_
    rw [← Multiset.coe_add, Multiset.coe_singleton]
    abel
  fileBlocks := stocked.fileBlocks
  cleanFhs c member := by
    rcases List.mem_append.mp member with old | new
    · exact stocked.cleanFhs c old
    · rw [List.mem_singleton.mp new]
      exact clean
  cleanFbhs := stocked.cleanFbhs
  single := stocked.single
  names := stocked.names
  live := stocked.live
  opens := stocked.opens

/-- A file without file blocks takes one. -/
theorem attaches (stocked : Stocked s fhs ({b} + fbhs)) (bound : f < s.nextFile)
    (bare : s.attached f = []) (cut : Nat) :
    Stocked (s.modifyFile f fun o => { o with itemMaps := o.itemMaps.insert cut b }) fhs fbhs := by
  have slot (g : FilePtr) : ((s.modifyFile f fun o =>
      { o with itemMaps := o.itemMaps.insert cut b }).files g).metaSlot = (s.files g).metaSlot :=
    view_update s.files f g (·.metaSlot) rfl
  have empty : (s.files f).itemMaps = ∅ := by
    refine AList.ext ?_
    exact List.map_eq_nil_iff.mp bare
  have here : (s.modifyFile f fun o =>
      { o with itemMaps := o.itemMaps.insert cut b }).attached f = [b] := by
    rw [attached, modifyFile_here, empty]
    rfl
  have there (g : FilePtr) (apart : g ≠ f) : (s.modifyFile f fun o =>
      { o with itemMaps := o.itemMaps.insert cut b }).attached g = s.attached g := by
    rw [attached, modifyFile_there s _ apart, attached]
  refine ⟨stocked.slots, stocked.handles.congr fun g _ => by rw [slot], ?_, stocked.cleanFhs,
    stocked.cleanFbhs, fun g known => ?_, stocked.names, stocked.live, stocked.opens⟩
  · refine stocked.fileBlocks.exchange (mem_range bound) (fun g _ apart => by rw [there g apart]) ?_
    rw [here, bare, Multiset.coe_singleton]
    change (s.freeFbhs : Multiset Nat) + _ + _ = (s.freeFbhs : Multiset Nat) + 0 + _
    abel
  · by_cases same : g = f
    · rw [same, here]
      exact le_rfl
    · rw [there g same]
      exact stocked.single g known

/-- A file moves to a slot in hand and leaves its own behind. -/
theorem moves {x : Nat} (stocked : Stocked s ({x} + fhs) fbhs) (bound : f < s.nextFile) :
    Stocked (s.modifyFile f fun o => { o with metaSlot := x }) ({(s.files f).metaSlot} + fhs) fbhs := by
  have attached (g : FilePtr) : (s.modifyFile f fun o => { o with metaSlot := x }).attached g =
      s.attached g := by
    have items : ((s.modifyFile f fun o => { o with metaSlot := x }).files g).itemMaps =
        (s.files g).itemMaps := view_update s.files f g (·.itemMaps) rfl
    rw [FileSystem.attached, FileSystem.attached, items]
  have here : ((s.modifyFile f fun o => { o with metaSlot := x }).files f).metaSlot = x := by
    rw [modifyFile_here]
  refine ⟨stocked.slots, ?_, stocked.fileBlocks.congr fun g _ => by rw [attached], stocked.cleanFhs,
    stocked.cleanFbhs, fun g known => (congrArg List.length (attached g)).trans_le
      (stocked.single g known), stocked.names, stocked.live, stocked.opens⟩
  refine stocked.handles.exchange (mem_range bound) (fun g _ apart => ?_) ?_
  · rw [modifyFile_there s _ apart]
  · rw [here]
    change (s.freeFhs : Multiset Nat) + _ + _ = _
    abel

/-- The indices may lead to one more file. -/
theorem enters (stocked : Stocked s fhs fbhs) (bound : f < s.nextFile) :
    Stocked (s.addFileNoLock f) fhs fbhs where
  slots := stocked.slots
  handles := stocked.handles
  fileBlocks := stocked.fileBlocks
  cleanFhs := stocked.cleanFhs
  cleanFbhs := stocked.cleanFbhs
  single := stocked.single
  names K g found := by
    rcases lookup_of_insert found with ⟨_, rfl⟩ | ⟨_, old⟩
    · exact bound
    · exact stocked.names K g old
  live x g found := by
    rcases lookup_of_insert found with ⟨_, rfl⟩ | ⟨_, old⟩
    · exact bound
    · exact stocked.live x g old
  opens := stocked.opens

theorem leaves (stocked : Stocked s fhs fbhs) (f : FilePtr) :
    Stocked (s.removeFileNoLock f).1 fhs fbhs := by
  have erased (K : Nat × Name) : Stocked { s with createdFiles := s.createdFiles.erase K } fhs fbhs :=
    { stocked with names := fun K g found => stocked.names K g (lookup_of_erase found).1 }
  unfold removeFileNoLock
  split
  · exact stocked
  · dsimp only
    split
    · exact erased _
    · exact { erased _ with live := fun x g found => stocked.live x g (lookup_of_erase found).1 }

theorem leavesDirectory (stocked : Stocked s fhs fbhs) (d : DirectoryPtr) (f : FilePtr) :
    Stocked (s.removeFileFromoDirectory d f).1 fhs fbhs := by
  have delisted := removeChildFile_stock s f d
  unfold removeFileFromoDirectory
  split
  · next t same =>
    rw [same] at delisted
    exact stocked.congr delisted
  · next t same =>
    rw [same] at delisted
    exact (stocked.congr delisted).leaves f

theorem entersDirectory (stocked : Stocked s fhs fbhs) (bound : f < s.nextFile) (d : DirectoryPtr) :
    Stocked (s.addFileToDirectory d f) fhs fbhs := by
  have enlisted := addChildFile_stock s f d
  have next : (s.addChildFile d f).1.nextFile = s.nextFile := congrArg Stock.nextFile enlisted
  exact (stocked.congr enlisted).enters (next ▸ bound)

end Stocked

section Growing
variable [Crc32] {s s' : FileSystem} {env : Env} {f : FilePtr} {b : FileBlockPtr}
  {fhs fbhs : Multiset Nat} {r : Int}

theorem saveFile_stock (s : FileSystem) (fh : Nat) : (s.saveFile fh).stock = s.stock :=
  modifyFileMeta_stock s fh FileMeta.sealed rfl rfl rfl

theorem saveFileBlock_stock (s : FileSystem) (b : FileBlockPtr) :
    (s.saveFileBlock b).stock = s.stock := setFileBlockMeta_stock s b _ rfl rfl

/-- A file block in hand is cleared and goes back to the free list. -/
theorem Stocked.releasesBlock (stocked : Stocked s fhs ({b} + fbhs)) :
    Stocked (s.releasedFileBlock b) fhs fbhs := by
  have held : b ∈ ({b} + fbhs : Multiset Nat) := by simp
  have cleared := stocked.touchBlock (stocked.fbh_not_free held) (s.fileBlockMetas b).clear
  have here : (s.setFileBlockMeta b (s.fileBlockMetas b).clear).fileBlockMetas b =
      (s.fileBlockMetas b).clear := Function.update_self _ _ _
  have saved := saveFileBlock_stock (s.setFileBlockMeta b (s.fileBlockMetas b).clear) b
  have used := congrFun (congrArg Stock.blocksUsed saved) b
  have usedBlockNum := congrFun (congrArg Stock.blockNums saved) b
  refine (cleared.congr saved).putsBlock ⟨used.trans ?_, usedBlockNum.trans ?_⟩
  · exact congrArg (·.used) here
  · exact congrArg (·.usedBlockNum) here

theorem Stocked.releasesAll (stocked : Stocked s fhs ({b} + fbhs)) :
    Stocked (s.releasedAll b) fhs fbhs :=
  releasesBlock (s := { s with blockIdPool := refilled s.blockIdPool (s.fileBlockMetas b).ids })
    (stocked.congr rfl)

theorem Stocked.releasesEntries {bs : List FileBlockPtr} (stocked : Stocked s fhs ((bs : List Nat) + fbhs)) :
    Stocked (bs.foldl releasedAll s) fhs fbhs := by
  induction bs generalizing s with
  | nil => simpa using stocked
  | cons b bs ih =>
    refine ih (releasesAll ?_)
    have split : ((b :: bs : List Nat) : Multiset Nat) = {b} + (bs : Multiset Nat) := rfl
    rwa [split, add_assoc] at stocked

theorem foldl_releasedAll_modifyFile (g : File → File) (bs : List FileBlockPtr) (s : FileSystem) :
    (bs.foldl releasedAll s).modifyFile f g = bs.foldl releasedAll (s.modifyFile f g) := by
  induction bs generalizing s with
  | nil => rfl
  | cons b bs ih => exact ih (s.releasedAll b)

/-- The file blocks of a file that lets them go are free again. -/
theorem Stocked.drained (stocked : Stocked s fhs fbhs) (bound : f < s.nextFile) :
    Stocked (s.drained f) fhs fbhs := by
  rw [FileSystem.drained, foldl_releasedAll_modifyFile]
  exact (stocked.detaches bound).releasesEntries

theorem foldl_releasedAll_outer (bs : List FileBlockPtr) (s : FileSystem) :
    (bs.foldl releasedAll s).nextFile = s.nextFile ∧
      (bs.foldl releasedAll s).files = s.files ∧ (bs.foldl releasedAll s).freeFhs = s.freeFhs ∧
      (bs.foldl releasedAll s).parentFiles = s.parentFiles := by
  induction bs generalizing s with
  | nil => exact ⟨rfl, rfl, rfl, rfl⟩
  | cons b bs ih => exact ih (s.releasedAll b)

omit [Crc32] in
/-- `File::AddFileBlockNoLock` behind an empty item map. -/
theorem Stocked.addsBlock (stocked : Stocked s fhs ({b} + fbhs)) (bound : f < s.nextFile)
    (bare : s.attached f = []) : Stocked (s.addFileBlockNoLock f b).1 fhs fbhs := by
  have empty : (s.files f).itemMaps.entries = [] := List.map_eq_nil_iff.mp bare
  rw [addFileBlockNoLock_empty empty]
  exact stocked.attaches bound bare _

omit [Crc32] in
theorem addFileBlockNoLock_parentFiles (s : FileSystem) (f : FilePtr) (b : FileBlockPtr) :
    (s.addFileBlockNoLock f b).1.parentFiles = s.parentFiles := by
  unfold addFileBlockNoLock
  split <;> rfl

omit [Crc32] in
theorem addFileBlockNoLock_metaSlot (s : FileSystem) (f : FilePtr) (b : FileBlockPtr) :
    ((s.addFileBlockNoLock f b).1.files f).metaSlot = (s.files f).metaSlot := by
  unfold addFileBlockNoLock
  split
  · rfl
  · exact congrArg (·.metaSlot) (modifyFile_here s f fun o =>
      { o with itemMaps := o.itemMaps.insert (s.fileBlockMetas b).fileCut b })

omit [Crc32] in
theorem addFileBlockNoLock_nextFile (s : FileSystem) (f : FilePtr) (b : FileBlockPtr) :
    (s.addFileBlockNoLock f b).1.nextFile = s.nextFile := by
  unfold addFileBlockNoLock
  split <;> rfl

/-- The second half of a growth, with a new file block in hand or the one of the file. -/
theorem Stocked.extendBlocks {isNew : Bool} (stocked : Stocked s fhs fbhs) (bound : f < s.nextFile)
    (off : b ∉ s.freeFbhs) (new : isNew = true → (∃ rest, fbhs = {b} + rest) ∧ s.attached f = [] ∧
      (s.fileBlockMetas b).used = false ∧ (s.fileBlockMetas b).usedBlockNum = 0)
    (ok : env.IoOk) (offset needed : Nat) :
    ∃ fbhs', Stocked (s.extendBlocks env f offset needed b isNew).1 fhs fbhs' := by
  unfold FileSystem.extendBlocks
  split
  · split
    · next isNew =>
      obtain ⟨⟨rest, rfl⟩, _, clean⟩ := new isNew
      exact ⟨rest, stocked.putsBlock clean⟩
    · exact ⟨fbhs, stocked⟩
  · next t ids taken =>
    have same : t.stock = s.stock := by
      split at taken
      · exact getFreeBlockIdLock_stock s env taken
      · obtain ⟨rfl, _⟩ := Prod.mk.inj (Option.some.inj taken)
        rfl
    have before := stocked.congr same
    have freeFbhs : t.freeFbhs = s.freeFbhs := congrArg Stock.freeFbhs same
    have nextFile : t.nextFile = s.nextFile := congrArg Stock.nextFile same
    dsimp only
    split
    · next slot _ => exact ⟨fbhs, before.touchBlock (freeFbhs ▸ off) slot⟩
    · next slot _ =>
      have filled := before.touchBlock (freeFbhs ▸ off) slot
      have entered (u : FileSystem) (rest : Multiset Nat) (stocked : Stocked u fhs rest)
          (bound : f < u.nextFile) :
          Stocked ((u.modifyFileMeta (u.files f).metaSlot fun m => { m with size := offset }).writeMeta
            env f).1 fhs rest :=
        (stocked.touchMeta (stocked.metaSlot_not_free bound) _ rfl).congr (writeMeta_stock _ env f)
      have persisted : ∃ u, (if ids.isEmpty then (t.setFileBlockMeta b slot, true) else
          (t.setFileBlockMeta b slot).writeFileBlockMeta env b) = (u, true) ∧
          u.stock = (t.setFileBlockMeta b slot).stock := by
        split
        · exact ⟨_, rfl, rfl⟩
        · exact ⟨_, writeFileBlockMeta_ok ok _ _, saveFileBlock_stock _ b⟩
      obtain ⟨u, written, kept⟩ := persisted
      rw [written]
      have after := filled.congr kept
      have bound' : f < u.nextFile := by
        have next : u.nextFile = t.nextFile := congrArg Stock.nextFile kept
        rw [next, nextFile]
        exact bound
      have attached : ∃ v rest, (if !ids.isEmpty && isNew then (u.addFileBlockNoLock f b).1 else u) = v ∧
          Stocked v fhs rest ∧ f < v.nextFile := by
        split
        · next both =>
          obtain ⟨⟨rest, rfl⟩, bare, _⟩ := new (Bool.and_eq_true_iff.mp both).2
          have same' : u.attached f = s.attached f := by
            have here : (u.files f).itemMaps = (s.files f).itemMaps :=
              (congrFun (congrArg Stock.items kept) f).trans (congrFun (congrArg Stock.items same) f)
            rw [FileSystem.attached, here, FileSystem.attached]
          refine ⟨_, rest, rfl, after.addsBlock bound' (same'.trans bare), ?_⟩
          rwa [addFileBlockNoLock_nextFile]
        · exact ⟨u, fbhs, rfl, after, bound'⟩
      obtain ⟨v, rest, here, stocked', bound''⟩ := attached
      dsimp only
      rw [here]
      have final := entered v rest stocked' bound''
      split <;> next w same' =>
        rw [same'] at final
        exact ⟨rest, final⟩

/-- A growth keeps the stock, whatever its result. -/
theorem Stocked.extendFile (stocked : Stocked s fhs fbhs) (bound : f < s.nextFile) (ok : env.IoOk)
    {offset : Nat} (result : s.extendFile env f offset = .ok (s', r)) :
    ∃ fbhs', Stocked s' fhs fbhs' := by
  have ended {isNew : Bool} {t : FileSystem} {b : FileBlockPtr} {needed : Nat}
      (kept : ∃ fbhs', Stocked (t.extendBlocks env f offset needed b isNew).1 fhs fbhs')
      (result : (Except.ok (t.extendBlocks env f offset needed b isNew) : Except Fault _) =
        .ok (s', r)) : ∃ fbhs', Stocked s' fhs fbhs' := by
    rwa [congrArg Prod.fst (Except.ok.inj result)] at kept
  have unchanged (result : (Except.ok (s, (-1 : Int)) : Except Fault _) = .ok (s', r)) :
      ∃ fbhs', Stocked s' fhs fbhs' := by
    obtain ⟨rfl, _⟩ := Prod.mk.inj (Except.ok.inj result)
    exact ⟨fbhs, stocked⟩
  unfold FileSystem.extendFile at result
  split at result
  · exact unchanged result
  · dsimp only at result
    split at result
    · split at result
      · simp at result
      · next empty =>
        obtain ⟨⟨t, taken⟩, first, rest⟩ := Except.bind_eq_ok.mp result
        have bare : (s.files f).itemMaps.entries = [] := List.length_eq_zero_iff.mp (not_not.mp empty)
        unfold getFileBlockLock at first
        split at first
        · obtain ⟨rfl, rfl⟩ := Prod.mk.inj (Except.ok.inj first)
          exact unchanged rest
        · next b rest' free =>
          have head := stocked.cleanFbhs b (free ▸ List.mem_cons_self)
          rw [if_neg (by simp [head.1]), if_neg (by simp [head.2])] at first
          obtain ⟨rfl, rfl⟩ := Prod.mk.inj (Except.ok.inj first)
          have held := stocked.takesBlock free
          refine ended (held.extendBlocks bound (held.fbh_not_free (by simp)) (fun _ => ?_) ok _ _) rest
          exact ⟨⟨fbhs, rfl⟩, List.map_eq_nil_iff.mpr bare, head⟩
    · split at result
      · simp at result
      · split at result
        · exact unchanged result
        · next b found =>
          split at result
          · exact unchanged result
          · have member : b ∈ s.attached f := by
              have entry := AList.mem_lookup_iff.mp found
              exact List.mem_map.mpr ⟨_, entry, rfl⟩
            exact ended (stocked.extendBlocks bound (stocked.attached_not_free bound member)
              (fun new => by simp at new) ok _ _) result

end Growing

/-- Where the files are and what waits for its recycling. -/
structure Holders where
  metaSlots : FilePtr → Nat
  items : FilePtr → Map Nat FileBlockPtr
  nextFile : Nat
  parents : Map Nat ParentFile

def holders (s : FileSystem) : Holders :=
  { metaSlots := fun f => (s.files f).metaSlot
    items := fun f => (s.files f).itemMaps
    nextFile := s.nextFile
    parents := s.parentFiles }

section Shrinking
variable [Crc32] {s s' t : FileSystem} {env : Env} {f : FilePtr} {b : FileBlockPtr}
  {fhs fbhs : Multiset Nat} {r : Int}

omit [Crc32] in
theorem holders_of_stock (same : t.stock = s.stock) : t.holders = s.holders := by
  have slots : (fun f => (t.files f).metaSlot) = fun f => (s.files f).metaSlot :=
    congrArg Stock.metaSlots same
  have items : (fun f => (t.files f).itemMaps) = fun f => (s.files f).itemMaps :=
    congrArg Stock.items same
  unfold holders
  rw [slots, items, show t.nextFile = s.nextFile from congrArg Stock.nextFile same,
    show t.parentFiles = s.parentFiles from congrArg Stock.parents same]

omit [Crc32] in
theorem Stocked.parentFiles (stocked : Stocked s fhs fbhs) (parents : Map Nat ParentFile) :
    Stocked { s with parentFiles := parents } fhs fbhs := { stocked with }

omit [Crc32] in
/-- The child slot of a shrinking file comes from the free list. -/
theorem Stocked.newFreeFileMeta (stocked : Stocked s fhs fbhs) {dh : Nat} {name : Name}
    {child : Option Nat} (result : s.newFreeFileMeta dh name = (t, child)) :
    t.holders = s.holders ∧ Stocked t ((child.toList : List Nat) + fhs) fbhs := by
  have kept (e : Errno) (result : ({ s with errno := e }, none) = (t, child)) :
      t.holders = s.holders ∧ Stocked t ((child.toList : List Nat) + fhs) fbhs := by
    obtain ⟨rfl, rfl⟩ := Prod.mk.inj result
    have none : (((none : Option Nat).toList : List Nat) : Multiset Nat) + fhs = fhs := by simp
    rw [none]
    exact ⟨rfl, stocked.congr rfl⟩
  unfold FileSystem.newFreeFileMeta at result
  split at result
  · exact kept _ result
  · next fh rest free =>
    split at result
    · exact kept _ result
    · obtain ⟨rfl, rfl⟩ := Prod.mk.inj result
      have held := stocked.takesSlot free
      exact ⟨rfl, held.touchMeta (i := fh) (held.fh_not_free (by simp))
        (fun m => { m with used := true, fh := fh, dh := dh, fileName := name })
        (stocked.slots fh).symm⟩

omit [Crc32] in
/-- The file block of the child, where it needs one, stays in hand. -/
theorem Stocked.shrinkFileBlock (stocked : Stocked s fhs fbhs) {newFh offset : Nat}
    {child : Option (Option FileBlockPtr)}
    (result : s.shrinkFileBlock env f newFh offset = .ok (t, child)) :
    t.holders = s.holders ∧ ∃ rest, Stocked t fhs ((child.join.toList : List Nat) + rest) := by
  have bare (u : FileSystem) (child : Option (Option FileBlockPtr)) (none : child.join = none)
      (same : u.holders = s.holders) (rest : Multiset Nat) (stocked : Stocked u fhs rest)
      {child' : Option (Option FileBlockPtr)}
      (result : (Except.ok (u, child) : Except Fault _) = .ok (t, child')) :
      t.holders = s.holders ∧ ∃ rest, Stocked t fhs ((child'.join.toList : List Nat) + rest) := by
    obtain ⟨rfl, rfl⟩ := Prod.mk.inj (Except.ok.inj result)
    rw [none]
    exact ⟨same, rest, by simpa using stocked⟩
  unfold FileSystem.shrinkFileBlock at result
  dsimp only at result
  split at result
  · exact bare s (some none) rfl rfl fbhs stocked result
  · obtain ⟨⟨u, taken⟩, first, rest⟩ := Except.bind_eq_ok.mp result
    unfold getFileBlockLock at first
    split at first
    · obtain ⟨rfl, rfl⟩ := Prod.mk.inj (Except.ok.inj first)
      exact bare s none rfl rfl fbhs stocked rest
    · next b rest' free =>
      have head := stocked.cleanFbhs b (free ▸ List.mem_cons_self)
      rw [if_neg (by simp [head.1]), if_neg (by simp [head.2])] at first
      obtain ⟨rfl, rfl⟩ := Prod.mk.inj (Except.ok.inj first)
      have held := stocked.takesBlock free
      have off := held.fbh_not_free (b := b) (by simp)
      dsimp only at rest
      split at rest
      · simp at rest
      · next oldFb _ =>
        split at rest
        · simp at rest
        · split at rest
          · obtain ⟨rfl, rfl⟩ := Prod.mk.inj (Except.ok.inj rest)
            exact ⟨rfl, fbhs, held.touchBlock off _⟩
          · generalize inherited : (if offset / kBlockSize % 2 ^ 32 = 0 then _ else _) = new at rest
            have touched := held.touchBlock off new
            have base : ({ s with freeFbhs := rest' }.setFileBlockMeta b new).holders = s.holders := rfl
            generalize { s with freeFbhs := rest' }.setFileBlockMeta b new = u at rest touched base
            split at rest
            · exact bare u none rfl base _ touched rest
            · next v ids taken =>
              have same := getFreeBlockIdLock_stock u env taken
              have supplied := touched.congr same
              have base' := (holders_of_stock same).trans base
              have copied := copyData_stock v env ((s.fileBlockMetas oldFb).blockId
                (offset / kBlockSize % 2 ^ 32 % kFileBlockCapacity)) (ids.headD 0) 0 (offset % kBlockSize)
              split at rest
              · next w failed =>
                rw [failed] at copied
                exact bare w none rfl ((holders_of_stock copied).trans base') _
                  (supplied.congr copied) rest
              · next w done =>
                rw [done] at copied
                obtain ⟨rfl, rfl⟩ := Prod.mk.inj (Except.ok.inj rest)
                have after := supplied.congr copied
                exact ⟨(holders_of_stock copied).trans base', fbhs,
                  after.touchBlock (after.fbh_not_free (by simp)) _⟩

/-- The file block the parent left behind goes back to the free list. -/
theorem Stocked.recycleFileBlocks {fbMaps : Map Nat FileBlockPtr}
    (stocked : Stocked s fhs ((fbMaps.entries.map (·.2) : List Nat) + fbhs))
    (single : fbMaps.entries.length ≤ 1) (ok : env.IoOk) {blockNum : Nat}
    (result : recycleFileBlocks env fbMaps blockNum fbMaps.entries.length 0 0 s = .ok t) :
    t.holders = s.holders ∧ Stocked t fhs fbhs := by
  cases entries : fbMaps.entries with
  | nil =>
    rw [entries] at result stocked
    obtain rfl := Except.ok.inj result
    exact ⟨rfl, by simpa using stocked⟩
  | cons entry more =>
    have none : more = [] := by
      rw [entries, List.length_cons] at single
      exact List.length_eq_zero_iff.mp (by omega)
    subst none
    have one : fbMaps.entries.length = 1 := by rw [entries]; rfl
    rw [one, FileSystem.recycleFileBlocks] at result
    split at result
    · simp at result
    · next b found =>
      have listed := AList.mem_lookup_iff.mp found
      rw [entries, List.mem_singleton] at listed
      subst listed
      rw [entries] at stocked
      have ids := recycleIds_stock s blockNum (s.fileBlockMetas b).ids 0
      split at result
      next u index same =>
        rw [same] at ids
        rw [releaseMyself_ok ok] at result
        obtain rfl := Except.ok.inj result
        have held : Stocked u fhs ({b} + fbhs) := stocked.congr ids
        have back : (u.releasedFileBlock b).holders = u.holders := rfl
        exact ⟨back.trans (holders_of_stock ids), held.releasesBlock⟩

omit [Crc32] in
theorem parents_congr (same : t.holders = s.holders) : t.parentFiles = s.parentFiles :=
  congrArg Holders.parents same

/-- The parent slot and its file block are free again. -/
theorem Stocked.recycle {parent : ParentFile} (stocked : Stocked s ({parent.metaSlot} + fhs)
      ((parent.fbMaps.entries.map (·.2) : List Nat) + fbhs))
    (single : parent.fbMaps.entries.length ≤ 1) (ok : env.IoOk) {done : Bool}
    (result : s.recycle env parent = .ok (t, done)) :
    t.holders = s.holders ∧ Stocked t fhs fbhs := by
  obtain ⟨u, blocks, rest⟩ := Except.bind_eq_ok.mp result
  obtain ⟨same, held⟩ := stocked.recycleFileBlocks single ok blocks
  have cleared := held.touchMeta (held.fh_not_free (i := parent.metaSlot) (by simp)) FileMeta.clear rfl
  have here : (u.modifyFileMeta parent.metaSlot FileMeta.clear).fileMetas parent.metaSlot =
      (u.fileMetas parent.metaSlot).clear := Function.update_self _ _ _
  have base : (u.modifyFileMeta parent.metaSlot FileMeta.clear).holders = u.holders := rfl
  generalize u.modifyFileMeta parent.metaSlot FileMeta.clear = v at rest cleared here base
  have saved := saveFile_stock v (v.fileMetas parent.metaSlot).fh
  dsimp only at rest
  rw [writeFileMeta_ok ok] at rest
  obtain ⟨rfl, _⟩ := Prod.mk.inj (Except.ok.inj rest)
  have after := cleared.congr saved
  have clean : ((v.saveFile (v.fileMetas parent.metaSlot).fh).fileMetas parent.metaSlot).used = false ∧
      ((v.saveFile (v.fileMetas parent.metaSlot).fh).fileMetas parent.metaSlot).size = 0 := by
    refine ⟨(congrFun (congrArg Stock.used saved) parent.metaSlot).trans ?_,
      (congrFun (congrArg Stock.sizes saved) parent.metaSlot).trans ?_⟩
    · exact congrArg (·.used) here
    · exact congrArg (·.size) here
  rw [after.slots]
  exact ⟨(holders_of_stock saved).trans (base.trans same), after.putsSlot clean⟩

theorem Stocked.recycleParentFh {parent : ParentFile} (stocked : Stocked s ({parent.metaSlot} + fhs)
      ((parent.fbMaps.entries.map (·.2) : List Nat) + fbhs))
    (single : parent.fbMaps.entries.length ≤ 1)
    (parents : s.parentFiles = (∅ : Map Nat ParentFile).insert parent.metaSlot parent) (ok : env.IoOk)
    (result : s.recycleParentFh env f parent.metaSlot = .ok (t, r)) :
    t.parentFiles = ∅ ∧ Stocked t fhs fbhs := by
  obtain ⟨⟨u, done⟩, removed, rest⟩ := Except.bind_eq_ok.mp result
  unfold removeParentFile at removed
  rw [parents, AList.lookup_insert] at removed
  have none : (AList.insert parent.metaSlot parent (∅ : Map Nat ParentFile)).erase parent.metaSlot = ∅ :=
    erase_singleton parent.metaSlot parent
  dsimp only at removed
  rw [none] at removed
  obtain ⟨same, free⟩ := (stocked.parentFiles ∅).recycle single ok removed
  have empty : u.parentFiles = ∅ := parents_congr same
  dsimp only at rest
  split at rest
  · obtain ⟨rfl, _⟩ := Prod.mk.inj (Except.ok.inj rest)
    exact ⟨empty, free⟩
  · have adopted := modifyFileMeta_stock u (u.files f).metaSlot
      (fun m => { m with parentFh := -1, parentSize := 0 }) rfl rfl rfl
    rw [writeMeta, writeFileMeta_ok ok] at rest
    obtain ⟨rfl, _⟩ := Prod.mk.inj (Except.ok.inj rest)
    exact ⟨empty, (free.congr adopted).congr (saveFile_stock _ _)⟩

/-- The writes that end a shrinking, and the recycling behind them. -/
theorem Stocked.shrinkPersist {parent : ParentFile} (stocked : Stocked s ({parent.metaSlot} + fhs)
      ((parent.fbMaps.entries.map (·.2) : List Nat) + fbhs))
    (single : parent.fbMaps.entries.length ≤ 1)
    (parents : s.parentFiles = (∅ : Map Nat ParentFile).insert parent.metaSlot parent) (ok : env.IoOk)
    {fileBlock : Option FileBlockPtr}
    (result : s.shrinkPersist env f parent.metaSlot fileBlock = .ok (t, r)) :
    t.parentFiles = ∅ ∧ Stocked t fhs fbhs := by
  have first := saveFile_stock s (s.fileMeta f).fh
  unfold FileSystem.shrinkPersist at result
  rw [writeMeta, writeFileMeta_ok ok] at result
  generalize s.saveFile (s.fileMeta f).fh = u at result first
  have ended (v : FileSystem) (same : v.stock = s.stock)
      (result : (v.saveFile parent.metaSlot).recycleParentFh env f parent.metaSlot = .ok (t, r)) :
      t.parentFiles = ∅ ∧ Stocked t fhs fbhs := by
    have saved := (saveFile_stock v parent.metaSlot).trans same
    exact recycleParentFh (stocked.congr saved) single
      ((parents_congr (holders_of_stock saved)).trans parents) ok result
  cases fileBlock with
  | none =>
    dsimp only at result
    rw [writeFileMeta_ok ok] at result
    exact ended u first result
  | some b =>
    dsimp only at result
    rw [writeFileBlockMeta_ok ok] at result
    dsimp only at result
    rw [writeFileMeta_ok ok] at result
    exact ended _ ((saveFileBlock_stock u b).trans first) result

omit [Crc32] in
theorem removeFileFromoDirectory_holders (s : FileSystem) (d : DirectoryPtr) (f : FilePtr) :
    (s.removeFileFromoDirectory d f).1.holders = s.holders := by
  have left (u : FileSystem) : (u.removeFileNoLock f).1.holders = u.holders := by
    unfold removeFileNoLock
    split
    · rfl
    · dsimp only
      split <;> rfl
  have delisted := holders_of_stock (removeChildFile_stock s f d)
  unfold removeFileFromoDirectory
  split <;> next u same =>
    rw [same] at delisted
    first
      | exact delisted
      | exact (left u).trans delisted

omit [Crc32] in
theorem addFileToDirectory_holders (s : FileSystem) (d : DirectoryPtr) (f : FilePtr) :
    (s.addFileToDirectory d f).holders = s.holders := by
  have enlisted := holders_of_stock (addChildFile_stock s f d)
  exact enlisted

omit [Crc32] in
/-- The file moves over to the child slot; its old slot stays in hand. -/
theorem Stocked.shrinkSwitch {x : Nat} (stocked : Stocked s ({x} + fhs) fbhs) (bound : f < s.nextFile)
    (dir : DirectoryPtr) :
    Stocked (s.shrinkSwitch dir f x) ({(s.files f).metaSlot} + fhs) fbhs ∧
      ((s.shrinkSwitch dir f x).files f).metaSlot = x ∧
      ((s.shrinkSwitch dir f x).files f).itemMaps = (s.files f).itemMaps ∧
      (s.shrinkSwitch dir f x).nextFile = s.nextFile ∧
      (s.shrinkSwitch dir f x).parentFiles = s.parentFiles := by
  have left := stocked.leavesDirectory dir f
  have same := removeFileFromoDirectory_holders s dir f
  unfold FileSystem.shrinkSwitch
  generalize (s.removeFileFromoDirectory dir f).1 = u at left same
  have slot : (u.files f).metaSlot = (s.files f).metaSlot :=
    congrFun (congrArg Holders.metaSlots same) f
  have items : (u.files f).itemMaps = (s.files f).itemMaps := congrFun (congrArg Holders.items same) f
  have nextFile : u.nextFile = s.nextFile := congrArg Holders.nextFile same
  have moved := left.moves (nextFile ▸ bound)
  have here := modifyFile_here u f fun o => { o with metaSlot := x }
  have base : (u.modifyFile f fun o => { o with metaSlot := x }).nextFile = u.nextFile := rfl
  have parents : (u.modifyFile f fun o => { o with metaSlot := x }).parentFiles = u.parentFiles := rfl
  dsimp only
  generalize (u.modifyFile f fun o => { o with metaSlot := x }) = v at moved here base parents
  have after := addFileToDirectory_holders v dir f
  rw [slot] at moved
  refine ⟨moved.entersDirectory (by rw [base, nextFile]; exact bound) dir, ?_, ?_, ?_, ?_⟩
  · exact (congrFun (congrArg Holders.metaSlots after) f).trans (congrArg (·.metaSlot) here)
  · exact (congrFun (congrArg Holders.items after) f).trans
      ((congrArg (·.itemMaps) here).trans items)
  · exact (congrArg Holders.nextFile after).trans (base.trans nextFile)
  · exact (congrArg Holders.parents after).trans (parents.trans (congrArg Holders.parents same))

/-- The second half of a shrinking, with the child slot and its file block in hand. -/
theorem Stocked.shrinkCommit {w offset : Nat} {fileBlock : Option FileBlockPtr}
    (stocked : Stocked s ({w} + fhs) ((fileBlock.toList : List Nat) + fbhs)) (bound : f < s.nextFile)
    (parents : s.parentFiles = ∅) (ok : env.IoOk)
    (result : s.shrinkCommit env f w (s.files f).metaSlot offset fileBlock = .ok (t, r)) :
    t.parentFiles = ∅ ∧ ∃ fhs' fbhs', Stocked t fhs' fbhs' := by
  have named := modifyFileMeta_stock s (s.files f).metaSlot
    (fun m => { m with childFh := (s.fileMetas w).fh }) rfl rfl rfl
  have slot : ((s.modifyFileMeta (s.files f).metaSlot fun m =>
      { m with childFh := (s.fileMetas w).fh }).files f).metaSlot = (s.files f).metaSlot := rfl
  have nextFile : (s.modifyFileMeta (s.files f).metaSlot fun m =>
      { m with childFh := (s.fileMetas w).fh }).nextFile = s.nextFile := rfl
  have empty : (s.modifyFileMeta (s.files f).metaSlot fun m =>
      { m with childFh := (s.fileMetas w).fh }).parentFiles = ∅ := parents
  have before := stocked.congr named
  unfold FileSystem.shrinkCommit at result
  dsimp only at result
  generalize (s.files f).metaSlot = o at *
  generalize (s.modifyFileMeta o fun m => { m with childFh := (s.fileMetas w).fh }) = u at *
  split at result
  · obtain ⟨rfl, _⟩ := Prod.mk.inj (Except.ok.inj result)
    exact ⟨empty, _, _, before⟩
  · next dir _ =>
    obtain ⟨switched, slot', items, nextFile', parents'⟩ :=
      before.shrinkSwitch (nextFile.symm ▸ bound) dir
    rw [slot] at switched
    generalize u.shrinkSwitch dir f w = v at result switched slot' items nextFile' parents'
    have bound' : f < v.nextFile := by rw [nextFile', nextFile]; exact bound
    have left := switched.detaches bound'
    have bare : (v.modifyFile f fun o => { o with itemMaps := ∅ }).attached f = [] := by
      rw [attached, modifyFile_here]
      rfl
    have slot'' : ((v.modifyFile f fun o => { o with itemMaps := ∅ }).files f).metaSlot = w := by
      rw [modifyFile_here]
      exact slot'
    have nextFile'' : (v.modifyFile f fun o => { o with itemMaps := ∅ }).nextFile = v.nextFile := rfl
    have empty' : (v.modifyFile f fun o => { o with itemMaps := ∅ }).parentFiles = ∅ :=
      parents'.trans empty
    have single := switched.single f bound'
    rw [attached, List.length_map] at single
    generalize (v.modifyFile f fun o => { o with itemMaps := ∅ }) = z at *
    rw [empty', if_neg (by simp), left.slots] at result
    have inserted := left.parentFiles ((∅ : Map Nat ParentFile).insert o
      { metaSlot := o, offset := offset, fbMaps := (v.files f).itemMaps })
    have ended (x : FileSystem) (rest : Multiset Nat)
        (stocked : Stocked x ({o} + fhs) ((v.attached f : List Nat) + rest))
        (slot : (x.files f).metaSlot = w) (bound : f < x.nextFile)
        (parents : x.parentFiles = (∅ : Map Nat ParentFile).insert o
          { metaSlot := o, offset := offset, fbMaps := (v.files f).itemMaps })
        (result : (x.modifyFileMeta w fun m => { m with size := offset }).shrinkPersist env f
          ((x.modifyFileMeta w fun m => { m with size := offset }).fileMetas o).fh fileBlock =
            .ok (t, r)) : t.parentFiles = ∅ ∧ ∃ fhs' fbhs', Stocked t fhs' fbhs' := by
      have off := stocked.metaSlot_not_free bound
      rw [slot] at off
      have sized := stocked.touchMeta off (fun m => { m with size := offset }) rfl
      rw [sized.slots] at result
      obtain ⟨empty, after⟩ := @shrinkPersist _ _ _ _ _ _ _ _
        { metaSlot := o, offset := offset, fbMaps := (v.files f).itemMaps }
        sized single parents ok _ result
      exact ⟨empty, _, _, after⟩
    cases fileBlock with
    | none => exact ended _ _ inserted slot'' (nextFile''.symm ▸ bound') rfl result
    | some b =>
      have order : ((v.attached f : List Nat) : Multiset Nat) + (((some b).toList : List Nat) + fbhs) =
          {b} + ((v.attached f : List Nat) + fbhs) := by
        change _ + ({b} + fbhs) = _
        abel
      rw [order] at inserted
      refine ended _ _ (inserted.addsBlock (nextFile''.symm ▸ bound') bare) ?_ ?_ ?_ result
      · rw [addFileBlockNoLock_metaSlot]
        exact slot''
      · rw [addFileBlockNoLock_nextFile]
        exact nextFile''.symm ▸ bound'
      · rw [addFileBlockNoLock_parentFiles]

/-- A shrinking keeps the stock, whatever its result. -/
theorem Stocked.shrinkFile (stocked : Stocked s fhs fbhs) (bound : f < s.nextFile)
    (parents : s.parentFiles = ∅) (ok : env.IoOk) {offset : Nat}
    (result : s.shrinkFile env f offset = .ok (t, r)) : Settled t := by
  unfold FileSystem.shrinkFile at result
  split at result
  · next u same =>
    obtain ⟨rfl, _⟩ := Prod.mk.inj (Except.ok.inj result)
    obtain ⟨holders, kept⟩ := stocked.newFreeFileMeta same
    exact ⟨(parents_congr holders).trans parents, _, _, kept⟩
  · next u w same =>
    obtain ⟨holders, kept⟩ := stocked.newFreeFileMeta same
    have sized := kept.touchMeta (kept.fh_not_free (i := w) (by simp)) (fun m =>
      { m with
        isTemp := (u.fileMetas (u.files f).metaSlot).isTemp
        parentFh := (u.fileMetas (u.files f).metaSlot).fh
        parentSize := offset / kBlockSize % 2 ^ 32 * kBlockSize
        size := offset / kBlockSize % 2 ^ 32 * kBlockSize }) rfl
    obtain ⟨⟨v, child⟩, blocks, rest⟩ := Except.bind_eq_ok.mp result
    obtain ⟨holders', rest', held⟩ := sized.shrinkFileBlock blocks
    have same' : v.holders = s.holders := holders'.trans holders
    have nextFile : v.nextFile = s.nextFile := congrArg Holders.nextFile same'
    have parents' : v.parentFiles = ∅ := (parents_congr same').trans parents
    have slot : (v.files f).metaSlot = (u.files f).metaSlot :=
      congrFun (congrArg Holders.metaSlots holders') f
    cases child with
    | none =>
      obtain ⟨rfl, _⟩ := Prod.mk.inj (Except.ok.inj rest)
      exact ⟨parents', _, _, held⟩
    | some fileBlock =>
      dsimp only at rest
      rw [← slot] at rest
      exact Stocked.shrinkCommit held (nextFile.symm ▸ bound) parents' ok rest

omit [Crc32] in
theorem getFreeBlockIdLock_parentFiles {n : Nat} {ids : List Nat}
    (taken : s.getFreeBlockIdLock env n = some (t, ids)) : t.parentFiles = s.parentFiles :=
  congrArg Stock.parents (getFreeBlockIdLock_stock s env taken)

theorem writeFileBlockMeta_parentFiles (s : FileSystem) (b : FileBlockPtr) :
    (s.writeFileBlockMeta env b).1.parentFiles = s.parentFiles :=
  congrArg Stock.parents (writeFileBlockMeta_stock s env b)

theorem writeMeta_parentFiles (s : FileSystem) (f : FilePtr) :
    (s.writeMeta env f).1.parentFiles = s.parentFiles :=
  congrArg Stock.parents (writeMeta_stock s env f)

theorem extendBlocks_parentFiles (s : FileSystem) (offset needed : Nat) (b : FileBlockPtr)
    (isNew : Bool) : (s.extendBlocks env f offset needed b isNew).1.parentFiles = s.parentFiles := by
  unfold FileSystem.extendBlocks
  grind only [putFileBlockLock, setFileBlockMeta, modifyFileMeta, getFreeBlockIdLock_parentFiles,
    writeFileBlockMeta_parentFiles, addFileBlockNoLock_parentFiles, writeMeta_parentFiles]

omit [Crc32] in
theorem getFileBlockLock_parentFiles {b : Option FileBlockPtr}
    (taken : s.getFileBlockLock = .ok (t, b)) : t.parentFiles = s.parentFiles := by
  unfold getFileBlockLock at taken
  grind only

theorem extendFile_parentFiles {offset : Nat} (result : s.extendFile env f offset = .ok (t, r)) :
    t.parentFiles = s.parentFiles := by
  unfold FileSystem.extendFile at result
  grind only [Except.bind_eq_ok, getFileBlockLock_parentFiles, extendBlocks_parentFiles]

/-- A truncation keeps the stock, whatever its result. -/
theorem Settled.ftruncate (settled : Settled s) (bound : f < s.nextFile) (ok : env.IoOk)
    {offset : Nat} (result : s.ftruncate env f offset = .ok (t, r)) : Settled t := by
  obtain ⟨parents, fhs, fbhs, stocked⟩ := settled
  unfold FileSystem.ftruncate at result
  split at result
  · obtain ⟨fbhs', after⟩ := stocked.extendFile bound ok result
    exact ⟨(extendFile_parentFiles result).trans parents, fhs, fbhs', after⟩
  · split at result
    · exact stocked.shrinkFile bound parents ok result
    · obtain ⟨rfl, _⟩ := Prod.mk.inj (Except.ok.inj result)
      exact ⟨parents, fhs, fbhs, stocked⟩

end Shrinking

end BlockFs.FileSystem
