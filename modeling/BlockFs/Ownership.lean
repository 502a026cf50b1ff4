import BlockFs.Remount
import BlockFs.Runs

namespace BlockFs

/-- A slot of the image that belongs to a file block which is in use and not temporary. -/
def Disk.Lists (d : Disk) (i : Nat) : Prop :=
  i < d.superMeta.maxFileBlockNum ∧ (d.fileBlockMetas i).used = true ∧ (d.fileBlockMetas i).isTemp = false

/-- What the loading of an image has checked: no block is listed twice, within a slot or by two,
every listed block exists, every listing slot belongs to a file of the image, and the pool is what
the slots leave. -/
structure Disk.Validated (d : Disk) (s : FileSystem) : Prop where
  distinct : ∀ i, d.Lists i → (d.fileBlockMetas i).ids.Nodup
  apart : ∀ i, d.Lists i → ∀ j, d.Lists j → i ≠ j →
    ∀ id ∈ (d.fileBlockMetas i).ids, id ∉ (d.fileBlockMetas j).ids
  counted : ∀ i, d.Lists i → ∀ id ∈ (d.fileBlockMetas i).ids, id < d.superMeta.currBlockNum
  owned : ∀ i, d.Lists i → ∃ x < d.superMeta.maxFileNum, (d.fileMetas x).used = true ∧
    (d.fileMetas x).isTemp = false ∧ (d.fileMetas x).fh = (d.fileBlockMetas i).fh
  once : s.blockIdPool.Nodup
  pool : ∀ id, id ∈ s.blockIdPool ↔
    id < d.superMeta.currBlockNum ∧ ∀ i, d.Lists i → id ∉ (d.fileBlockMetas i).ids
  slots : ∀ i, d.Lists i → s.fileBlockMetas i = d.fileBlockMetas i
  cleared : ∀ i < d.superMeta.maxFileBlockNum, ¬d.Lists i → (s.fileBlockMetas i).used = false

namespace FileSystem

/-- The handles that `created_fhs_` knows are those of files on the image. -/
def Enrolled (d : Disk) (s : FileSystem) : Prop :=
  ∀ x f, s.createdFhs.lookup x = some f → x < d.superMeta.maxFileNum ∧ (d.fileMetas x).used = true ∧
    (d.fileMetas x).isTemp = false ∧ (d.fileMetas x).fh = x

/-- The file-block loop has visited the slots `seen`. -/
structure Claimed (d : Disk) (seen : List Nat) (s : FileSystem) : Prop where
  enrolled : Enrolled d s
  distinct : ∀ i ∈ seen, d.Lists i → (d.fileBlockMetas i).ids.Nodup
  apart : ∀ i ∈ seen, d.Lists i → ∀ j ∈ seen, d.Lists j → i ≠ j →
    ∀ id ∈ (d.fileBlockMetas i).ids, id ∉ (d.fileBlockMetas j).ids
  counted : ∀ i ∈ seen, d.Lists i → ∀ id ∈ (d.fileBlockMetas i).ids, id < d.superMeta.currBlockNum
  owned : ∀ i ∈ seen, d.Lists i → ∃ f, s.createdFhs.lookup (d.fileBlockMetas i).fh = some f
  once : s.blockIdPool.Nodup
  pool : ∀ id, id ∈ s.blockIdPool ↔
    id < d.superMeta.currBlockNum ∧ ∀ i ∈ seen, d.Lists i → id ∉ (d.fileBlockMetas i).ids
  slots : ∀ i, (i ∈ seen → d.Lists i) → s.fileBlockMetas i = d.fileBlockMetas i
  cleared : ∀ i ∈ seen, ¬d.Lists i → (s.fileBlockMetas i).used = false

section Files
variable [Crc32] {d : Disk} {s s' : FileSystem} {env : Env} {i : Nat} {rest : List Nat}

theorem Enrolled.initFileSlot (enrolled : Enrolled d s) (loading : Loading d (i :: rest) s)
    (bound : i < d.superMeta.maxFileNum) (done : s.initFileSlot env i = (s', true)) : Enrolled d s' := by
  have slot := loading.ahead i List.mem_cons_self
  have used : (s.fileMetas i).used = (d.fileMetas i).used := congrArg Identity.used slot
  have isTemp : (s.fileMetas i).isTemp = (d.fileMetas i).isTemp := congrArg Identity.isTemp slot
  have fh : (s.fileMetas i).fh = (d.fileMetas i).fh := congrArg Identity.fh slot
  unfold FileSystem.initFileSlot at done
  dsimp only at done
  split at done
  · simp at done
  split at done
  swap
  · obtain ⟨rfl, _⟩ := Prod.mk.inj done
    exact enrolled
  next here =>
  split at done
  · have state : s'.createdFhs = s.createdFhs := by
      rw [show s' = _ from (congrArg Prod.fst done).symm, FileSystem.writeFileMeta, pwriteDirect]
      split <;> rfl
    unfold Enrolled
    rw [state]
    exact enrolled
  next lasting =>
  split at done
  · simp at done
  split at done
  · simp at done
  next own =>
  have own : (s.fileMetas i).fh = i := not_not.mp own
  -- The new file is entered under the handle of its slot, with a name or without.
  have entered (u : FileSystem) (same : u.createdFhs = s.createdFhs.insert i s.nextFile) : Enrolled d u := by
    intro x f found
    rw [same] at found
    rcases lookup_of_insert found with ⟨rfl, _⟩ | ⟨_, before⟩
    · exact ⟨bound, used ▸ here, isTemp ▸ Bool.eq_false_iff.mpr lasting, fh ▸ own⟩
    · exact enrolled x f before
  have added (u : FileSystem) (dir : DirectoryPtr) : (u.addChildFile dir s.nextFile).1.createdFhs = u.createdFhs := by
    unfold addChildFile
    split <;> rfl
  split at done
  · simp at done
  · next dir _ =>
    rw [show s' = _ from (congrArg Prod.fst done).symm]
    refine entered _ ((added _ dir).trans ?_)
    split
    · exact congrArg (fun x => s.createdFhs.insert x s.nextFile) own
    · have slot : ({ s with
          files := Function.update s.files s.nextFile
            { metaSlot := i, nlink := 0, locked := false, deleted := false, itemMaps := ∅ }
          nextFile := s.nextFile + 1 }.fileMeta s.nextFile).fh = i := by
        rw [fileMeta]
        dsimp only
        rw [Function.update_self]
        exact own
      rw [addFileNoLock, slot]

theorem Enrolled.loop {slots : List Nat} (enrolled : Enrolled d s) (loading : Loading d slots s)
    (nodup : slots.Nodup) (bounds : ∀ i ∈ slots, i < d.superMeta.maxFileNum)
    (done : loadLoop (FileSystem.initFileSlot env) slots s = (s', true)) : Enrolled d s' := by
  let holds (rest : List Nat) (s : FileSystem) : Prop :=
    Loading d rest s ∧ Enrolled d s ∧ ∀ i ∈ rest, i < d.superMeta.maxFileNum
  have last : holds [] s' := by
    refine @loadFiles s s' _ env holds ?_ slots ⟨loading, enrolled, bounds⟩ nodup done
    rintro i rest s t ⟨loading, enrolled, bounds⟩ once result
    exact ⟨loading.initFileSlot once result,
      enrolled.initFileSlot loading (bounds i List.mem_cons_self) result,
      fun j member => bounds j (List.mem_cons_of_mem i member)⟩
  exact last.2.1

end Files

section Blocks
variable [Crc32] {d : Disk} {s s' : FileSystem} {env : Env} {i : Nat} {seen : List Nat}

omit [Crc32] in
/-- The ids of a slot are taken out of the pool one by one, so none of them can come twice. -/
theorem takeSpecificBlockIds_taken {m : FileBlockMeta} {fuel first : Nat}
    (once : s.blockIdPool.Nodup)
    (done : takeSpecificBlockIds m fuel first s = .ok (s', true)) :
    ((List.range' first fuel).map m.blockId).Nodup ∧
      (∀ id ∈ (List.range' first fuel).map m.blockId, id ∈ s.blockIdPool) ∧
      s' = { s with blockIdPool := s'.blockIdPool } ∧ s'.blockIdPool.Nodup ∧
      ∀ id, id ∈ s'.blockIdPool ↔ id ∈ s.blockIdPool ∧ id ∉ (List.range' first fuel).map m.blockId := by
  induction fuel generalizing first s with
  | zero =>
    obtain ⟨rfl, _⟩ := Prod.mk.inj (Except.ok.inj done)
    exact ⟨List.nodup_nil, by simp, rfl, once, by simp⟩
  | succ fuel ih =>
    obtain ⟨id, entry, rest⟩ := Except.bind_eq_ok.mp done
    have here : id = m.blockId first := by
      unfold FileBlockMeta.getBlockId at entry
      split at entry
      · exact (Except.ok.inj entry).symm
      · simp at entry
    subst here
    split at rest
    swap
    · simp at rest
    next free =>
    obtain ⟨nodup, members, same, once', pool⟩ := ih (once.erase (m.blockId first)) rest
    dsimp only at members pool
    have table : (List.range' first (fuel + 1)).map m.blockId =
        m.blockId first :: (List.range' (first + 1) fuel).map m.blockId := by
      rw [List.range'_succ, List.map_cons]
    rw [table]
    refine ⟨List.nodup_cons.mpr ⟨fun member => ?_, nodup⟩, fun id member => ?_, ?_, once', fun id => ?_⟩
    · exact once.not_mem_erase (members _ member)
    · rcases List.mem_cons.mp member with rfl | later
      · exact free
      · exact List.mem_of_mem_erase (members id later)
    · exact same
    · rw [pool, once.mem_erase_iff, List.mem_cons, not_or]
      constructor
      · rintro ⟨⟨other, there⟩, off⟩
        exact ⟨there, other, off⟩
      · rintro ⟨there, other, off⟩
        exact ⟨⟨other, there⟩, off⟩

omit [Crc32] in
theorem takeSpecificBlockIds_ids {m : FileBlockMeta} (once : s.blockIdPool.Nodup)
    (done : takeSpecificBlockIds m m.usedBlockNum 0 s = .ok (s', true)) :
    m.ids.Nodup ∧ (∀ id ∈ m.ids, id ∈ s.blockIdPool) ∧ s' = { s with blockIdPool := s'.blockIdPool } ∧
      s'.blockIdPool.Nodup ∧ ∀ id, id ∈ s'.blockIdPool ↔ id ∈ s.blockIdPool ∧ id ∉ m.ids := by
  have taken := takeSpecificBlockIds_taken once done
  rw [← List.range_eq_range'] at taken
  exact taken

omit [Crc32] in
/-- A slot that lists nothing leaves the pool as it is. -/
theorem Claimed.skip (claimed : Claimed d seen s) (new : i ∉ seen) (idle : ¬d.Lists i)
    (pool : s'.blockIdPool = s.blockIdPool) (fhs : s'.createdFhs = s.createdFhs)
    (slots : ∀ j, j ≠ i → s'.fileBlockMetas j = s.fileBlockMetas j)
    (cleared : (s'.fileBlockMetas i).used = false) : Claimed d (i :: seen) s' := by
  have before {j : Nat} (member : j ∈ i :: seen) (lists : d.Lists j) : j ∈ seen := by
    rcases List.mem_cons.mp member with rfl | there
    · exact absurd lists idle
    · exact there
  refine
    { enrolled := fun x f found => claimed.enrolled x f (fhs ▸ found)
      distinct := fun j member lists => claimed.distinct j (before member lists) lists
      apart := fun j member lists k member' lists' =>
        claimed.apart j (before member lists) lists k (before member' lists') lists'
      counted := fun j member lists => claimed.counted j (before member lists) lists
      owned := fun j member lists => ?_
      once := by rw [pool]; exact claimed.once
      pool := fun id => ?_
      slots := fun j known => ?_
      cleared := fun j member unlisted => ?_ }
  · rw [fhs]
    exact claimed.owned j (before member lists) lists
  · rw [pool, claimed.pool]
    constructor
    · rintro ⟨low, off⟩
      exact ⟨low, fun j member lists => off j (before member lists) lists⟩
    · rintro ⟨low, off⟩
      exact ⟨low, fun j member lists => off j (List.mem_cons_of_mem i member) lists⟩
  · by_cases here : j = i
    · exact absurd (known (here ▸ List.mem_cons_self)) (here ▸ idle)
    · rw [slots j here]
      exact claimed.slots j fun member => known (List.mem_cons_of_mem i member)
  · by_cases here : j = i
    · exact here ▸ cleared
    · rw [slots j here]
      exact claimed.cleared j ((List.mem_cons.mp member).resolve_left here) unlisted

omit [Crc32] in
/-- A slot whose ids have been taken out of the pool. -/
theorem Claimed.claim (claimed : Claimed d seen s) (lists : d.Lists i) {f : FilePtr}
    (owner : s.createdFhs.lookup (d.fileBlockMetas i).fh = some f)
    (nodup : (d.fileBlockMetas i).ids.Nodup)
    (free : ∀ id ∈ (d.fileBlockMetas i).ids, id ∈ s.blockIdPool) (once : s'.blockIdPool.Nodup)
    (pool : ∀ id, id ∈ s'.blockIdPool ↔ id ∈ s.blockIdPool ∧ id ∉ (d.fileBlockMetas i).ids)
    (fhs : s'.createdFhs = s.createdFhs) (slots : s'.fileBlockMetas = s.fileBlockMetas) :
    Claimed d (i :: seen) s' := by
  have off {j : Nat} (member : j ∈ seen) (lists' : d.Lists j) {id : Nat}
      (listed : id ∈ (d.fileBlockMetas i).ids) : id ∉ (d.fileBlockMetas j).ids :=
    ((claimed.pool id).mp (free id listed)).2 j member lists'
  refine
    { enrolled := fun x f found => claimed.enrolled x f (fhs ▸ found)
      distinct := fun j member lists' => ?_
      apart := fun j member lists' k member' lists'' ne id listed => ?_
      counted := fun j member lists' id listed => ?_
      owned := fun j member lists' => ?_
      once := once
      pool := fun id => ?_
      slots := fun j known => ?_
      cleared := fun j member unlisted => ?_ }
  · rcases List.mem_cons.mp member with rfl | there
    · exact nodup
    · exact claimed.distinct j there lists'
  · rcases List.mem_cons.mp member with rfl | there
    · rcases List.mem_cons.mp member' with rfl | there'
      · exact absurd rfl ne
      · exact off there' lists'' listed
    · rcases List.mem_cons.mp member' with rfl | there'
      · exact fun also => off there lists' also listed
      · exact claimed.apart j there lists' k there' lists'' ne id listed
  · rcases List.mem_cons.mp member with rfl | there
    · exact ((claimed.pool id).mp (free id listed)).1
    · exact claimed.counted j there lists' id listed
  · rw [fhs]
    rcases List.mem_cons.mp member with rfl | there
    · exact ⟨f, owner⟩
    · exact claimed.owned j there lists'
  · rw [pool, claimed.pool]
    constructor
    · rintro ⟨⟨low, before⟩, here⟩
      refine ⟨low, fun j member lists' => ?_⟩
      rcases List.mem_cons.mp member with rfl | there
      · exact here
      · exact before j there lists'
    · rintro ⟨low, all⟩
      exact ⟨⟨low, fun j member => all j (List.mem_cons_of_mem i member)⟩, all i List.mem_cons_self lists⟩
  · rw [slots]
    exact claimed.slots j fun member => known (List.mem_cons_of_mem i member)
  · rw [slots]
    rcases List.mem_cons.mp member with rfl | there
    · exact absurd lists unlisted
    · exact claimed.cleared j there unlisted

/-- One round of the file-block loop. -/
theorem Claimed.initFileBlockSlot (claimed : Claimed d seen s) (new : i ∉ seen)
    (bound : i < d.superMeta.maxFileBlockNum) (done : s.initFileBlockSlot env i = .ok (s', true)) :
    Claimed d (i :: seen) s' := by
  have slot : s.fileBlockMetas i = d.fileBlockMetas i := claimed.slots i fun member => absurd member new
  unfold FileSystem.initFileBlockSlot at done
  dsimp only at done
  rw [slot] at done
  split at done
  · simp at done
  split at done
  swap
  · next unused =>
    obtain ⟨rfl, _⟩ := Prod.mk.inj (Except.ok.inj done)
    refine claimed.skip new (fun lists => unused lists.2.1) rfl rfl (fun _ _ => rfl) ?_
    dsimp only
    rw [slot]
    exact Bool.eq_false_iff.mpr unused
  next used =>
  split at done
  · next temporary =>
    -- A temporary slot is cleared in memory and on the device.
    have state : s' = _ := (congrArg Prod.fst (Except.ok.inj done)).symm
    have idle : ¬d.Lists i := fun lists => by simp [lists.2.2] at temporary
    have written : s'.blockIdPool = s.blockIdPool ∧ s'.createdFhs = s.createdFhs ∧
        s'.fileBlockMetas = Function.update s.fileBlockMetas i (d.fileBlockMetas i).clear.sealed := by
      rw [state, writeFileBlockMeta, pwriteDirect]
      split <;> simp
    obtain ⟨pool, fhs, slots⟩ := written
    refine claimed.skip new idle pool fhs (fun j other => ?_) ?_
    · rw [slots, Function.update_of_ne other]
    · rw [slots, Function.update_self]
      rfl
  next lasting =>
  split at done
  · simp at done
  next f owner =>
  obtain ⟨⟨t, all⟩, ids, rest⟩ := Except.bind_eq_ok.mp done
  cases all with
  | false => simp at rest
  | true =>
    obtain ⟨nodup, free, same, once, pool⟩ := takeSpecificBlockIds_ids claimed.once ids
    have state : s' = _ := (congrArg Prod.fst (Except.ok.inj rest)).symm
    have added : s'.blockIdPool = t.blockIdPool ∧ s'.createdFhs = t.createdFhs ∧
        s'.fileBlockMetas = t.fileBlockMetas := by
      rw [state, addFileBlockNoLock]
      split <;> exact ⟨rfl, rfl, rfl⟩
    obtain ⟨sameIds, fhs, slots⟩ := added
    refine claimed.claim ⟨bound, used, Bool.eq_false_iff.mpr lasting⟩ owner nodup free (sameIds ▸ once)
      (fun id => by rw [sameIds]; exact pool id) (fhs.trans ?_) (slots.trans ?_)
    · rw [same]
    · rw [same]

theorem Claimed.loop {slots : List Nat} (claimed : Claimed d seen s) (nodup : slots.Nodup)
    (new : ∀ i ∈ slots, i ∉ seen) (bounds : ∀ i ∈ slots, i < d.superMeta.maxFileBlockNum)
    (done : fileBlockLoop env slots s = .ok (s', true)) :
    ∃ visited, (∀ i, i ∈ visited ↔ i ∈ slots ∨ i ∈ seen) ∧ Claimed d visited s' := by
  induction slots generalizing s seen with
  | nil =>
    obtain ⟨rfl, _⟩ := Prod.mk.inj (Except.ok.inj done)
    exact ⟨seen, by simp, claimed⟩
  | cons i rest ih =>
    obtain ⟨⟨t, more⟩, first, later⟩ := Except.bind_eq_ok.mp done
    obtain ⟨once, nodup⟩ := List.nodup_cons.mp nodup
    cases more with
    | false => simp at later
    | true =>
      have claimed' := claimed.initFileBlockSlot (new i List.mem_cons_self) (bounds i List.mem_cons_self) first
      have fresh (j : Nat) (member : j ∈ rest) : j ∉ i :: seen := by
        intro there
        rcases List.mem_cons.mp there with rfl | before
        · exact once member
        · exact new j (List.mem_cons_of_mem i member) before
      obtain ⟨visited, same, after⟩ := ih claimed' nodup fresh
        (fun j member => bounds j (List.mem_cons_of_mem i member)) later
      refine ⟨visited, fun j => ?_, after⟩
      rw [same, List.mem_cons, List.mem_cons]
      tauto

end Blocks

section Mount
variable [Crc32] {d : Disk} {s t u : FileSystem} {env : Env}

/-- The loading of the files leaves the pool and the file blocks alone. -/
theorem initFileSlot_blocks (s : FileSystem) (env : Env) (i : Nat) :
    ((s.initFileSlot env i).1.superMeta, (s.initFileSlot env i).1.blockIdPool,
      (s.initFileSlot env i).1.fileBlockMetas) = (s.superMeta, s.blockIdPool, s.fileBlockMetas) := by
  have written (u : FileSystem) (fh : Nat) : ((u.writeFileMeta env fh).1.superMeta,
      (u.writeFileMeta env fh).1.blockIdPool, (u.writeFileMeta env fh).1.fileBlockMetas) =
      (u.superMeta, u.blockIdPool, u.fileBlockMetas) := by
    rw [FileSystem.writeFileMeta, pwriteDirect]
    split <;> rfl
  have added (u : FileSystem) (dir : DirectoryPtr) (f : FilePtr) : ((u.addChildFile dir f).1.superMeta,
      (u.addChildFile dir f).1.blockIdPool, (u.addChildFile dir f).1.fileBlockMetas) =
      (u.superMeta, u.blockIdPool, u.fileBlockMetas) := by
    unfold addChildFile
    split <;> rfl
  unfold initFileSlot
  dsimp only
  split
  · rfl
  split
  · split
    · exact written _ _
    split
    · rfl
    split
    · rfl
    split
    · split <;> rfl
    · refine (added _ _ _).trans ?_
      split <;> rfl
  · rfl

omit [Crc32] in
theorem claimed_start (enrolled : Enrolled d s)
    (pool : s.blockIdPool = List.range' 0 d.superMeta.currBlockNum)
    (slots : s.fileBlockMetas = d.fileBlockMetas) : Claimed d [] s where
  enrolled := enrolled
  distinct := nofun
  apart := nofun
  counted := nofun
  owned := nofun
  once := pool ▸ List.nodup_range'
  pool id := by
    rw [pool, List.mem_range'_1]
    simp
  slots i _ := by rw [slots]
  cleared := nofun

/-- An image that is loaded without an objection is valid, whatever its slots hold. -/
theorem initializeMeta_validated (bounded : d.superMeta.currBlockNum < 2 ^ 32)
    (dirs : (unmounted d).blockInitializeMeta.dirInitializeMeta = (s, true))
    (files : s.fileInitializeMeta env = (t, true))
    (fileBlocks : t.fileBlockInitializeMeta env = .ok (u, true)) : d.Validated u := by
  have side := dirInitializeMeta_fileSide (unmounted d).blockInitializeMeta
  rw [dirs] at side
  have super : s.superMeta = d.superMeta := congrArg FileSide.superMeta side
  have fhs : s.createdFhs = ∅ := congrArg FileSide.createdFhs side
  have pool : s.blockIdPool = List.range' 0 d.superMeta.currBlockNum := by
    rw [show s.blockIdPool = _ from congrArg FileSide.blockIdPool side, blockInitializeMeta]
    dsimp only [unmounted]
    rw [Nat.mod_eq_of_lt bounded]
    rfl
  rw [fileInitializeMeta, super] at files
  have start : Loading d (List.range' 0 d.superMeta.maxFileNum) (unmounted d).blockInitializeMeta :=
    ⟨fun i _ => rfl, fun g known => absurd known (Nat.not_lt_zero g)⟩
  have empty : Enrolled d s := fun x f found => by simp [fhs] at found
  have enrolled : Enrolled d t :=
    empty.loop (start.congr (berths_of_fileSide side)) List.nodup_range'
      (fun i member => by simpa using (List.mem_range'_1.mp member).2) files
  have kept := loadLoop_keeps (fun s => (s.superMeta, s.blockIdPool, s.fileBlockMetas))
    (initFileSlot_blocks · env) (List.range' 0 d.superMeta.maxFileNum) s
  rw [files] at kept
  obtain ⟨super', pool', slots'⟩ : t.superMeta = s.superMeta ∧ t.blockIdPool = s.blockIdPool ∧
    t.fileBlockMetas = s.fileBlockMetas := by simpa using kept
  have loop : fileBlockLoop env (List.range' 0 d.superMeta.maxFileBlockNum) t = .ok (u, true) := by
    rw [← super, ← super']
    exact fileBlocks
  obtain ⟨visited, all, claimed⟩ :=
    (claimed_start enrolled (pool'.trans pool)
      (slots'.trans (congrArg FileSide.fileBlockMetas side))).loop List.nodup_range' (fun _ _ => List.not_mem_nil)
      (fun i member => by simpa using (List.mem_range'_1.mp member).2) loop
  have visits {i : Nat} (bound : i < d.superMeta.maxFileBlockNum) : i ∈ visited :=
    (all i).mpr (.inl (List.mem_range'_1.mpr ⟨Nat.zero_le i, by simpa using bound⟩))
  refine
    { distinct := fun i lists => claimed.distinct i (visits lists.1) lists
      apart := fun i lists j lists' => claimed.apart i (visits lists.1) lists j (visits lists'.1) lists'
      counted := fun i lists => claimed.counted i (visits lists.1) lists
      owned := fun i lists => ?_
      once := claimed.once
      pool := fun id => ?_
      slots := fun i lists => claimed.slots i fun _ => lists
      cleared := fun i bound => claimed.cleared i (visits bound) }
  · obtain ⟨f, found⟩ := claimed.owned i (visits lists.1) lists
    obtain ⟨known, used, lasting, own⟩ := claimed.enrolled _ f found
    exact ⟨_, known, used, lasting, own⟩
  · rw [claimed.pool]
    exact and_congr_right fun _ => ⟨fun off i lists => off i (visits lists.1) lists, fun off i _ => off i⟩

omit [Crc32] in
/-- The image of a device with three data blocks and two slots of each kind: the root, a file, its
file block and a temporary file block that lists the same block. -/
def smallImage : Disk :=
  { size := 0
    superMeta := { @SuperBlock.formatAllMeta zeroCrc 0 with
      maxFileNum := 2
      maxFileBlockNum := 2
      currBlockNum := 3 }
    dirMetas := fun i => { @formattedDir zeroCrc i with used := i == 0, dirName := ['/'] }
    fileMetas := fun i => { @formattedFile zeroCrc i with used := i == 0, fileName := ['a'] }
    fileBlockMetas := fun i => { @formattedFileBlock zeroCrc i with
      fh := 0
      used := true
      isTemp := i == 1
      usedBlockNum := 2
      blockId := fun k => if k = 0 then 2 else 0 }
    data := fun _ => 0 }

omit [Crc32] in
theorem initializeMeta_validated_small :
    smallImage.Lists 0 ∧ ∃ u : FileSystem, u.blockIdPool = [1] ∧ smallImage.Validated u := by
  let _ := zeroCrc
  let dirs := (unmounted smallImage).blockInitializeMeta.dirInitializeMeta
  let files := dirs.1.fileInitializeMeta steadyEnv
  have loaded : (files.1.fileBlockInitializeMeta steadyEnv).toOption.any
      (fun loaded => loaded.2 && loaded.1.blockIdPool == [1]) = true := by decide +kernel
  cases result : files.1.fileBlockInitializeMeta steadyEnv with
  | error fault => simp [result, Except.toOption] at loaded
  | ok loaded' =>
    obtain ⟨u, all⟩ := loaded'
    obtain ⟨rfl, pool⟩ : all = true ∧ u.blockIdPool = [1] := by simpa [result, Except.toOption] using loaded
    have first : dirs = (dirs.1, true) := Prod.ext rfl (by decide +kernel)
    have second : dirs.1.fileInitializeMeta steadyEnv = (files.1, true) := Prod.ext rfl (by decide +kernel)
    exact ⟨⟨by decide, rfl, rfl⟩, u, pool, initializeMeta_validated (by decide) first second result⟩

end Mount

end FileSystem

end BlockFs
