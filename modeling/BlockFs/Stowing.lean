import BlockFs.Boarding

namespace BlockFs

open Visits

/-- The number of blocks of an image, which has 32 bits. -/
def Disk.blockNum (d : Disk) : Nat := d.superMeta.currBlockNum % 2 ^ 32

/-- What the loading of the file blocks asks of an image: intact slots, and listing slots that belong
to a lasting file, fit their table and list blocks that exist, none of them twice. -/
structure Disk.Laden [Crc32] (d : Disk) : Prop where
  intact : ∀ i < d.superMeta.maxFileBlockNum, (d.fileBlockMetas i).crc = (d.fileBlockMetas i).calcCrc
  owned : ∀ i, d.Lists i → d.Boards (d.fileBlockMetas i).fh
  fits : ∀ i, d.Lists i → (d.fileBlockMetas i).usedBlockNum ≤ kFileBlockCapacity
  distinct : ∀ i, d.Lists i → (d.fileBlockMetas i).ids.Nodup
  counted : ∀ i, d.Lists i → ∀ id ∈ (d.fileBlockMetas i).ids, id < d.blockNum
  apart : ∀ i, d.Lists i → ∀ j, d.Lists j → i ≠ j → ∀ id ∈ (d.fileBlockMetas i).ids,
    id ∉ (d.fileBlockMetas j).ids

/-- The file block `b` is the first of the listed slots `pre` that the file in slot `x` has at `cut`. -/
def Disk.FirstAt (d : Disk) (pre : List Nat) (x cut b : Nat) : Prop :=
  (b ∈ pre ∧ d.Lists b ∧ (d.fileBlockMetas b).fh = x ∧ (d.fileBlockMetas b).fileCut = cut) ∧
    ∀ b' ∈ pre, d.Lists b' → (d.fileBlockMetas b').fh = x → (d.fileBlockMetas b').fileCut = cut → b ≤ b'

section FirstAt
variable {d : Disk} {pre : List Nat} {x cut b i : Nat}

theorem Disk.FirstAt.unique {b' : Nat} (first : d.FirstAt pre x cut b) (first' : d.FirstAt pre x cut b') : b = b' := by
  obtain ⟨⟨member, lists, slot, at_⟩, least⟩ := first
  obtain ⟨⟨member', lists', slot', at_'⟩, least'⟩ := first'
  exact le_antisymm (least b' member' lists' slot' at_') (least' b member lists slot at_)

theorem Disk.exists_firstAt (member : b ∈ pre) (lists : d.Lists b) (slot : (d.fileBlockMetas b).fh = x)
    (at_ : (d.fileBlockMetas b).fileCut = cut) : ∃ b', d.FirstAt pre x cut b' := by
  classical
  have some_ : ∃ b', b' ∈ pre ∧ d.Lists b' ∧ (d.fileBlockMetas b').fh = x ∧ (d.fileBlockMetas b').fileCut = cut :=
    ⟨b, member, lists, slot, at_⟩
  exact ⟨Nat.find some_, Nat.find_spec some_, fun b' member' lists' slot' at_' =>
    Nat.find_min' some_ ⟨member', lists', slot', at_'⟩⟩

/-- A slot that lists nothing is first nowhere. -/
theorem Disk.firstAt_skip (idle : ¬d.Lists i) : d.FirstAt (pre ++ [i]) x cut b ↔ d.FirstAt pre x cut b := by
  have behind {j : Nat} (member : j ∈ pre ++ [i]) (lists : d.Lists j) : j ∈ pre := by
    rcases List.mem_append.mp member with before | here
    · exact before
    · exact absurd (List.mem_singleton.mp here ▸ lists) idle
  constructor
  · rintro ⟨⟨member, lists, rest⟩, least⟩
    exact ⟨⟨behind member lists, lists, rest⟩, fun b' member' => least b' (List.mem_append_left _ member')⟩
  · rintro ⟨⟨member, rest⟩, least⟩
    exact ⟨⟨List.mem_append_left _ member, rest⟩, fun b' member' lists' => least b' (behind member' lists') lists'⟩

/-- A listing slot behind all others is first where none of them is. -/
theorem Disk.firstAt_next (lists : d.Lists i) (behind : ∀ j ∈ pre, j < i) :
    d.FirstAt (pre ++ [i]) x cut b ↔ d.FirstAt pre x cut b ∨
      (b = i ∧ (d.fileBlockMetas i).fh = x ∧ (d.fileBlockMetas i).fileCut = cut ∧
        ∀ b', ¬d.FirstAt pre x cut b') := by
  constructor
  · rintro ⟨⟨member, lists', slot, at_⟩, least⟩
    rcases List.mem_append.mp member with before | here
    · exact .inl ⟨⟨before, lists', slot, at_⟩, fun b' member' => least b' (List.mem_append_left _ member')⟩
    · obtain rfl := List.mem_singleton.mp here
      refine .inr ⟨rfl, slot, at_, fun b' first => ?_⟩
      obtain ⟨⟨member', lists'', slot', at_'⟩, _⟩ := first
      have le := least b' (List.mem_append_left _ member') lists'' slot' at_'
      have lt := behind b' member'
      omega
  · rintro (⟨⟨member, lists', slot, at_⟩, least⟩ | ⟨rfl, slot, at_, none⟩)
    · refine ⟨⟨List.mem_append_left _ member, lists', slot, at_⟩, fun b' member' lists'' slot' at_' => ?_⟩
      rcases List.mem_append.mp member' with before | here
      · exact least b' before lists'' slot' at_'
      · rw [List.mem_singleton.mp here]
        exact (behind b member).le
    · refine ⟨⟨by simp, lists, slot, at_⟩, fun b' member' lists' slot' at_' => ?_⟩
      rcases List.mem_append.mp member' with before | here
      · obtain ⟨b'', first⟩ := Disk.exists_firstAt before lists' slot' at_'
        exact absurd first (none b'')
      · exact (List.mem_singleton.mp here).ge

end FirstAt

namespace FileSystem

section Ids
variable {m : FileBlockMeta} {s t : FileSystem}

/-- Entries within the table that name different free blocks can all be taken. -/
theorem takeSpecificBlockIds_free {fuel first : Nat} (fits : first + fuel ≤ kFileBlockCapacity)
    (once : s.blockIdPool.Nodup) (distinct : ((List.range' first fuel).map m.blockId).Nodup)
    (free : ∀ id ∈ (List.range' first fuel).map m.blockId, id ∈ s.blockIdPool) :
    ∃ t, takeSpecificBlockIds m fuel first s = .ok (t, true) := by
  induction fuel generalizing first s with
  | zero => exact ⟨s, rfl⟩
  | succ fuel ih =>
    rw [List.range'_succ, List.map_cons] at distinct free
    obtain ⟨new, distinct⟩ := List.nodup_cons.mp distinct
    obtain ⟨here, later⟩ := List.forall_mem_cons.mp free
    have entry : m.getBlockId first = .ok (m.blockId first) := by
      rw [FileBlockMeta.getBlockId, if_pos (by omega)]
    rw [takeSpecificBlockIds, entry, Except.ok_bind, if_pos here]
    refine ih (by omega) (once.erase _) distinct fun id member => ?_
    have other : id ≠ m.blockId first := fun same => new (same ▸ member)
    exact (List.mem_erase_of_ne other).mpr (later id member)

/-- Taking the entries of a slot stops the process behind the end of its table. -/
theorem takeSpecificBlockIds_fits {fuel first : Nat} (done : takeSpecificBlockIds m fuel first s = .ok (t, true)) :
    fuel = 0 ∨ first + fuel ≤ kFileBlockCapacity := by
  induction fuel generalizing first s with
  | zero => exact .inl rfl
  | succ fuel ih =>
    obtain ⟨id, entry, rest⟩ := Except.bind_eq_ok.mp done
    have inside : first < kFileBlockCapacity := by
      unfold FileBlockMeta.getBlockId at entry
      split at entry
      · assumption
      · simp at entry
    split at rest
    · rcases ih rest with rfl | fits
      · exact .inr inside
      · exact .inr (by omega)
    · simp at rest

theorem takeSpecificBlockIds_iff (once : s.blockIdPool.Nodup) :
    (∃ t, takeSpecificBlockIds m m.usedBlockNum 0 s = .ok (t, true)) ↔
      m.usedBlockNum ≤ kFileBlockCapacity ∧ m.ids.Nodup ∧ ∀ id ∈ m.ids, id ∈ s.blockIdPool := by
  constructor
  · rintro ⟨t, done⟩
    obtain ⟨distinct, free, _⟩ := takeSpecificBlockIds_ids once done
    refine ⟨?_, distinct, free⟩
    rcases takeSpecificBlockIds_fits done with none | fits
    · rw [none]
      exact Nat.zero_le _
    · omega
  · rintro ⟨fits, distinct, free⟩
    rw [FileBlockMeta.ids, List.range_eq_range'] at distinct free
    exact takeSpecificBlockIds_free (by omega) once distinct free

end Ids

section Rounds
variable [Crc32] {env : Env} {s t : FileSystem} {i : Nat}

theorem fileBlockLoop_iff {slots : List Nat} : fileBlockLoop env slots s = .ok (t, true) ↔
    Visited (fun s i t => s.initFileBlockSlot env i = .ok (t, true)) s slots t := by
  induction slots generalizing s with
  | nil =>
    rw [Visited.nil_iff, fileBlockLoop]
    simp
  | cons i rest ih =>
    rw [Visited.cons_iff, fileBlockLoop, Except.bind_eq_ok]
    constructor
    · rintro ⟨⟨u, more⟩, first, later⟩
      cases more with
      | false => simp at later
      | true => exact ⟨u, first, ih.mp later⟩
    · rintro ⟨u, first, later⟩
      exact ⟨(u, true), first, ih.mpr later⟩

/-- The round of a slot leaves it free, clears a temporary file block, or takes the blocks of a lasting
one and enters it in its file. -/
theorem initFileBlockSlot_iff (ok : env.IoOk) : s.initFileBlockSlot env i = .ok (t, true) ↔
    (s.fileBlockMetas i).crc = (s.fileBlockMetas i).calcCrc ∧
      (((s.fileBlockMetas i).used = false ∧ t = { s with freeFbhs := s.freeFbhs ++ [i] }) ∨
        ((s.fileBlockMetas i).used = true ∧ (s.fileBlockMetas i).isTemp = true ∧
          t = (s.setFileBlockMeta i (s.fileBlockMetas i).clear).saveFileBlock i) ∨
        ((s.fileBlockMetas i).used = true ∧ (s.fileBlockMetas i).isTemp = false ∧
          ∃ f u, s.createdFhs.lookup (s.fileBlockMetas i).fh = some f ∧
            takeSpecificBlockIds (s.fileBlockMetas i) (s.fileBlockMetas i).usedBlockNum 0 s = .ok (u, true) ∧
            t = (u.addFileBlockNoLock f i).1)) := by
  unfold initFileBlockSlot
  dsimp only
  by_cases intact : (s.fileBlockMetas i).crc = (s.fileBlockMetas i).calcCrc
  swap
  · simp [intact]
  rw [if_neg (not_not.mpr intact)]
  cases used : (s.fileBlockMetas i).used with
  | false =>
    rw [if_neg Bool.false_ne_true, Except.ok.injEq, Prod.mk.injEq, eq_comm]
    simp [intact]
  | true =>
    rw [if_pos rfl]
    cases temp : (s.fileBlockMetas i).isTemp with
    | true =>
      rw [if_pos rfl, writeFileBlockMeta_ok ok, Except.ok.injEq, Prod.mk.injEq, eq_comm]
      simp [intact]
    | false =>
      rw [if_neg Bool.false_ne_true]
      cases s.createdFhs.lookup (s.fileBlockMetas i).fh with
      | none => simp
      | some f =>
        dsimp only
        rw [Except.bind_eq_ok]
        constructor
        · rintro ⟨⟨u, all⟩, taken, rest⟩
          cases all with
          | false => simp at rest
          | true =>
            have state := congrArg Prod.fst (Except.ok.inj rest)
            exact ⟨intact, .inr (.inr ⟨rfl, rfl, f, u, rfl, taken, state.symm⟩)⟩
        · rintro ⟨_, ⟨unused, _⟩ | ⟨_, temp', _⟩ | ⟨_, _, g, u, same, taken, rfl⟩⟩
          · simp at unused
          · simp at temp'
          · obtain rfl := Option.some.inj same
            exact ⟨(u, true), taken, rfl⟩

end Rounds

/-- The file-block loop has visited the slots `pre`, in this order: every listed slot among them has its
blocks out of the pool and is in the item map of its file, temporary ones are cleared in memory and on
the device, and the unused slots are free. -/
structure Stowed [Crc32] (d : Disk) (start : FileSystem) (pre : List Nat) (s : FileSystem) : Prop where
  rest : { s with
    blockIdPool := start.blockIdPool
    files := start.files
    fileBlockMetas := start.fileBlockMetas
    freeFbhs := start.freeFbhs
    disk := start.disk
    journal := start.journal
    attempts := start.attempts } = start
  image : s.disk = { start.disk with fileBlockMetas := s.fileBlockMetas }
  cleared : ∀ i ∈ pre, (d.fileBlockMetas i).used = true → (d.fileBlockMetas i).isTemp = true →
    s.fileBlockMetas i = (d.fileBlockMetas i).clear.sealed
  kept : ∀ i, (i ∈ pre → (d.fileBlockMetas i).used = true → (d.fileBlockMetas i).isTemp = false) →
    s.fileBlockMetas i = d.fileBlockMetas i
  once : s.blockIdPool.Nodup
  pool : ∀ id, id ∈ s.blockIdPool ↔
    id < d.blockNum ∧ ∀ i ∈ pre, d.Lists i → id ∉ (d.fileBlockMetas i).ids
  objects : ∀ f, s.files f = { start.files f with itemMaps := (s.files f).itemMaps }
  items : ∀ f c b, (s.files f).itemMaps.lookup c = some b ↔
    f < start.nextFile ∧ d.FirstAt pre (start.files f).metaSlot c b
  free : s.freeFbhs = pre.filter fun i => !(d.fileBlockMetas i).used

section Stowed
variable [Crc32] {d : Disk} {start s t : FileSystem} {pre : List Nat} {i : Nat}

theorem Stowed.slot (stowed : Stowed d start pre s) (new : i ∉ pre) : s.fileBlockMetas i = d.fileBlockMetas i :=
  stowed.kept i fun member => absurd member new

theorem Stowed.createdFhs (stowed : Stowed d start pre s) : s.createdFhs = start.createdFhs := by
  have same := congrArg FileSystem.createdFhs stowed.rest
  exact same

theorem Stowed.pool_skip (stowed : Stowed d start pre s) (idle : ¬d.Lists i) (id : Nat) :
    id ∈ s.blockIdPool ↔
      id < d.blockNum ∧ ∀ j ∈ pre ++ [i], d.Lists j → id ∉ (d.fileBlockMetas j).ids := by
  rw [stowed.pool]
  refine and_congr_right fun _ => ⟨fun off j member lists => ?_, fun off j member => off j (List.mem_append_left _ member)⟩
  rcases List.mem_append.mp member with before | here
  · exact off j before lists
  · exact absurd (List.mem_singleton.mp here ▸ lists) idle

/-- A slot that is not in use goes on the free list. -/
theorem Stowed.skip (stowed : Stowed d start pre s) (unused : (d.fileBlockMetas i).used = false) :
    Stowed d start (pre ++ [i]) { s with freeFbhs := s.freeFbhs ++ [i] } := by
  have idle : ¬d.Lists i := fun lists => by simp [lists.2.1] at unused
  have behind {j : Nat} (member : j ∈ pre ++ [i]) (used : (d.fileBlockMetas j).used = true) : j ∈ pre := by
    rcases List.mem_append.mp member with before | here
    · exact before
    · rw [List.mem_singleton.mp here, unused] at used
      simp at used
  exact
    { rest := stowed.rest
      image := stowed.image
      cleared := fun j member used temp => stowed.cleared j (behind member used) used temp
      kept := fun j lasting => stowed.kept j fun member used => lasting (List.mem_append_left _ member) used
      once := stowed.once
      pool := stowed.pool_skip idle
      objects := stowed.objects
      items := fun f c b => by
        rw [Disk.firstAt_skip idle]
        exact stowed.items f c b
      free := by
        dsimp only
        rw [stowed.free, List.filter_append, List.filter_singleton, unused]
        rfl }

/-- The slot of a temporary file block is cleared and written. -/
theorem Stowed.clear (stowed : Stowed d start pre s) (new : i ∉ pre) (used : (d.fileBlockMetas i).used = true)
    (temp : (d.fileBlockMetas i).isTemp = true) :
    Stowed d start (pre ++ [i]) ((s.setFileBlockMeta i (s.fileBlockMetas i).clear).saveFileBlock i) := by
  have slot := stowed.slot new
  have idle : ¬d.Lists i := fun lists => by simp [lists.2.2] at temp
  have metas : ((s.setFileBlockMeta i (s.fileBlockMetas i).clear).saveFileBlock i).fileBlockMetas =
      Function.update s.fileBlockMetas i (d.fileBlockMetas i).clear.sealed := by
    simp [saveFileBlock, persist, slot]
  have image : ((s.setFileBlockMeta i (s.fileBlockMetas i).clear).saveFileBlock i).disk =
      { start.disk with fileBlockMetas := Function.update s.fileBlockMetas i (d.fileBlockMetas i).clear.sealed } := by
    simp [saveFileBlock, persist, slot, Disk.replay, Disk.apply, stowed.image]
  exact
    { rest := stowed.rest
      image := by rw [image, metas]
      cleared := fun j member used' temp' => by
        rw [metas]
        by_cases here : j = i
        · rw [here, Function.update_self]
        · rw [Function.update_of_ne here]
          exact stowed.cleared j ((List.mem_append.mp member).resolve_right fun same =>
            here (List.mem_singleton.mp same)) used' temp'
      kept := fun j lasting => by
        have here : j ≠ i := by
          rintro rfl
          have kept := lasting (List.mem_append_right _ (List.mem_singleton_self j)) used
          rw [temp] at kept
          simp at kept
        rw [metas, Function.update_of_ne here]
        exact stowed.kept j fun member => lasting (List.mem_append_left _ member)
      once := stowed.once
      pool := stowed.pool_skip idle
      objects := stowed.objects
      items := fun f c b => by
        rw [Disk.firstAt_skip idle]
        exact stowed.items f c b
      free := by
        rw [List.filter_append, List.filter_singleton, used]
        exact stowed.free.trans (List.append_nil _).symm }

/-- The slot of a lasting file block is stowed. -/
theorem Stowed.stow (stowed : Stowed d start pre s) (handles : Catalogues start.createdFhs start.nextFile fun f => (start.files f).metaSlot)
    (apart : ∀ f < start.nextFile, ∀ g < start.nextFile, (start.files f).metaSlot = (start.files g).metaSlot → f = g)
    (new : i ∉ pre) (behind : ∀ j ∈ pre, j < i) (lists : d.Lists i) {f : FilePtr} {u : FileSystem}
    (owner : start.createdFhs.lookup (d.fileBlockMetas i).fh = some f)
    (taken : takeSpecificBlockIds (d.fileBlockMetas i) (d.fileBlockMetas i).usedBlockNum 0 s = .ok (u, true)) :
    Stowed d start (pre ++ [i]) (u.addFileBlockNoLock f i).1 := by
  obtain ⟨distinct, free, same, once, pool⟩ := takeSpecificBlockIds_ids stowed.once taken
  obtain ⟨known, seat⟩ := (handles _ f).mp owner
  have slot : u.fileBlockMetas i = d.fileBlockMetas i := by
    rw [same]
    exact stowed.slot new
  have files : u.files = s.files := by rw [same]
  have entry (g : FilePtr) : (u.addFileBlockNoLock f i).1.files g = { s.files g with
      itemMaps := if g = f ∧ ((s.files f).itemMaps.lookup (d.fileBlockMetas i).fileCut).isNone then
        (s.files f).itemMaps.insert (d.fileBlockMetas i).fileCut i else (s.files g).itemMaps } := by
    rw [addFileBlockNoLock, slot, files]
    cases found : (s.files f).itemMaps.lookup (d.fileBlockMetas i).fileCut with
    | some b => simp [files]
    | none =>
      by_cases here : g = f
      · subst here
        simp [files]
      · simp [files, here]
  have others : { (u.addFileBlockNoLock f i).1 with files := s.files, blockIdPool := s.blockIdPool } = s := by
    unfold addFileBlockNoLock
    rw [same]
    split <;> rfl
  have ids : (u.addFileBlockNoLock f i).1.blockIdPool = u.blockIdPool := by
    unfold addFileBlockNoLock
    split <;> rfl
  generalize (u.addFileBlockNoLock f i).1 = t at entry others ids ⊢
  have kept := congrArg (fun v : FileSystem => (v.fileBlockMetas, v.freeFbhs, v.disk)) others
  obtain ⟨metas, freeFbhs, disk⟩ : t.fileBlockMetas = s.fileBlockMetas ∧ t.freeFbhs = s.freeFbhs ∧ t.disk = s.disk := by
    simpa using kept
  refine
    { rest := ?_
      image := by rw [disk, metas, stowed.image]
      cleared := fun j member used temp => ?_
      kept := fun j lasting => ?_
      once := ids ▸ once
      pool := fun id => ?_
      objects := fun g => ?_
      items := fun g c b => ?_
      free := ?_ }
  · have rest := congrArg (fun v : FileSystem => { v with
        blockIdPool := start.blockIdPool
        files := start.files
        fileBlockMetas := start.fileBlockMetas
        freeFbhs := start.freeFbhs
        disk := start.disk
        journal := start.journal
        attempts := start.attempts }) others
    exact rest.trans stowed.rest
  · rw [metas]
    rcases List.mem_append.mp member with before | here
    · exact stowed.cleared j before used temp
    · rw [List.mem_singleton.mp here, lists.2.2] at temp
      simp at temp
  · rw [metas]
    exact stowed.kept j fun member => lasting (List.mem_append_left _ member)
  · rw [ids, pool, stowed.pool]
    constructor
    · rintro ⟨⟨low, off⟩, here⟩
      refine ⟨low, fun j member lists' => ?_⟩
      rcases List.mem_append.mp member with before | last
      · exact off j before lists'
      · exact (List.mem_singleton.mp last) ▸ here
    · rintro ⟨low, off⟩
      exact ⟨⟨low, fun j member => off j (List.mem_append_left _ member)⟩, off i (by simp) lists⟩
  · rw [entry, stowed.objects g]
  · rw [entry, Disk.firstAt_next lists behind]
    dsimp only
    by_cases here : g = f ∧ c = (d.fileBlockMetas i).fileCut
    · obtain ⟨rfl, rfl⟩ := here
      rcases vacant : (s.files g).itemMaps.lookup (d.fileBlockMetas i).fileCut with _ | b'
      · have none (b' : Nat) : ¬d.FirstAt pre (start.files g).metaSlot (d.fileBlockMetas i).fileCut b' := by
          intro first
          have found := (stowed.items g _ b').mpr ⟨known, first⟩
          rw [vacant] at found
          simp at found
        rw [if_pos ⟨rfl, rfl⟩, AList.lookup_insert]
        constructor
        · intro same'
          obtain rfl := Option.some.inj same'
          exact ⟨known, .inr ⟨rfl, seat.symm, rfl, none⟩⟩
        · rintro ⟨_, first | ⟨rfl, _⟩⟩
          · exact absurd first (none b)
          · rfl
      · rw [if_neg (by simp), vacant]
        have first := ((stowed.items g _ b').mp vacant).2
        constructor
        · intro same'
          obtain rfl := Option.some.inj same'
          exact ⟨known, .inl first⟩
        · rintro ⟨_, first' | ⟨_, _, _, none⟩⟩
          · rw [first.unique first']
          · exact absurd first (none b')
    · have before : (if g = f ∧ ((s.files f).itemMaps.lookup (d.fileBlockMetas i).fileCut).isNone then
          (s.files f).itemMaps.insert (d.fileBlockMetas i).fileCut i else (s.files g).itemMaps).lookup c =
          (s.files g).itemMaps.lookup c := by
        split
        · next both =>
          rw [← both.1, AList.lookup_insert_ne fun at_ => here ⟨both.1, at_⟩]
        · rfl
      rw [before, stowed.items]
      refine and_congr_right fun bound => ⟨.inl, ?_⟩
      rintro (first | ⟨rfl, slot', at_, _⟩)
      · exact first
      · exact absurd ⟨apart g bound f known (slot'.symm.trans seat.symm), at_.symm⟩ here
  · rw [freeFbhs, stowed.free, List.filter_append, List.filter_singleton, lists.2.1]
    simp

variable {env : Env}

/-- What the loop asks of a slot, given those before it. -/
theorem Stowed.round_iff (stowed : Stowed d start pre s)
    (owners : ∀ x, (∃ f, start.createdFhs.lookup x = some f) ↔ d.Boards x) (new : i ∉ pre)
    (bound : i < d.superMeta.maxFileBlockNum) (ok : env.IoOk) :
    (∃ t, s.initFileBlockSlot env i = .ok (t, true)) ↔
      ((d.fileBlockMetas i).crc = (d.fileBlockMetas i).calcCrc ∧
        (d.Lists i → d.Boards (d.fileBlockMetas i).fh ∧ (d.fileBlockMetas i).usedBlockNum ≤ kFileBlockCapacity ∧
          (d.fileBlockMetas i).ids.Nodup ∧ ∀ id ∈ (d.fileBlockMetas i).ids, id < d.blockNum)) ∧
      ∀ j ∈ pre, d.Lists j → d.Lists i → ∀ id ∈ (d.fileBlockMetas i).ids, id ∉ (d.fileBlockMetas j).ids := by
  have slot := stowed.slot new
  simp only [initFileBlockSlot_iff ok, stowed.createdFhs]
  rw [slot]
  constructor
  · rintro ⟨t, intact, ⟨unused, _⟩ | ⟨_, temp, _⟩ | ⟨used, lasting, f, u, owner, taken, _⟩⟩
    · have idle : ¬d.Lists i := fun lists => by simp [lists.2.1] at unused
      exact ⟨⟨intact, fun lists => absurd lists idle⟩, fun _ _ _ lists => absurd lists idle⟩
    · have idle : ¬d.Lists i := fun lists => by simp [lists.2.2] at temp
      exact ⟨⟨intact, fun lists => absurd lists idle⟩, fun _ _ _ lists => absurd lists idle⟩
    · obtain ⟨fits, distinct, free⟩ := (takeSpecificBlockIds_iff stowed.once).mp ⟨u, taken⟩
      have off (id : Nat) (member : id ∈ (d.fileBlockMetas i).ids) := (stowed.pool id).mp (free id member)
      exact ⟨⟨intact, fun _ => ⟨(owners _).mp ⟨f, owner⟩, fits, distinct, fun id member => (off id member).1⟩⟩,
        fun j member lists _ id member' => (off id member').2 j member lists⟩
  · rintro ⟨⟨intact, alone⟩, apart⟩
    cases used : (d.fileBlockMetas i).used with
    | false => exact ⟨_, intact, .inl ⟨rfl, rfl⟩⟩
    | true =>
      cases temp : (d.fileBlockMetas i).isTemp with
      | true => exact ⟨_, intact, .inr (.inl ⟨rfl, rfl, rfl⟩)⟩
      | false =>
        have lists : d.Lists i := ⟨bound, used, temp⟩
        obtain ⟨boards, fits, distinct, counted⟩ := alone lists
        obtain ⟨f, owner⟩ := (owners _).mpr boards
        obtain ⟨u, taken⟩ := (takeSpecificBlockIds_iff stowed.once).mpr ⟨fits, distinct, fun id member =>
          (stowed.pool id).mpr ⟨counted id member, fun j member' lists' => apart j member' lists' lists id member⟩⟩
        exact ⟨_, intact, .inr (.inr ⟨rfl, rfl, f, u, owner, taken, rfl⟩)⟩

theorem Stowed.round (stowed : Stowed d start pre s)
    (handles : Catalogues start.createdFhs start.nextFile fun f => (start.files f).metaSlot)
    (apart : ∀ f < start.nextFile, ∀ g < start.nextFile, (start.files f).metaSlot = (start.files g).metaSlot → f = g)
    (new : i ∉ pre) (behind : ∀ j ∈ pre, j < i) (bound : i < d.superMeta.maxFileBlockNum) (ok : env.IoOk)
    (done : s.initFileBlockSlot env i = .ok (t, true)) : Stowed d start (pre ++ [i]) t := by
  have slot := stowed.slot new
  obtain ⟨_, ⟨unused, rfl⟩ | ⟨used, temp, rfl⟩ | ⟨used, lasting, f, u, owner, taken, rfl⟩⟩ :=
    (initFileBlockSlot_iff ok).mp done
  · exact stowed.skip (slot ▸ unused)
  · rw [slot] at used temp
    exact stowed.clear new used temp
  · rw [stowed.createdFhs, slot] at owner
    rw [slot] at used lasting taken
    exact stowed.stow handles apart new behind ⟨bound, used, lasting⟩ owner taken

end Stowed

/-- The file blocks of an image once they are loaded. -/
abbrev Stowing [Crc32] (d : Disk) (start s : FileSystem) : Prop :=
  Stowed d start (List.range' 0 d.superMeta.maxFileBlockNum) s

section FileBlocks
variable [Crc32] {d : Disk} {s t u : FileSystem} {env : Env} (seating : Seating d s) (boarding : Boarding d s t)
  (ok : env.IoOk)
include seating boarding

theorem boarding_owners (x : Nat) : (∃ f, t.createdFhs.lookup x = some f) ↔ d.Boards x := by
  have taken := boarding.taken x
  rw [mem_slots] at taken
  exact (exists_congr fun f => boarding.handles x f).trans taken

/-- What the directories and the files leave alone. -/
theorem boarding_rest : t.superMeta = d.superMeta ∧ t.fileBlockMetas = d.fileBlockMetas ∧
    t.blockIdPool = List.range' 0 d.blockNum ∧ t.freeFbhs = [] ∧
    t.disk = { d with fileMetas := t.fileMetas } := by
  have kept := congrArg (fun u : FileSystem => (u.superMeta, u.fileBlockMetas, u.blockIdPool, u.freeFbhs)) seating.rest
  have kept' := congrArg (fun u : FileSystem => (u.superMeta, u.fileBlockMetas, u.blockIdPool, u.freeFbhs)) boarding.rest
  have both := kept'.trans kept
  simp only [Prod.mk.injEq] at both
  obtain ⟨super, metas, pool, free⟩ := both
  exact ⟨super, metas, pool, free, boarding.image⟩

theorem stowed_start : Stowed d t [] t := by
  obtain ⟨_, metas, pool, free, image⟩ := boarding_rest seating boarding
  exact
    { rest := rfl
      image := by rw [image, metas]
      cleared := fun i member => by simp at member
      kept := fun i _ => by rw [metas]
      once := pool ▸ List.nodup_range'
      pool := fun id => by
        rw [pool, mem_slots]
        simp
      objects := fun f => rfl
      items := fun f c b => by simp [(boarding.bare f).2.2.2, Disk.FirstAt]
      free := free }

omit [Crc32] seating boarding in
theorem split_slots {n i : Nat} {pre post : List Nat} (split : List.range' 0 n = pre ++ i :: post) :
    i ∉ pre ∧ (∀ j ∈ pre, j < i) ∧ i < n := by
  refine ⟨(notMem_of_split List.nodup_range' split).1, fun j member => ?_, mem_slots.mp (by rw [split]; simp)⟩
  have sorted := List.pairwise_lt_range' (s := 0) (n := n)
  rw [split] at sorted
  exact (List.pairwise_append.mp sorted).2.2 j member i List.mem_cons_self

include ok

/-- The loading of the file blocks succeeds just when the listing slots of the image are in order. -/
theorem fileBlockInitializeMeta_iff : (∃ u, t.fileBlockInitializeMeta env = .ok (u, true)) ↔ d.Laden := by
  have super := (boarding_rest seating boarding).1
  unfold fileBlockInitializeMeta
  rw [super]
  simp only [fileBlockLoop_iff]
  refine (exists_visited_iff _
    (fun pre i post s u split stowed done => Stowed.round stowed boarding.handles boarding.apart
      (split_slots split).1 (split_slots split).2.1 (split_slots split).2.2 ok done)
    (fun pre i post s split stowed => stowed.round_iff (boarding_owners seating boarding) (split_slots split).1
      (split_slots split).2.2 ok)
    (stowed_start seating boarding)).trans ?_
  refine forall_split_iff.trans ?_
  simp only [mem_slots]
  constructor
  · rintro ⟨alone, pairs⟩
    refine
      { intact := fun i bound => (alone i bound).1
        owned := fun i lists => ((alone i lists.1).2 lists).1
        fits := fun i lists => ((alone i lists.1).2 lists).2.1
        distinct := fun i lists => ((alone i lists.1).2 lists).2.2.1
        counted := fun i lists => ((alone i lists.1).2 lists).2.2.2
        apart := fun i lists j lists' ne id member member' => ?_ }
    rcases Nat.lt_or_gt_of_ne ne with before | behind
    · exact pairwise_range' pairs before lists'.1 lists lists' id member' member
    · exact pairwise_range' pairs behind lists.1 lists' lists id member member'
  · intro laden
    refine ⟨fun i bound => ⟨laden.intact i bound, fun lists => ⟨laden.owned i lists, laden.fits i lists,
      laden.distinct i lists, laden.counted i lists⟩⟩, ?_⟩
    refine (List.nodup_range' (s := 0) (n := d.superMeta.maxFileBlockNum)).imp ?_
    intro j i ne lists lists' id member
    exact laden.apart i lists' j lists ne.symm id member

omit ok in
theorem fileBlockInitializeMeta_stowing (ok : env.IoOk) (done : t.fileBlockInitializeMeta env = .ok (u, true)) :
    Stowing d t u := by
  have super := (boarding_rest seating boarding).1
  rw [fileBlockInitializeMeta, super] at done
  refine Visited.rule (fun pre s => Stowed d t pre s) (fun pre i post s u split stowed done => ?_)
    (stowed_start seating boarding) (fileBlockLoop_iff.mp done)
  obtain ⟨new, behind, bound⟩ := split_slots split
  exact stowed.round boarding.handles boarding.apart new behind bound ok done

end FileBlocks

end FileSystem

end BlockFs
