import BlockFs.Seating
import BlockFs.Attributes

namespace BlockFs

open Visits

/-- A slot of the image that belongs to a file which is to last. -/
def Disk.Boards (d : Disk) (x : Nat) : Prop :=
  x < d.superMeta.maxFileNum ∧ (d.fileMetas x).used = true ∧ (d.fileMetas x).isTemp = false

/-- What the loading of the files asks of an image: intact slots, and lasting files that have a name,
their own handle and a directory. -/
structure Disk.Manned [Crc32] (d : Disk) : Prop where
  intact : ∀ x < d.superMeta.maxFileNum, (d.fileMetas x).crc = (d.fileMetas x).calcCrc
  named : ∀ x, d.Boards x → (d.fileMetas x).fileName ≠ []
  own : ∀ x, d.Boards x → (d.fileMetas x).fh = x
  home : ∀ x, d.Boards x → d.Seats (d.fileMetas x).dh

/-- The name under which a slot enters its file, which a slot with a child does not. -/
def FileMeta.key (m : FileMeta) : Nat × Name := (m.dh, m.fileName)

/-- A map that leads from a key to the last of the objects below `count` that are listed under it. -/
def KeepsLast {κ : Type} [DecidableEq κ] (m : Map κ Nat) (count : Nat) (lists : Nat → Prop)
    (key : Nat → κ) : Prop :=
  ∀ k p, m.lookup k = some p ↔
    (p < count ∧ lists p ∧ key p = k) ∧ ∀ q < count, lists q → key q = k → q ≤ p

section KeepsLast
variable {κ : Type} [DecidableEq κ] {m : Map κ Nat} {count : Nat} {lists lists' : Nat → Prop} {key key' : Nat → κ}

theorem KeepsLast.empty (lists : Nat → Prop) (key : Nat → κ) : KeepsLast (∅ : Map κ Nat) 0 lists key := by
  intro k p
  simp

/-- The next object takes its key from whoever was listed under it. -/
theorem KeepsLast.insert {new : κ} (keeps : KeepsLast m count lists key)
    (same : ∀ p < count, (lists' p ↔ lists p) ∧ key' p = key p) (listed : lists' count) (here : key' count = new) :
    KeepsLast (m.insert new count) (count + 1) lists' key' := by
  intro k p
  by_cases at_ : k = new
  · subst at_
    rw [AList.lookup_insert]
    constructor
    · intro found
      obtain rfl := Option.some.inj found
      exact ⟨⟨Nat.lt_succ_self _, listed, here⟩, fun q bound _ _ => Nat.le_of_lt_succ bound⟩
    · rintro ⟨⟨bound, _⟩, last⟩
      have behind := last count (Nat.lt_succ_self _) listed here
      rw [show p = count by omega]
  · rw [AList.lookup_insert_ne at_, keeps]
    constructor
    · rintro ⟨⟨bound, listed', named⟩, last⟩
      refine ⟨⟨by omega, (same p bound).1.mpr listed', (same p bound).2.trans named⟩, fun q bound' listed'' named' => ?_⟩
      rcases Nat.lt_succ_iff_lt_or_eq.mp bound' with old | rfl
      · exact last q old ((same q old).1.mp listed'') ((same q old).2.symm.trans named')
      · exact absurd (named'.symm.trans here) at_
    · rintro ⟨⟨bound, listed', named⟩, last⟩
      rcases Nat.lt_succ_iff_lt_or_eq.mp bound with old | rfl
      · refine ⟨⟨old, (same p old).1.mp listed', (same p old).2.symm.trans named⟩, fun q bound' listed'' named' => ?_⟩
        exact last q (by omega) ((same q bound').1.mpr listed'') ((same q bound').2.trans named')
      · exact absurd (named.symm.trans here) at_

/-- The next object is listed under no key. -/
theorem KeepsLast.pass (keeps : KeepsLast m count lists key)
    (same : ∀ p < count, (lists' p ↔ lists p) ∧ key' p = key p) (unlisted : ¬lists' count) :
    KeepsLast m (count + 1) lists' key' := by
  intro k p
  rw [keeps]
  constructor
  · rintro ⟨⟨bound, listed, named⟩, last⟩
    refine ⟨⟨by omega, (same p bound).1.mpr listed, (same p bound).2.trans named⟩, fun q bound' listed' named' => ?_⟩
    rcases Nat.lt_succ_iff_lt_or_eq.mp bound' with old | rfl
    · exact last q old ((same q old).1.mp listed') ((same q old).2.symm.trans named')
    · exact absurd listed' unlisted
  · rintro ⟨⟨bound, listed, named⟩, last⟩
    rcases Nat.lt_succ_iff_lt_or_eq.mp bound with old | rfl
    · refine ⟨⟨old, (same p old).1.mp listed, (same p old).2.symm.trans named⟩, fun q bound' listed' named' => ?_⟩
      exact last q (by omega) ((same q bound').1.mpr listed') ((same q bound').2.trans named')
    · exact absurd listed unlisted

end KeepsLast

namespace FileSystem

/-- A file object takes the slot `x`; it is entered under the handle and, unless the slot has a child,
under the name that the slot holds. -/
def embark (s : FileSystem) (x : Nat) : FileSystem :=
  { s with
    files := Function.update s.files s.nextFile
      { metaSlot := x, nlink := 0, locked := false, deleted := false, itemMaps := ∅ }
    nextFile := s.nextFile + 1
    createdFhs := s.createdFhs.insert (s.fileMetas x).fh s.nextFile
    createdFiles := if 0 < (s.fileMetas x).childFh then s.createdFiles
      else s.createdFiles.insert (s.fileMetas x).key s.nextFile }

section Rounds
variable [Crc32] {env : Env} {s t : FileSystem} {x : Nat}

/-- The round of a slot leaves it free, clears a temporary file, or embarks a lasting one and has its
directory list it. -/
theorem initFileSlot_iff (ok : env.IoOk) : s.initFileSlot env x = (t, true) ↔
    (s.fileMetas x).crc = (s.fileMetas x).calcCrc ∧
      (((s.fileMetas x).used = false ∧ t = { s with freeFhs := s.freeFhs ++ [x] }) ∨
        ((s.fileMetas x).used = true ∧ (s.fileMetas x).isTemp = true ∧
          t = (s.modifyFileMeta x FileMeta.clear).saveFile (s.fileMetas x).fh) ∨
        ((s.fileMetas x).used = true ∧ (s.fileMetas x).isTemp = false ∧ (s.fileMetas x).fileName ≠ [] ∧
          (s.fileMetas x).fh = x ∧ ∃ p, s.createdDhs.lookup (s.fileMetas x).dh = some p ∧
            t = ((s.embark x).addChildFile p s.nextFile).1)) := by
  unfold initFileSlot
  dsimp only
  by_cases intact : (s.fileMetas x).crc = (s.fileMetas x).calcCrc
  swap
  · simp [intact]
  rw [if_neg (not_not.mpr intact)]
  cases used : (s.fileMetas x).used with
  | false =>
    rw [if_neg Bool.false_ne_true, Prod.mk.injEq, eq_comm]
    simp [intact]
  | true =>
    rw [if_pos rfl]
    cases temp : (s.fileMetas x).isTemp with
    | true =>
      rw [if_pos rfl, writeFileMeta_ok ok, Prod.mk.injEq, eq_comm]
      simp [intact]
    | false =>
      rw [if_neg Bool.false_ne_true]
      by_cases unnamed : (s.fileMetas x).fileName = []
      · simp [unnamed]
      rw [if_neg (by simpa using unnamed)]
      by_cases own : (s.fileMetas x).fh = x
      swap
      · simp [own]
      rw [if_neg (not_not.mpr own)]
      -- Both branches of the entry are what `embark` says.
      have entered : (if 0 < (s.fileMetas x).childFh then
            { s with
              files := Function.update s.files s.nextFile
                { metaSlot := x, nlink := 0, locked := false, deleted := false, itemMaps := ∅ }
              nextFile := s.nextFile + 1
              createdFhs := s.createdFhs.insert (s.fileMetas x).fh s.nextFile }
          else
            { s with
              files := Function.update s.files s.nextFile
                { metaSlot := x, nlink := 0, locked := false, deleted := false, itemMaps := ∅ }
              nextFile := s.nextFile + 1 }.addFileNoLock s.nextFile) = s.embark x := by
        unfold embark
        split
        · rfl
        · rw [addFileNoLock, fileMeta]
          dsimp only
          rw [Function.update_self]
          rfl
      rw [entered]
      have dhs : (s.embark x).createdDhs = s.createdDhs := rfl
      rw [dhs]
      cases s.createdDhs.lookup (s.fileMetas x).dh with
      | none => simp
      | some p =>
        dsimp only
        rw [Prod.mk.injEq, eq_comm]
        simp [intact, unnamed, own]

end Rounds

/-- The file loop has visited the slots `pre`, in this order: the files are those of the lasting slots
among them, listed by the directories they name, temporary files are cleared in memory and on the
device, and the unused slots are free. -/
structure Boarded [Crc32] (d : Disk) (start : FileSystem) (pre : List Nat) (s : FileSystem) : Prop where
  rest : { s with
    fileMetas := start.fileMetas
    freeFhs := start.freeFhs
    files := start.files
    nextFile := start.nextFile
    createdFiles := start.createdFiles
    createdFhs := start.createdFhs
    directories := start.directories
    disk := start.disk
    journal := start.journal
    attempts := start.attempts } = start
  image : s.disk = { d with fileMetas := s.fileMetas }
  cleared : ∀ i ∈ pre, (d.fileMetas i).used = true → (d.fileMetas i).isTemp = true →
    s.fileMetas i = (d.fileMetas i).clear.sealed
  kept : ∀ i, (i ∈ pre → (d.fileMetas i).used = true → (d.fileMetas i).isTemp = false) →
    s.fileMetas i = d.fileMetas i
  taken : ∀ i, (∃ f < s.nextFile, (s.files f).metaSlot = i) ↔
    i ∈ pre ∧ (d.fileMetas i).used = true ∧ (d.fileMetas i).isTemp = false
  apart : ∀ f < s.nextFile, ∀ g < s.nextFile, (s.files f).metaSlot = (s.files g).metaSlot → f = g
  bare : ∀ f, (s.files f).nlink = 0 ∧ (s.files f).locked = false ∧ (s.files f).deleted = false ∧
    (s.files f).itemMaps = ∅
  handles : Catalogues s.createdFhs s.nextFile fun f => (s.files f).metaSlot
  names : KeepsLast s.createdFiles s.nextFile (fun f => (d.fileMetas (s.files f).metaSlot).childFh ≤ 0)
    fun f => (d.fileMetas (s.files f).metaSlot).key
  seats : ∀ p, s.directories p = { start.directories p with itemMaps := (s.directories p).itemMaps }
  items : ∀ p x f, (s.directories p).itemMaps.lookup x = some f ↔
    f < s.nextFile ∧ (s.files f).metaSlot = x ∧
      p < start.nextDirectory ∧ (start.directories p).metaSlot = (d.fileMetas x).dh
  free : s.freeFhs = pre.filter fun i => !(d.fileMetas i).used

/-- A page that is written over slots it differs from in one of its own leaves them all alike. -/
theorem apply_filePage {d : Disk} {x : Nat} {m : FileMeta} (size : d.superMeta.fileMetaSize = kBlockFsFileMetaSize) :
    d.apply (.filePage (pageAlignIndex (kBlockFsPageSize / d.superMeta.fileMetaSize) x)
      (Function.update d.fileMetas x m)) = { d with fileMetas := Function.update d.fileMetas x m } := by
  have page : kBlockFsPageSize / d.superMeta.fileMetaSize = filesPerPage := by rw [size, filesPerPage]
  have inside := Nat.mod_lt x (show 0 < filesPerPage by decide)
  rw [page, pageAlignIndex, Disk.apply]
  have slots : (fun i => if x - x % filesPerPage ≤ i ∧ i < x - x % filesPerPage + filesPerPage then
      Function.update d.fileMetas x m i else d.fileMetas i) = Function.update d.fileMetas x m := by
    funext i
    by_cases here : i = x
    · subst here
      rw [if_pos (by omega)]
    · rw [Function.update_of_ne here, ite_self]
  rw [slots]

section Boarded
variable [Crc32] {d : Disk} {start s t : FileSystem} {pre : List Nat} {x : Nat}

/-- A slot that is not in use goes on the free list. -/
theorem Boarded.skip (boarded : Boarded d start pre s) (unused : (d.fileMetas x).used = false) :
    Boarded d start (pre ++ [x]) { s with freeFhs := s.freeFhs ++ [x] } := by
  have behind {i : Nat} (member : i ∈ pre ++ [x]) (used : (d.fileMetas i).used = true) : i ∈ pre := by
    rcases List.mem_append.mp member with before | here
    · exact before
    · rw [List.mem_singleton.mp here, unused] at used
      simp at used
  exact
    { boarded with
      rest := boarded.rest
      image := boarded.image
      cleared := fun i member used temp => boarded.cleared i (behind member used) used temp
      kept := fun i lasting => boarded.kept i fun member used => lasting (List.mem_append_left _ member) used
      taken := fun i => by
        refine (boarded.taken i).trans ⟨?_, ?_⟩
        · rintro ⟨member, rest⟩
          exact ⟨List.mem_append_left _ member, rest⟩
        · rintro ⟨member, used, lasting⟩
          exact ⟨behind member used, used, lasting⟩
      free := by
        dsimp only
        rw [boarded.free, List.filter_append, List.filter_singleton, unused]
        rfl }

/-- The slot of a temporary file is cleared and its page written. -/
theorem Boarded.clear (boarded : Boarded d start pre s) (new : x ∉ pre) (super : start.superMeta = d.superMeta)
    (size : d.superMeta.fileMetaSize = kBlockFsFileMetaSize) (used : (d.fileMetas x).used = true)
    (temp : (d.fileMetas x).isTemp = true) :
    Boarded d start (pre ++ [x]) ((s.modifyFileMeta x FileMeta.clear).saveFile x) := by
  have slot : s.fileMetas x = d.fileMetas x := boarded.kept x fun member => absurd member new
  have metas : ((s.modifyFileMeta x FileMeta.clear).saveFile x).fileMetas =
      Function.update s.fileMetas x (d.fileMetas x).clear.sealed := by
    simp only [saveFile, persist, modifyFileMeta, Function.update_self, Function.update_idem, slot]
  have image : ((s.modifyFileMeta x FileMeta.clear).saveFile x).disk =
      { d with fileMetas := Function.update s.fileMetas x (d.fileMetas x).clear.sealed } := by
    have super' : s.superMeta = d.superMeta := (congrArg FileSystem.superMeta boarded.rest).trans super
    simp only [saveFile, persist, modifyFileMeta, filePage, Function.update_self, Function.update_idem, slot,
      Disk.replay, List.foldl_cons, List.foldl_nil, super', boarded.image]
    exact @apply_filePage { d with fileMetas := s.fileMetas } x (d.fileMetas x).clear.sealed size
  have other {i : Nat} (member : i ∈ pre ++ [x]) (lasting : (d.fileMetas i).isTemp = false) : i ∈ pre := by
    rcases List.mem_append.mp member with before | here
    · exact before
    · rw [List.mem_singleton.mp here, temp] at lasting
      simp at lasting
  exact
    { rest := boarded.rest
      image := by rw [image, metas]
      cleared := fun i member used' temp' => by
        rw [metas]
        by_cases here : i = x
        · rw [here, Function.update_self]
        · rw [Function.update_of_ne here]
          exact boarded.cleared i ((List.mem_append.mp member).resolve_right fun same =>
            here (List.mem_singleton.mp same)) used' temp'
      kept := fun i lasting => by
        have here : i ≠ x := by
          rintro rfl
          have kept := lasting (List.mem_append_right _ (List.mem_singleton_self i)) used
          rw [temp] at kept
          simp at kept
        rw [metas, Function.update_of_ne here]
        exact boarded.kept i fun member => lasting (List.mem_append_left _ member)
      taken := fun i => by
        refine (boarded.taken i).trans ⟨?_, ?_⟩
        · rintro ⟨member, rest⟩
          exact ⟨List.mem_append_left _ member, rest⟩
        · rintro ⟨member, used', lasting⟩
          exact ⟨other member lasting, used', lasting⟩
      apart := boarded.apart
      bare := boarded.bare
      handles := boarded.handles
      names := boarded.names
      seats := boarded.seats
      items := boarded.items
      free := by
        rw [List.filter_append, List.filter_singleton, used]
        exact boarded.free.trans (List.append_nil _).symm }

/-- The slot of a lasting file is boarded. -/
theorem Boarded.embark (boarded : Boarded d start pre s) (seating : Seating d start) (new : x ∉ pre)
    (used : (d.fileMetas x).used = true) (lasting : (d.fileMetas x).isTemp = false)
    (own : (d.fileMetas x).fh = x) {p : DirectoryPtr}
    (home : start.createdDhs.lookup (d.fileMetas x).dh = some p) :
    Boarded d start (pre ++ [x]) ((s.embark x).addChildFile p s.nextFile).1 := by
  have slot : s.fileMetas x = d.fileMetas x := boarded.kept x fun member => absurd member new
  have here : ((s.embark x).files s.nextFile).metaSlot = x := by
    dsimp only [FileSystem.embark]
    rw [Function.update_self]
  have there {f : FilePtr} (old : f ≠ s.nextFile) : (s.embark x).files f = s.files f := Function.update_of_ne old _ _
  have other {f : FilePtr} (bound : f < s.nextFile) : (s.files f).metaSlot ≠ x := by
    intro same
    exact new (same ▸ ((boarded.taken _).mp ⟨f, bound, rfl⟩).1)
  have handle : ((s.embark x).fileMeta s.nextFile).fh = x := by
    rw [fileMeta, here]
    exact (congrArg FileMeta.fh slot).trans own
  have unlisted : (s.directories p).itemMaps.lookup x = none := by
    by_contra found
    obtain ⟨f, found⟩ := Option.ne_none_iff_exists'.mp found
    obtain ⟨bound, same, _⟩ := (boarded.items p x f).mp found
    exact other bound same
  have listing : enlisted (s.embark x).directories p x s.nextFile = Function.update s.directories p
      { s.directories p with itemMaps := (s.directories p).itemMaps.insert x s.nextFile } := by
    unfold enlisted
    have same : (s.embark x).directories = s.directories := rfl
    rw [same, unlisted, if_neg (by simp)]
  obtain ⟨known, seat⟩ := (seating.handles _ p).mp home
  have split {f : FilePtr} (bound : f < s.nextFile + 1) : f < s.nextFile ∨ f = s.nextFile :=
    Nat.lt_succ_iff_lt_or_eq.mp bound
  rw [addChildFile_eq, handle, listing]
  refine
    { rest := boarded.rest
      image := boarded.image
      cleared := fun i member used' temp => ?_
      kept := fun i lasting' => boarded.kept i fun member => lasting' (List.mem_append_left _ member)
      taken := fun i => ?_
      apart := fun f bound g bound' same => ?_
      bare := fun f => ?_
      handles := ?_
      names := ?_
      seats := fun q => ?_
      items := fun q y f => ?_
      free := ?_ }
  · rcases List.mem_append.mp member with before | same
    · exact boarded.cleared i before used' temp
    · rw [List.mem_singleton.mp same, lasting] at temp
      simp at temp
  · rw [List.mem_append, List.mem_singleton]
    constructor
    · rintro ⟨f, bound, rfl⟩
      rcases split bound with old | rfl
      · dsimp only
        rw [there old.ne]
        obtain ⟨before, rest⟩ := (boarded.taken _).mp ⟨f, old, rfl⟩
        exact ⟨.inl before, rest⟩
      · dsimp only
        rw [here]
        exact ⟨.inr rfl, used, lasting⟩
    · rintro ⟨before | rfl, rest⟩
      · obtain ⟨f, bound, same⟩ := (boarded.taken i).mpr ⟨before, rest⟩
        refine ⟨f, Nat.lt_succ_of_lt bound, ?_⟩
        dsimp only
        rw [there bound.ne, same]
      · exact ⟨s.nextFile, Nat.lt_succ_self _, here⟩
  · dsimp only at same
    rcases split bound with old | rfl
    · rcases split bound' with old' | rfl
      · rw [there old.ne, there old'.ne] at same
        exact boarded.apart f old g old' same
      · rw [there old.ne, here] at same
        exact absurd same (other old)
    · rcases split bound' with old' | rfl
      · rw [there old'.ne, here] at same
        exact absurd same.symm (other old')
      · rfl
  · dsimp only
    by_cases last : f = s.nextFile
    · subst last
      dsimp only [FileSystem.embark]
      rw [Function.update_self]
      exact ⟨rfl, rfl, rfl, rfl⟩
    · rw [there last]
      exact boarded.bare f
  · have key : (s.fileMetas x).fh = x := by rw [slot, own]
    change Catalogues (s.createdFhs.insert (s.fileMetas x).fh s.nextFile) (s.nextFile + 1) _
    rw [key]
    refine boarded.handles.insert ?_ (fun f bound => ?_) here
    · by_contra found
      obtain ⟨f, found⟩ := Option.ne_none_iff_exists'.mp found
      obtain ⟨bound, same⟩ := (boarded.handles x f).mp found
      exact other bound same
    · dsimp only
      rw [there bound.ne]
  · have same (f : FilePtr) (bound : f < s.nextFile) :
        ((d.fileMetas ((s.embark x).files f).metaSlot).childFh ≤ 0 ↔ (d.fileMetas (s.files f).metaSlot).childFh ≤ 0) ∧
          (d.fileMetas ((s.embark x).files f).metaSlot).key = (d.fileMetas (s.files f).metaSlot).key := by
      rw [there bound.ne]
      exact ⟨Iff.rfl, rfl⟩
    change KeepsLast (if 0 < (s.fileMetas x).childFh then s.createdFiles
      else s.createdFiles.insert (s.fileMetas x).key s.nextFile) (s.nextFile + 1) _ _
    split
    · next parent =>
      refine boarded.names.pass same ?_
      dsimp only
      rw [here, ← slot]
      omega
    · next childless =>
      refine boarded.names.insert same ?_ ?_
      · dsimp only
        rw [here, ← slot]
        omega
      · dsimp only
        rw [here, slot]
  · dsimp only
    by_cases at_ : q = p
    · subst at_
      rw [Function.update_self, boarded.seats q]
    · rw [Function.update_of_ne at_]
      exact boarded.seats q
  · dsimp only
    by_cases at_ : q = p ∧ y = x
    · obtain ⟨rfl, rfl⟩ := at_
      rw [Function.update_self, AList.lookup_insert]
      constructor
      · intro same
        obtain rfl := Option.some.inj same
        exact ⟨Nat.lt_succ_self _, here, known, seat⟩
      · rintro ⟨bound, same, _⟩
        rcases split bound with old | rfl
        · rw [there old.ne] at same
          exact absurd same (other old)
        · rfl
    · have before : (Function.update s.directories p
          { s.directories p with itemMaps := (s.directories p).itemMaps.insert x s.nextFile } q).itemMaps.lookup y =
          (s.directories q).itemMaps.lookup y := by
        by_cases same : q = p
        · subst same
          rw [Function.update_self, AList.lookup_insert_ne fun slots => at_ ⟨rfl, slots⟩]
        · rw [Function.update_of_ne same]
      rw [before, boarded.items]
      constructor
      · rintro ⟨bound, same, rest⟩
        rw [there bound.ne]
        exact ⟨Nat.lt_succ_of_lt bound, same, rest⟩
      · rintro ⟨bound, same, inside, home'⟩
        rcases split bound with old | rfl
        · rw [there old.ne] at same
          exact ⟨old, same, inside, home'⟩
        · rw [here] at same
          subst same
          exact absurd ⟨seating.apart q inside p known (home'.trans seat.symm), rfl⟩ at_
  · rw [List.filter_append, List.filter_singleton, used]
    exact boarded.free.trans (List.append_nil _).symm

theorem Boarded.slot (boarded : Boarded d start pre s) (new : x ∉ pre) : s.fileMetas x = d.fileMetas x :=
  boarded.kept x fun member => absurd member new

theorem Boarded.createdDhs (boarded : Boarded d start pre s) : s.createdDhs = start.createdDhs := by
  have same := congrArg FileSystem.createdDhs boarded.rest
  exact same

variable {env : Env}

/-- What the loop asks of a slot. -/
theorem Boarded.round_iff (boarded : Boarded d start pre s) (seating : Seating d start) (new : x ∉ pre)
    (ok : env.IoOk) : (∃ t, s.initFileSlot env x = (t, true)) ↔
      (d.fileMetas x).crc = (d.fileMetas x).calcCrc ∧
        ((d.fileMetas x).used = true → (d.fileMetas x).isTemp = false →
          (d.fileMetas x).fileName ≠ [] ∧ (d.fileMetas x).fh = x ∧ d.Seats (d.fileMetas x).dh) := by
  have homes (h : Nat) : (∃ p, start.createdDhs.lookup h = some p) ↔ d.Seats h := by
    rw [← seating.taken]
    exact exists_congr fun p => seating.handles h p
  have slot := boarded.slot new
  simp only [initFileSlot_iff ok, boarded.createdDhs]
  rw [slot]
  constructor
  · rintro ⟨t, intact, ⟨unused, _⟩ | ⟨_, temp, _⟩ | ⟨_, _, named, own, p, home, _⟩⟩
    · exact ⟨intact, by simp [unused]⟩
    · exact ⟨intact, by simp [temp]⟩
    · exact ⟨intact, fun _ _ => ⟨named, own, (homes _).mp ⟨p, home⟩⟩⟩
  · rintro ⟨intact, fits⟩
    cases used : (d.fileMetas x).used with
    | false => exact ⟨_, intact, .inl ⟨rfl, rfl⟩⟩
    | true =>
      cases temp : (d.fileMetas x).isTemp with
      | true => exact ⟨_, intact, .inr (.inl ⟨rfl, rfl, rfl⟩)⟩
      | false =>
        obtain ⟨named, own, seats⟩ := fits used temp
        obtain ⟨p, home⟩ := (homes _).mpr seats
        exact ⟨_, intact, .inr (.inr ⟨rfl, rfl, named, own, p, home, rfl⟩)⟩

theorem Boarded.round (boarded : Boarded d start pre s) (seating : Seating d start) (new : x ∉ pre)
    (size : d.superMeta.fileMetaSize = kBlockFsFileMetaSize)
    (temps : (d.fileMetas x).used = true → (d.fileMetas x).isTemp = true → (d.fileMetas x).fh = x)
    (ok : env.IoOk) (done : s.initFileSlot env x = (t, true)) : Boarded d start (pre ++ [x]) t := by
  have super : start.superMeta = d.superMeta := by
    have same := congrArg FileSystem.superMeta seating.rest
    exact same
  have slot := boarded.slot new
  obtain ⟨_, ⟨unused, rfl⟩ | ⟨used, temp, rfl⟩ | ⟨used, lasting, _, own, p, home, rfl⟩⟩ :=
    (initFileSlot_iff ok).mp done
  · exact boarded.skip (slot ▸ unused)
  · rw [slot] at used temp
    rw [slot, temps used temp]
    exact boarded.clear new super size used temp
  · rw [boarded.createdDhs, slot] at home
    rw [slot] at used lasting own
    exact boarded.embark seating new used lasting own home

theorem boarded_start (seating : Seating d s) : Boarded d s [] s := by
  have metas : s.fileMetas = d.fileMetas := by
    have same := congrArg FileSystem.fileMetas seating.rest
    exact same
  have image : s.disk = d := by
    have same := congrArg FileSystem.disk seating.rest
    exact same
  have others := congrArg (fun u : FileSystem => (u.nextFile, u.files, u.createdFhs, u.createdFiles, u.freeFhs))
    seating.rest
  obtain ⟨count, files, fhs, names, free⟩ : s.nextFile = 0 ∧ s.files = (unmounted d).files ∧ s.createdFhs = ∅ ∧
    s.createdFiles = ∅ ∧ s.freeFhs = [] := by
    simp only [Prod.mk.injEq] at others
    exact others
  exact
    { rest := rfl
      image := by rw [image, metas]
      cleared := fun i member => by simp at member
      kept := fun i _ => by rw [metas]
      taken := fun i => by simp [count]
      apart := fun f bound => by simp [count] at bound
      bare := fun f => by
        rw [files]
        exact ⟨rfl, rfl, rfl, rfl⟩
      handles := by
        rw [fhs, count]
        exact .empty _
      names := by
        rw [names, count]
        exact .empty _ _
      seats := fun p => rfl
      items := fun p y f => by simp [(seating.bare p).2, count]
      free := free }

end Boarded

section Files
variable [Crc32] {d : Disk} {s t : FileSystem} {env : Env}

/-- Every temporary file of the image has its own handle in its slot. -/
def TempsOwn (d : Disk) : Prop :=
  ∀ x < d.superMeta.maxFileNum, (d.fileMetas x).used = true → (d.fileMetas x).isTemp = true →
    (d.fileMetas x).fh = x

/-- The files of an image once they are loaded. -/
abbrev Boarding (d : Disk) (start s : FileSystem) : Prop := Boarded d start (List.range' 0 d.superMeta.maxFileNum) s

variable (seating : Seating d s) (size : d.superMeta.fileMetaSize = kBlockFsFileMetaSize) (temps : TempsOwn d)
  (ok : env.IoOk)
include seating size temps ok

/-- The loading of the files succeeds just when the lasting files of the image are in order. -/
theorem fileInitializeMeta_iff : (∃ t, s.fileInitializeMeta env = (t, true)) ↔ d.Manned := by
  have super : s.superMeta.maxFileNum = d.superMeta.maxFileNum := by
    have same := congrArg (fun u : FileSystem => u.superMeta.maxFileNum) seating.rest
    exact same
  have new {pre post : List Nat} {x : Nat} (split : List.range' 0 d.superMeta.maxFileNum = pre ++ x :: post) :
      x ∉ pre ∧ x < d.superMeta.maxFileNum :=
    ⟨(notMem_of_split List.nodup_range' split).1, mem_slots.mp (by rw [split]; simp)⟩
  unfold fileInitializeMeta
  rw [super]
  simp only [loadLoop_iff]
  refine (exists_visited_iff _
    (fun pre x post u t split boarded done => Boarded.round boarded seating (new split).1 size
      (temps x (new split).2) ok done)
    (fun pre x post u split boarded => boarded.round_iff seating (new split).1 ok) (boarded_start seating)).trans ?_
  rw [forall_split_mem]
  simp only [mem_slots]
  constructor
  · intro all
    exact
      { intact := fun x bound => (all x bound).1
        named := fun x ⟨bound, used, lasting⟩ => ((all x bound).2 used lasting).1
        own := fun x ⟨bound, used, lasting⟩ => ((all x bound).2 used lasting).2.1
        home := fun x ⟨bound, used, lasting⟩ => ((all x bound).2 used lasting).2.2 }
  · intro manned x bound
    exact ⟨manned.intact x bound, fun used lasting =>
      ⟨manned.named x ⟨bound, used, lasting⟩, manned.own x ⟨bound, used, lasting⟩,
        manned.home x ⟨bound, used, lasting⟩⟩⟩

/-- The files that are loaded are the lasting ones of the image. -/
theorem fileInitializeMeta_boarding (done : s.fileInitializeMeta env = (t, true)) : Boarding d s t := by
  have super : s.superMeta.maxFileNum = d.superMeta.maxFileNum := by
    have same := congrArg (fun u : FileSystem => u.superMeta.maxFileNum) seating.rest
    exact same
  rw [fileInitializeMeta, super] at done
  refine Visited.rule (fun pre t => Boarded d s pre t) (fun pre x post u t split boarded done => ?_)
    (boarded_start seating) (loadLoop_iff.mp done)
  have bound : x < d.superMeta.maxFileNum := mem_slots.mp (by rw [split]; simp)
  exact boarded.round seating (notMem_of_split List.nodup_range' split).1 size (temps x bound) ok done

end Files

end FileSystem

end BlockFs
