import BlockFs.Ownership
import BlockFs.Lib.Visits

namespace BlockFs

open Visits

/-- A slot of the image that belongs to a directory. -/
def Disk.Seats (d : Disk) (i : Nat) : Prop :=
  i < d.superMeta.maxFileNum ∧ (d.dirMetas i).used = true

/-- A map that leads to the objects below `count`, each under its key. -/
def Catalogues {κ : Type} [DecidableEq κ] (m : Map κ Nat) (count : Nat) (key : Nat → κ) : Prop :=
  ∀ k p, m.lookup k = some p ↔ p < count ∧ key p = k

theorem Catalogues.empty {κ : Type} [DecidableEq κ] (key : Nat → κ) : Catalogues (∅ : Map κ Nat) 0 key := by
  intro k p
  simp

/-- The next object is entered under a key of its own. -/
theorem Catalogues.insert {κ : Type} [DecidableEq κ] {m : Map κ Nat} {count : Nat} {key key' : Nat → κ}
    {new : κ} (catalogues : Catalogues m count key) (fresh : m.lookup new = none)
    (kept : ∀ p < count, key' p = key p) (here : key' count = new) :
    Catalogues (m.insert new count) (count + 1) key' := by
  intro k p
  by_cases at_ : k = new
  · subst at_
    rw [AList.lookup_insert]
    constructor
    · intro same
      obtain rfl := Option.some.inj same
      exact ⟨Nat.lt_succ_self _, here⟩
    · rintro ⟨bound, same⟩
      rcases Nat.lt_succ_iff_lt_or_eq.mp bound with old | rfl
      · have found := (catalogues k p).mpr ⟨old, (kept p old).symm.trans same⟩
        rw [fresh] at found
        simp at found
      · rfl
  · rw [AList.lookup_insert_ne at_, catalogues]
    constructor
    · rintro ⟨bound, same⟩
      exact ⟨by omega, (kept p bound).trans same⟩
    · rintro ⟨bound, same⟩
      rcases Nat.lt_succ_iff_lt_or_eq.mp bound with old | rfl
      · exact ⟨old, (kept p old).symm.trans same⟩
      · exact absurd (same.symm.trans here) at_

/-- What the loading of the directories asks of an image: intact slots, and directories that have a
path of their own, their own handle and a parent. -/
structure Disk.Furnished [Crc32] (d : Disk) : Prop where
  intact : ∀ i < d.superMeta.maxFileNum, (d.dirMetas i).crc = (d.dirMetas i).calcCrc
  named : ∀ i, d.Seats i → (d.dirMetas i).dirName ≠ []
  own : ∀ i, d.Seats i → (d.dirMetas i).dh = i
  distinct : ∀ i, d.Seats i → ∀ j, d.Seats j → (d.dirMetas i).dirName = (d.dirMetas j).dirName → i = j
  parent : ∀ i, d.Seats i → isMountPoint (d.dirMetas i).dirName = false →
    ∃ j, d.Seats j ∧ (d.dirMetas j).dirName = getDirName (d.dirMetas i).dirName

section Catalogues
variable {κ : Type} [DecidableEq κ] {m : Map κ Nat} {count : Nat} {key : Nat → κ}

theorem Catalogues.mem (catalogues : Catalogues m count key) {p : Nat} :
    p ∈ m.entries.map (·.2) ↔ p < count := by
  rw [List.mem_map]
  constructor
  · rintro ⟨⟨k, q⟩, member, rfl⟩
    exact ((catalogues k q).mp (AList.mem_lookup_iff.mpr member)).1
  · intro bound
    exact ⟨⟨key p, p⟩, AList.mem_lookup_iff.mp ((catalogues _ p).mpr ⟨bound, rfl⟩), rfl⟩

/-- No object is entered twice. -/
theorem Catalogues.nodup (catalogues : Catalogues m count key) : (m.entries.map (·.2)).Nodup := by
  refine (List.nodup_map_iff_inj_on m.nodupKeys.nodup).mpr ?_
  rintro ⟨k, p⟩ member ⟨l, q⟩ member' same
  obtain rfl : p = q := same
  have one := ((catalogues k p).mp (AList.mem_lookup_iff.mpr member)).2
  have two := ((catalogues l p).mp (AList.mem_lookup_iff.mpr member')).2
  rw [← one, ← two]

end Catalogues

namespace FileSystem

theorem loadLoop_iff {round : FileSystem → Nat → FileSystem × Bool} {slots : List Nat} {s t : FileSystem} :
    loadLoop round slots s = (t, true) ↔ Visited (fun s i t => round s i = (t, true)) s slots t := by
  induction slots generalizing s with
  | nil =>
    rw [Visited.nil_iff, loadLoop]
    simp
  | cons i rest ih =>
    rw [Visited.cons_iff, loadLoop]
    constructor
    · intro done
      split at done
      · simp at done
      · next u same => exact ⟨u, same, ih.mp done⟩
    · rintro ⟨u, same, later⟩
      rw [same]
      exact ih.mpr later

theorem mem_slots {n i : Nat} : i ∈ List.range' 0 n ↔ i < n := by
  rw [List.mem_range'_1]
  omega

theorem pairwise_range' {r : Nat → Nat → Prop} {n i j : Nat} (pairs : (List.range' 0 n).Pairwise r) (before : i < j)
    (bound : j < n) : r i j := by
  have ordered := List.pairwise_iff_getElem.mp pairs i j (by rw [List.length_range']; omega)
    (by rwa [List.length_range']) before
  simpa using ordered

/-- A directory object takes the slot `i`, and both indices lead to it. -/
def seat (s : FileSystem) (i : Nat) : FileSystem :=
  { s with
    directories := Function.update s.directories s.nextDirectory
      { metaSlot := i, nlink := 0, itemMaps := ∅, childDirMaps := ∅ }
    nextDirectory := s.nextDirectory + 1
    createdDirs := s.createdDirs.insert (s.dirMetas i).dirName s.nextDirectory
    createdDhs := s.createdDhs.insert (s.dirMetas i).dh s.nextDirectory }

/-- A child directory hangs under its parent. -/
def hang (s : FileSystem) (parent child : DirectoryPtr) : FileSystem :=
  s.modifyDirectory parent fun d => { d with childDirMaps := d.childDirMaps.insert (s.dirMeta child).dh child }

section Rounds
variable [Crc32] {s t : FileSystem} {i : Nat}

/-- The round of a slot leaves it free or seats a directory under a path and a handle that are new. -/
theorem initDirSlot_iff : s.initDirSlot i = (t, true) ↔
    (s.dirMetas i).crc = (s.dirMetas i).calcCrc ∧
      (((s.dirMetas i).used = false ∧ t = { s with freeDhs := s.freeDhs ++ [i] }) ∨
        ((s.dirMetas i).used = true ∧ (s.dirMetas i).dirName ≠ [] ∧ (s.dirMetas i).dh = i ∧
          s.createdDirs.lookup (s.dirMetas i).dirName = none ∧ s.createdDhs.lookup i = none ∧ t = s.seat i)) := by
  let u : FileSystem := { s with
    directories := Function.update s.directories s.nextDirectory
      { metaSlot := i, nlink := 0, itemMaps := ∅, childDirMaps := ∅ }
    nextDirectory := s.nextDirectory + 1 }
  have slot : u.dirMeta s.nextDirectory = s.dirMetas i := by
    rw [dirMeta]
    dsimp only [u]
    rw [Function.update_self]
  have entered : u.addDirectory2CreateNolock s.nextDirectory = (t, true) ↔
      s.createdDirs.lookup (s.dirMetas i).dirName = none ∧
        s.createdDhs.lookup (s.dirMetas i).dh = none ∧ t = s.seat i := by
    rw [addDirectory2CreateNolock, slot]
    change (if (s.createdDirs.lookup (s.dirMetas i).dirName).isSome then _ else
      if (s.createdDhs.lookup (s.dirMetas i).dh).isSome then _ else (s.seat i, true)) = (t, true) ↔ _
    cases s.createdDirs.lookup (s.dirMetas i).dirName with
    | some p => simp
    | none =>
      cases s.createdDhs.lookup (s.dirMetas i).dh with
      | some p => simp
      | none => simp [eq_comm]
  unfold initDirSlot
  dsimp only
  by_cases intact : (s.dirMetas i).crc = (s.dirMetas i).calcCrc
  swap
  · simp [intact]
  rw [if_neg (not_not.mpr intact)]
  cases used : (s.dirMetas i).used with
  | false =>
    rw [if_neg Bool.false_ne_true, Prod.mk.injEq, eq_comm]
    simp [intact]
  | true =>
    rw [if_pos rfl]
    by_cases unnamed : (s.dirMetas i).dirName = []
    · simp [unnamed]
    rw [if_neg (by simpa using unnamed)]
    by_cases own : (s.dirMetas i).dh = i
    · rw [if_neg (not_not.mpr own)]
      refine entered.trans ?_
      rw [own]
      simp [intact, unnamed]
    · simp [own]

omit [Crc32] in
/-- The round of a directory leaves the root alone and hangs any other under the parent its path names. -/
theorem initChildDirectory_iff {c : DirectoryPtr} : s.initChildDirectory c = (t, true) ↔
    (isMountPoint (s.dirMeta c).dirName = true ∧ t = s) ∨
      (isMountPoint (s.dirMeta c).dirName = false ∧
        ∃ p, s.createdDirs.lookup (getDirName (s.dirMeta c).dirName) = some p ∧
          (s.directories p).childDirMaps.lookup (s.dirMeta c).dh = none ∧ t = s.hang p c) := by
  unfold initChildDirectory
  cases isMountPoint (s.dirMeta c).dirName with
  | true => simp [eq_comm]
  | false =>
    rw [if_neg Bool.false_ne_true]
    cases s.createdDirs.lookup (getDirName (s.dirMeta c).dirName) with
    | none => simp
    | some p =>
      dsimp only
      rw [addChildDirectory]
      cases found : (s.directories p).childDirMaps.lookup (s.dirMeta c).dh with
      | some c' => simp [found]
      | none => simp [hang, found, eq_comm]

end Rounds

/-- The directory loop has visited the slots `pre`, in this order: the directories are those of the
used slots among them, each under its path and its handle, and the others are free. -/
structure Seated (d : Disk) (start : FileSystem) (pre : List Nat) (s : FileSystem) : Prop where
  rest : { s with
    freeDhs := start.freeDhs
    directories := start.directories
    nextDirectory := start.nextDirectory
    createdDirs := start.createdDirs
    createdDhs := start.createdDhs } = start
  own : ∀ i ∈ pre, (d.dirMetas i).used = true → (d.dirMetas i).dh = i
  taken : ∀ i, (∃ p < s.nextDirectory, (s.directories p).metaSlot = i) ↔ i ∈ pre ∧ (d.dirMetas i).used = true
  apart : ∀ p < s.nextDirectory, ∀ q < s.nextDirectory,
    (s.directories p).metaSlot = (s.directories q).metaSlot → p = q
  bare : ∀ p, (s.directories p).nlink = 0 ∧ (s.directories p).itemMaps = ∅ ∧ (s.directories p).childDirMaps = ∅
  paths : Catalogues s.createdDirs s.nextDirectory fun p => (d.dirMetas (s.directories p).metaSlot).dirName
  handles : Catalogues s.createdDhs s.nextDirectory fun p => (s.directories p).metaSlot
  free : s.freeDhs = pre.filter fun i => !(d.dirMetas i).used

section Seated
variable {d : Disk} {start s t : FileSystem} {pre : List Nat} {i : Nat}

theorem Seated.dirMetas (seated : Seated d start pre s) (table : start.dirMetas = d.dirMetas) :
    s.dirMetas = d.dirMetas :=
  (congrArg FileSystem.dirMetas seated.rest).trans table

theorem Seated.slot (seated : Seated d start pre s) {p : DirectoryPtr} (bound : p < s.nextDirectory) :
    (s.directories p).metaSlot ∈ pre ∧ (d.dirMetas (s.directories p).metaSlot).used = true :=
  (seated.taken _).mp ⟨p, bound, rfl⟩

/-- A slot that is not in use goes on the free list. -/
theorem Seated.skip (seated : Seated d start pre s) (unused : (d.dirMetas i).used = false) :
    Seated d start (pre ++ [i]) { s with freeDhs := s.freeDhs ++ [i] } where
  rest := seated.rest
  own j member used := by
    rcases List.mem_append.mp member with before | here
    · exact seated.own j before used
    · rw [List.mem_singleton.mp here, unused] at used
      simp at used
  taken j := by
    rw [show (∃ p < s.nextDirectory, (s.directories p).metaSlot = j) ↔ _ from seated.taken j, List.mem_append,
      List.mem_singleton]
    constructor
    · rintro ⟨before, used⟩
      exact ⟨.inl before, used⟩
    · rintro ⟨before | rfl, used⟩
      · exact ⟨before, used⟩
      · simp [unused] at used
  apart := seated.apart
  bare := seated.bare
  paths := seated.paths
  handles := seated.handles
  free := by
    dsimp only
    rw [seated.free, List.filter_append, List.filter_singleton, unused]
    rfl

/-- A slot that is in use is seated. -/
theorem Seated.seat (seated : Seated d start pre s) (table : s.dirMetas = d.dirMetas) (new : i ∉ pre)
    (used : (d.dirMetas i).used = true) (own : (d.dirMetas i).dh = i)
    (path : s.createdDirs.lookup (d.dirMetas i).dirName = none) :
    Seated d start (pre ++ [i]) (s.seat i) := by
  have here : ((s.seat i).directories s.nextDirectory).metaSlot = i := by
    dsimp only [FileSystem.seat]
    rw [Function.update_self]
  have there {p : DirectoryPtr} (old : p ≠ s.nextDirectory) : (s.seat i).directories p = s.directories p :=
    Function.update_of_ne old _ _
  have next : (s.seat i).nextDirectory = s.nextDirectory + 1 := rfl
  have split {p : DirectoryPtr} (bound : p < (s.seat i).nextDirectory) :
      p < s.nextDirectory ∧ (s.seat i).directories p = s.directories p ∨ p = s.nextDirectory := by
    rcases Nat.lt_succ_iff_lt_or_eq.mp bound with old | same
    · exact .inl ⟨old, there old.ne⟩
    · exact .inr same
  have other {p : DirectoryPtr} (bound : p < s.nextDirectory) : (s.directories p).metaSlot ≠ i := by
    intro same
    exact new (same ▸ (seated.slot bound).1)
  refine
    { rest := seated.rest
      own := fun j member used' => ?_
      taken := fun j => ?_
      apart := fun p bound q bound' same => ?_
      bare := fun p => ?_
      paths := ?_
      handles := ?_
      free := ?_ }
  · rcases List.mem_append.mp member with before | same
    · exact seated.own j before used'
    · exact (List.mem_singleton.mp same) ▸ own
  · rw [List.mem_append, List.mem_singleton]
    constructor
    · rintro ⟨p, bound, rfl⟩
      rcases split bound with ⟨old, same⟩ | rfl
      · rw [same]
        obtain ⟨before, used'⟩ := seated.slot old
        exact ⟨.inl before, used'⟩
      · rw [here]
        exact ⟨.inr rfl, used⟩
    · rintro ⟨before | rfl, used'⟩
      · obtain ⟨p, bound, same⟩ := (seated.taken j).mpr ⟨before, used'⟩
        exact ⟨p, Nat.lt_succ_of_lt bound, by rw [there bound.ne, same]⟩
      · exact ⟨s.nextDirectory, Nat.lt_succ_self _, here⟩
  · rcases split bound with ⟨old, kept⟩ | rfl
    · rcases split bound' with ⟨old', kept'⟩ | rfl
      · rw [kept, kept'] at same
        exact seated.apart p old q old' same
      · rw [kept, here] at same
        exact absurd same (other old)
    · rcases split bound' with ⟨old', kept'⟩ | rfl
      · rw [kept', here] at same
        exact absurd same.symm (other old')
      · rfl
  · by_cases new' : p = s.nextDirectory
    · subst new'
      dsimp only [FileSystem.seat]
      rw [Function.update_self]
      exact ⟨rfl, rfl, rfl⟩
    · rw [there new']
      exact seated.bare p
  · refine seated.paths.insert (by rw [table]; exact path) (fun p bound => ?_) ?_
    · rw [there bound.ne]
    · rw [here, table]
  · refine seated.handles.insert ?_ (fun p bound => ?_) ?_
    · rw [table, own]
      by_contra found
      obtain ⟨p, found⟩ := Option.ne_none_iff_exists'.mp found
      obtain ⟨bound, same⟩ := (seated.handles i p).mp found
      exact other bound same
    · rw [there bound.ne]
    · rw [here, table, own]
  · change s.freeDhs = _
    rw [seated.free, List.filter_append, List.filter_singleton, used]
    simp

variable [Crc32]

/-- What the loop asks of a slot, given those before it. -/
theorem Seated.round_iff (seated : Seated d start pre s) (table : start.dirMetas = d.dirMetas) (new : i ∉ pre) :
    (∃ t, s.initDirSlot i = (t, true)) ↔
      ((d.dirMetas i).crc = (d.dirMetas i).calcCrc ∧
        ((d.dirMetas i).used = true → (d.dirMetas i).dirName ≠ [] ∧ (d.dirMetas i).dh = i)) ∧
      ∀ j ∈ pre, (d.dirMetas j).used = true → (d.dirMetas i).used = true →
        (d.dirMetas j).dirName ≠ (d.dirMetas i).dirName := by
  have slot : s.dirMetas i = d.dirMetas i := congrFun (seated.dirMetas table) i
  simp only [initDirSlot_iff, slot]
  constructor
  · rintro ⟨t, intact, ⟨unused, _⟩ | ⟨_, named, own, path, _⟩⟩
    · exact ⟨⟨intact, by simp [unused]⟩, by simp [unused]⟩
    · refine ⟨⟨intact, fun _ => ⟨named, own⟩⟩, fun j member used _ same => ?_⟩
      obtain ⟨p, bound, rfl⟩ := (seated.taken j).mpr ⟨member, used⟩
      rw [slot, (seated.paths _ p).mpr ⟨bound, same⟩] at path
      simp at path
  · rintro ⟨⟨intact, fits⟩, apart⟩
    cases used : (d.dirMetas i).used with
    | false => exact ⟨_, intact, .inl ⟨rfl, rfl⟩⟩
    | true =>
      obtain ⟨named, own⟩ := fits used
      refine ⟨_, intact, .inr ⟨rfl, named, own, ?_, ?_, rfl⟩⟩
      · by_contra found
        obtain ⟨p, found⟩ := Option.ne_none_iff_exists'.mp found
        obtain ⟨bound, same⟩ := (seated.paths _ p).mp found
        rw [slot] at same
        obtain ⟨before, used'⟩ := seated.slot bound
        exact apart _ before used' used same
      · by_contra found
        obtain ⟨p, found⟩ := Option.ne_none_iff_exists'.mp found
        obtain ⟨bound, same⟩ := (seated.handles _ p).mp found
        exact new (same ▸ (seated.slot bound).1)

theorem Seated.round (seated : Seated d start pre s) (table : start.dirMetas = d.dirMetas) (new : i ∉ pre)
    (done : s.initDirSlot i = (t, true)) : Seated d start (pre ++ [i]) t := by
  have metas := seated.dirMetas table
  have cases := initDirSlot_iff.mp done
  rw [congrFun metas i] at cases
  obtain ⟨_, ⟨unused, rfl⟩ | ⟨used, _, own, path, _, rfl⟩⟩ := cases
  · exact seated.skip unused
  · exact seated.seat metas new used own path

omit [Crc32] in
theorem seated_start (d : Disk) : Seated d (unmounted d).blockInitializeMeta [] (unmounted d).blockInitializeMeta where
  rest := rfl
  own i member := by simp at member
  taken i := by
    constructor
    · rintro ⟨p, bound, _⟩
      exact absurd bound (Nat.not_lt_zero p)
    · rintro ⟨member, _⟩
      simp at member
  apart p bound := absurd bound (Nat.not_lt_zero p)
  bare _ := ⟨rfl, rfl, rfl⟩
  paths := .empty _
  handles := .empty _
  free := rfl

end Seated

/-- The second loop has visited the directories `pre`: each but the root hangs under the directory its
path names as its parent, and nothing else does. -/
structure Hung (d : Disk) (start : FileSystem) (pre : List DirectoryPtr) (s : FileSystem) : Prop where
  rest : { s with directories := start.directories } = start
  seats : ∀ p, (s.directories p).metaSlot = (start.directories p).metaSlot ∧
    (s.directories p).nlink = (start.directories p).nlink ∧ (s.directories p).itemMaps = (start.directories p).itemMaps
  children : ∀ p x c, (s.directories p).childDirMaps.lookup x = some c ↔
    c ∈ pre ∧ (start.directories c).metaSlot = x ∧ isMountPoint (start.dirMeta c).dirName = false ∧
      start.createdDirs.lookup (getDirName (start.dirMeta c).dirName) = some p

section Hung
variable {d : Disk} {start s t : FileSystem} {pre : List DirectoryPtr} {c : DirectoryPtr}

theorem Hung.dirMeta (hung : Hung d start pre s) (p : DirectoryPtr) : s.dirMeta p = start.dirMeta p := by
  have metas : s.dirMetas = start.dirMetas := by
    have same := congrArg FileSystem.dirMetas hung.rest
    exact same
  rw [FileSystem.dirMeta, FileSystem.dirMeta, (hung.seats p).1, metas]

theorem Hung.createdDirs (hung : Hung d start pre s) : s.createdDirs = start.createdDirs := by
  have same := congrArg FileSystem.createdDirs hung.rest
  exact same

/-- The root hangs under nothing. -/
theorem Hung.skip (hung : Hung d start pre s) (root : isMountPoint (start.dirMeta c).dirName = true) :
    Hung d start (pre ++ [c]) s where
  rest := hung.rest
  seats := hung.seats
  children p x c' := by
    rw [hung.children, List.mem_append, List.mem_singleton]
    constructor
    · rintro ⟨member, rest⟩
      exact ⟨.inl member, rest⟩
    · rintro ⟨member | rfl, rest⟩
      · exact ⟨member, rest⟩
      · simp [root] at rest

theorem Hung.hang (hung : Hung d start pre s) (own : (start.dirMeta c).dh = (start.directories c).metaSlot)
    (apart : ∀ c' ∈ pre, (start.directories c').metaSlot ≠ (start.directories c).metaSlot)
    (below : isMountPoint (start.dirMeta c).dirName = false) {p : DirectoryPtr}
    (parent : start.createdDirs.lookup (getDirName (start.dirMeta c).dirName) = some p) :
    Hung d start (pre ++ [c]) (s.hang p c) := by
  have handle : (s.dirMeta c).dh = (start.directories c).metaSlot := by rw [hung.dirMeta, own]
  refine ⟨hung.rest, fun q => ?_, fun q x c' => ?_⟩
  · rw [← (hung.seats q).1, ← (hung.seats q).2.1, ← (hung.seats q).2.2]
    dsimp only [FileSystem.hang, modifyDirectory]
    by_cases here : q = p
    · subst here
      rw [Function.update_self]
      exact ⟨rfl, rfl, rfl⟩
    · rw [Function.update_of_ne here]
      exact ⟨rfl, rfl, rfl⟩
  · rw [List.mem_append, List.mem_singleton]
    have others : q ≠ p ∨ x ≠ (start.directories c).metaSlot →
        (((s.hang p c).directories q).childDirMaps.lookup x = some c' ↔
          (s.directories q).childDirMaps.lookup x = some c') := by
      intro apart
      dsimp only [FileSystem.hang, modifyDirectory]
      rw [handle]
      by_cases here : q = p
      · subst here
        rw [Function.update_self, AList.lookup_insert_ne (apart.resolve_left fun no => no rfl)]
      · rw [Function.update_of_ne here]
    by_cases here : q = p ∧ x = (start.directories c).metaSlot
    · obtain ⟨rfl, rfl⟩ := here
      dsimp only [FileSystem.hang, modifyDirectory]
      rw [handle, Function.update_self, AList.lookup_insert]
      constructor
      · intro same
        obtain rfl := Option.some.inj same
        exact ⟨.inr rfl, rfl, below, parent⟩
      · rintro ⟨member | rfl, same, _⟩
        · exact absurd same (apart c' member)
        · rfl
    · rw [others (not_and_or.mp here), hung.children]
      constructor
      · rintro ⟨member, rest⟩
        exact ⟨.inl member, rest⟩
      · rintro ⟨member | rfl, same, below', parent'⟩
        · exact ⟨member, same, below', parent'⟩
        · rw [parent] at parent'
          exact absurd ⟨(Option.some.inj parent').symm, same.symm⟩ here

/-- What the second loop asks of a directory: the root or a parent. -/
theorem Hung.round_iff (hung : Hung d start pre s) (own : (start.dirMeta c).dh = (start.directories c).metaSlot)
    (apart : ∀ c' ∈ pre, (start.directories c').metaSlot ≠ (start.directories c).metaSlot) :
    (∃ t, s.initChildDirectory c = (t, true)) ↔
      (isMountPoint (start.dirMeta c).dirName = false →
        ∃ p, start.createdDirs.lookup (getDirName (start.dirMeta c).dirName) = some p) := by
  have slot := hung.dirMeta c
  simp only [initChildDirectory_iff, hung.createdDirs]
  rw [slot]
  constructor
  · rintro ⟨t, ⟨root, _⟩ | ⟨_, p, parent, _⟩⟩ below
    · simp [root] at below
    · exact ⟨p, parent⟩
  · intro parented
    cases kind : isMountPoint (start.dirMeta c).dirName with
    | true => exact ⟨s, .inl ⟨rfl, rfl⟩⟩
    | false =>
      obtain ⟨p, parent⟩ := parented kind
      refine ⟨_, .inr ⟨rfl, p, parent, ?_, rfl⟩⟩
      by_contra found
      obtain ⟨c', found⟩ := Option.ne_none_iff_exists'.mp found
      obtain ⟨member, same, _⟩ := (hung.children _ _ c').mp found
      exact apart c' member (same.trans own)

theorem Hung.round (hung : Hung d start pre s) (own : (start.dirMeta c).dh = (start.directories c).metaSlot)
    (apart : ∀ c' ∈ pre, (start.directories c').metaSlot ≠ (start.directories c).metaSlot)
    (done : s.initChildDirectory c = (t, true)) : Hung d start (pre ++ [c]) t := by
  have cases := initChildDirectory_iff.mp done
  rw [hung.dirMeta, hung.createdDirs] at cases
  obtain ⟨root, rfl⟩ | ⟨below, p, parent, _, rfl⟩ := cases
  · exact hung.skip root
  · exact hung.hang own apart below parent

end Hung

/-- The directories of an image once they are loaded. -/
structure Seating (d : Disk) (s : FileSystem) : Prop where
  rest : { s with
    freeDhs := []
    directories := (unmounted d).directories
    nextDirectory := 0
    createdDirs := ∅
    createdDhs := ∅ } = (unmounted d).blockInitializeMeta
  taken : ∀ i, (∃ p < s.nextDirectory, (s.directories p).metaSlot = i) ↔ d.Seats i
  apart : ∀ p < s.nextDirectory, ∀ q < s.nextDirectory,
    (s.directories p).metaSlot = (s.directories q).metaSlot → p = q
  bare : ∀ p, (s.directories p).nlink = 0 ∧ (s.directories p).itemMaps = ∅
  paths : Catalogues s.createdDirs s.nextDirectory fun p => (d.dirMetas (s.directories p).metaSlot).dirName
  handles : Catalogues s.createdDhs s.nextDirectory fun p => (s.directories p).metaSlot
  children : ∀ p x c, (s.directories p).childDirMaps.lookup x = some c ↔
    c < s.nextDirectory ∧ (s.directories c).metaSlot = x ∧
      isMountPoint (d.dirMetas (s.directories c).metaSlot).dirName = false ∧
      s.createdDirs.lookup (getDirName (d.dirMetas (s.directories c).metaSlot).dirName) = some p
  free : s.freeDhs = (List.range' 0 d.superMeta.maxFileNum).filter fun i => !(d.dirMetas i).used

/-- The slots of the directory table, in the order in which they are visited. -/
abbrev dirSlots (d : Disk) : List Nat := List.range' 0 d.superMeta.maxFileNum

/-- The directories in the order in which the second loop visits them. -/
abbrev createdList (s : FileSystem) : List DirectoryPtr := s.createdDirs.entries.map (·.2)

section Loaded
variable {d : Disk} {s t : FileSystem}
  (seated : Seated d (unmounted d).blockInitializeMeta (dirSlots d) s)
include seated

theorem Seated.seats (i : Nat) : (∃ p < s.nextDirectory, (s.directories p).metaSlot = i) ↔ d.Seats i := by
  rw [seated.taken, mem_slots]
  rfl

theorem Seated.dirMeta (p : DirectoryPtr) : s.dirMeta p = d.dirMetas (s.directories p).metaSlot :=
  congrFun (seated.dirMetas rfl) _

theorem Seated.own_dh {p : DirectoryPtr} (bound : p < s.nextDirectory) :
    (s.dirMeta p).dh = (s.directories p).metaSlot := by
  obtain ⟨member, used⟩ := seated.slot bound
  rw [seated.dirMeta]
  exact seated.own _ member used

theorem Seated.apart_of_split {pre post : List DirectoryPtr} {c : DirectoryPtr}
    (split : createdList s = pre ++ c :: post) :
    c < s.nextDirectory ∧ ∀ c' ∈ pre, (s.directories c').metaSlot ≠ (s.directories c).metaSlot := by
  have bound {p : DirectoryPtr} (member : p ∈ createdList s) : p < s.nextDirectory := seated.paths.mem.mp member
  have here : c ∈ createdList s := by simp [split]
  refine ⟨bound here, fun c' member same => ?_⟩
  have there : c' ∈ createdList s := by simp [split, member]
  obtain rfl := seated.apart c' (bound there) c (bound here) same
  exact (notMem_of_split seated.paths.nodup split).1 member

theorem Seated.hung_start : Hung d s [] s where
  rest := rfl
  seats _ := ⟨rfl, rfl, rfl⟩
  children p x c := by
    rw [(seated.bare p).2.2]
    simp

theorem Seated.hangLoop_iff : (∃ t, loadLoop initChildDirectory (createdList s) s = (t, true)) ↔
    ∀ i, d.Seats i → isMountPoint (d.dirMetas i).dirName = false →
      ∃ j, d.Seats j ∧ (d.dirMetas j).dirName = getDirName (d.dirMetas i).dirName := by
  have decides : (∃ t, loadLoop initChildDirectory (createdList s) s = (t, true)) ↔
      ∀ pre c post, createdList s = pre ++ c :: post → (isMountPoint (s.dirMeta c).dirName = false →
        ∃ p, s.createdDirs.lookup (getDirName (s.dirMeta c).dirName) = some p) := by
    simp only [loadLoop_iff]
    refine exists_visited_iff (fun pre t => Hung d s pre t) (fun pre c post u t split hung done => ?_)
      (fun pre c post u split hung => ?_) seated.hung_start
    · obtain ⟨bound, apart⟩ := seated.apart_of_split split
      exact hung.round (seated.own_dh bound) apart done
    · obtain ⟨bound, apart⟩ := seated.apart_of_split split
      exact hung.round_iff (seated.own_dh bound) apart
  rw [decides]
  constructor
  · intro all i seats below
    obtain ⟨c, bound, rfl⟩ := (seated.seats i).mpr seats
    obtain ⟨pre, post, split⟩ := List.append_of_mem (seated.paths.mem.mpr bound)
    have found := all pre c post split
    rw [seated.dirMeta] at found
    obtain ⟨p, found⟩ := found below
    obtain ⟨bound', same⟩ := (seated.paths _ p).mp found
    exact ⟨_, (seated.seats _).mp ⟨p, bound', rfl⟩, same⟩
  · intro parents pre c post split below
    have bound := (seated.apart_of_split split).1
    rw [seated.dirMeta] at below ⊢
    obtain ⟨j, seats, same⟩ := parents _ ((seated.seats _).mp ⟨c, bound, rfl⟩) below
    obtain ⟨p, bound', rfl⟩ := (seated.seats j).mpr seats
    exact ⟨p, (seated.paths _ p).mpr ⟨bound', same⟩⟩

theorem Seated.hangLoop_hung (done : loadLoop initChildDirectory (createdList s) s = (t, true)) :
    Hung d s (createdList s) t := by
  refine Visited.rule (fun pre t => Hung d s pre t) (fun pre c post u t split hung done => ?_)
    seated.hung_start (loadLoop_iff.mp done)
  obtain ⟨bound, apart⟩ := seated.apart_of_split split
  exact hung.round (seated.own_dh bound) apart done

theorem Seated.seating (hung : Hung d s (createdList s) t) : Seating d t := by
  have slot (p : DirectoryPtr) : (t.directories p).metaSlot = (s.directories p).metaSlot := (hung.seats p).1
  have indices := congrArg (fun u : FileSystem => (u.createdDirs, u.createdDhs, u.nextDirectory, u.freeDhs)) hung.rest
  obtain ⟨dirs, dhs, next, freeDhs⟩ : t.createdDirs = s.createdDirs ∧ t.createdDhs = s.createdDhs ∧
    t.nextDirectory = s.nextDirectory ∧ t.freeDhs = s.freeDhs := by simpa using indices
  refine
    { rest := ?_
      taken := fun i => ?_
      apart := fun p bound q bound' same => ?_
      bare := fun p => ?_
      paths := ?_
      handles := ?_
      children := fun p x c => ?_
      free := ?_ }
  · have rest := congrArg (fun u : FileSystem => { u with
        freeDhs := []
        directories := (unmounted d).directories
        nextDirectory := 0
        createdDirs := ∅
        createdDhs := ∅ }) hung.rest
    exact rest.trans seated.rest
  · rw [← seated.seats, next]
    simp only [slot]
  · rw [next] at bound bound'
    rw [slot, slot] at same
    exact seated.apart p bound q bound' same
  · rw [(hung.seats p).2.1, (hung.seats p).2.2]
    exact ⟨(seated.bare p).1, (seated.bare p).2.1⟩
  · rw [dirs, next]
    simp only [slot]
    exact seated.paths
  · rw [dhs, next]
    simp only [slot]
    exact seated.handles
  · rw [hung.children, seated.paths.mem, next, dirs, slot, seated.dirMeta]
  · rw [freeDhs]
    exact seated.free

end Loaded

section Directories
variable [Crc32] {d : Disk} {s t : FileSystem}

theorem seatLoop_iff : (∃ t, loadLoop initDirSlot (dirSlots d) (unmounted d).blockInitializeMeta = (t, true)) ↔
    (∀ i < d.superMeta.maxFileNum, (d.dirMetas i).crc = (d.dirMetas i).calcCrc) ∧
      (∀ i, d.Seats i → (d.dirMetas i).dirName ≠ [] ∧ (d.dirMetas i).dh = i) ∧
      ∀ i, d.Seats i → ∀ j, d.Seats j → (d.dirMetas i).dirName = (d.dirMetas j).dirName → i = j := by
  have new {pre post : List Nat} {i : Nat} (split : dirSlots d = pre ++ i :: post) : i ∉ pre :=
    (notMem_of_split List.nodup_range' split).1
  simp only [loadLoop_iff]
  refine (exists_visited_iff _
    (fun pre i post s t split seated done => Seated.round seated rfl (new split) done)
    (fun pre i post s split seated => seated.round_iff rfl (new split)) (seated_start d)).trans ?_
  refine forall_split_iff.trans ?_
  constructor
  · rintro ⟨alone, pairs⟩
    refine ⟨fun i bound => (alone i (mem_slots.mpr bound)).1,
      fun i seats => (alone i (mem_slots.mpr seats.1)).2 seats.2, ?_⟩
    rintro i ⟨bound, used⟩ j ⟨bound', used'⟩ same
    by_contra apart
    rcases Nat.lt_or_gt_of_ne apart with before | behind
    · exact pairwise_range' pairs before bound' used used' same
    · exact pairwise_range' pairs behind bound used' used same.symm
  · rintro ⟨intact, fits, distinct⟩
    refine ⟨fun i member => ⟨intact i (mem_slots.mp member), fun used => fits i ⟨mem_slots.mp member, used⟩⟩, ?_⟩
    refine (List.nodup_range' (s := 0) (n := d.superMeta.maxFileNum)).imp_of_mem ?_
    intro i j member member' apart used used' same
    exact apart (distinct i ⟨mem_slots.mp member, used⟩ j ⟨mem_slots.mp member', used'⟩ same)

theorem seatLoop_seated (done : loadLoop initDirSlot (dirSlots d) (unmounted d).blockInitializeMeta = (t, true)) :
    Seated d (unmounted d).blockInitializeMeta (dirSlots d) t := by
  refine Visited.rule (fun pre s => Seated d (unmounted d).blockInitializeMeta pre s)
    (fun pre i post s t split seated done => ?_) (seated_start d) (loadLoop_iff.mp done)
  exact seated.round rfl (notMem_of_split List.nodup_range' split).1 done

/-- The loading of the directories succeeds just when the directories of the image are in order. -/
theorem dirInitializeMeta_iff : (∃ t, (unmounted d).blockInitializeMeta.dirInitializeMeta = (t, true)) ↔ d.Furnished := by
  have loops : (∃ t, (unmounted d).blockInitializeMeta.dirInitializeMeta = (t, true)) ↔
      ∃ s, loadLoop initDirSlot (dirSlots d) (unmounted d).blockInitializeMeta = (s, true) ∧
        ∃ t, loadLoop initChildDirectory (createdList s) s = (t, true) := by
    unfold dirInitializeMeta
    cases first : loadLoop initDirSlot (dirSlots d) (unmounted d).blockInitializeMeta with
    | mk s all =>
      have slots : List.range' 0 (unmounted d).blockInitializeMeta.superMeta.maxFileNum = dirSlots d := rfl
      rw [slots, first]
      cases all <;> simp
  rw [loops]
  constructor
  · rintro ⟨s, first, later⟩
    obtain ⟨intact, fits, distinct⟩ := seatLoop_iff.mp ⟨s, first⟩
    exact
      { intact := intact
        named := fun i seats => (fits i seats).1
        own := fun i seats => (fits i seats).2
        distinct := distinct
        parent := (seatLoop_seated first).hangLoop_iff.mp later }
  · intro furnished
    obtain ⟨s, first⟩ := seatLoop_iff.mpr
      ⟨furnished.intact, fun i seats => ⟨furnished.named i seats, furnished.own i seats⟩, furnished.distinct⟩
    exact ⟨s, first, (seatLoop_seated first).hangLoop_iff.mpr furnished.parent⟩

/-- The directories that are loaded are those of the image. -/
theorem dirInitializeMeta_seating (done : (unmounted d).blockInitializeMeta.dirInitializeMeta = (t, true)) :
    Seating d t := by
  unfold dirInitializeMeta at done
  split at done
  · simp at done
  · next s first =>
    have seated : Seated d (unmounted d).blockInitializeMeta (dirSlots d) s := seatLoop_seated first
    exact seated.seating (seated.hangLoop_hung done)

end Directories

end FileSystem

end BlockFs
