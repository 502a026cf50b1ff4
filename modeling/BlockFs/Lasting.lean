import BlockFs.Nesting
import BlockFs.Tidiness

namespace BlockFs.FileSystem

/-- What is asked of a call for the device to keep up with it: it needs no more blocks than 32 bits can
count, its truncation gives up before it has taken anything if it does, it enters no file under a name
that another has or without a name, and it uproots no directory. -/
structure LastingCall (s : FileSystem) (op : Op) : Prop where
  narrow : s.NarrowCall op
  settles : s.SettlesCall op
  fair : ¬s.Collides op
  named : ¬s.Nameless op
  stays : ¬s.Uproots op

/-- A state whose device tells all there is to last. -/
structure Lasting [Crc32] (s : FileSystem) : Prop where
  coherent : ∃ lost, Coherent s lost
  indexed : Indexed s
  flushed : Flushed s
  tenanted : Tenanted s
  tidy : Tidy s
  nested : Nested s

section Mounted
variable [Crc32] {d : Disk} (env : Env) (attempts : Nat)

/-- A fresh mount has written the root, and nothing else differs from the format. -/
theorem flushed_mounted (d : Disk) : Flushed (mounted d env attempts) := by
  have intact (i : Nat) : (rootTable env i).Intact := by
    rw [rootTable, Function.update_apply]
    split
    · exact DirMeta.sealed_intact _
    · exact DirMeta.sealed_intact _
  have table (i : Nat) : (mounted d env attempts).disk.dirMetas i = rootTable env i := by
    change (if _ then _ else _) = _
    split
    · rfl
    · next outside =>
      change formattedDir i = _
      have other : i ≠ 0 := by
        rintro rfl
        exact outside (by decide)
      rw [rootTable, Function.update_of_ne other]
  have steady (homes : Set Nat) (i : Nat) : (formattedFile i).AtRest homes := by
    refine ⟨rfl, ?_, fun used => absurd used (by simp)⟩
    have childless : (formattedFile i).childFh = -1 := rfl
    omega
  exact
    { superMeta := rfl
      dirMetaSize := rfl
      fileMetaSize := rfl
      dirs := ⟨fun i _ => intact i, fun i _ => table i ▸ intact i, fun i _ => by rw [table]; rfl⟩
      files := ⟨fun i _ => steady _ i, fun i _ => steady _ i, fun _ _ => rfl⟩
      fileBlocks := ⟨fun _ _ => FileBlockMeta.sealed_intact _, fun _ _ => FileBlockMeta.sealed_intact _, fun _ _ => rfl⟩ }

theorem nested_mounted (d : Disk) : Nested (mounted d env attempts) where
  root := by
    change ((AList.insert ['/'] 0 ∅).lookup ['/']).isSome
    rw [AList.lookup_insert]
    rfl
  named p d found := by
    rcases lookup_of_insert found with ⟨rfl, _⟩ | ⟨_, none⟩
    · simp
    · simp at none
  parented p d found inner := by
    rcases lookup_of_insert found with ⟨rfl, _⟩ | ⟨_, none⟩
    · exact absurd rfl inner
    · simp at none
  used x := by
    change (rootTable env x).used = ((AList.insert 0 0 ∅).lookup x).isSome
    by_cases root : x = 0
    · rw [root, AList.lookup_insert, rootTable, Function.update_self]
      rfl
    · rw [AList.lookup_insert_ne root, rootTable, Function.update_of_ne root]
      rfl
  bounded x known := by
    rcases known with listed | entered
    · obtain ⟨_, bound⟩ := List.mem_range'_1.mp listed
      rw [kMaxFileNum]
      omega
    · obtain ⟨d, found⟩ := Option.isSome_iff_exists.mp entered
      rcases lookup_of_insert found with ⟨rfl, _⟩ | ⟨_, none⟩
      · decide
      · simp at none

theorem lasting_mounted (large : 675282944 ≤ d.size) : Lasting (mounted d env attempts) where
  coherent := ⟨_, coherent_mounted large env attempts⟩
  indexed := indexed_mounted d env attempts
  flushed := flushed_mounted env attempts d
  tenanted i used := by
    have unused : ((mounted d env attempts).fileMetas i).used = false := rfl
    rw [unused] at used
    simp at used
  tidy :=
    { leased := fun b used => by
        have unused : ((mounted d env attempts).fileBlockMetas b).used = false := rfl
        rw [unused] at used
        simp at used
      blank := fun i _ => rfl
      empty := fun b _ => rfl }
  nested := nested_mounted env attempts d

end Mounted

section Calls
variable [Crc32] {s t : FileSystem} {env : Env} {op : Op} {r : Int}

omit [Crc32] in
/-- A directory that is not uprooted goes to a path of its own. -/
theorem LastingCall.vacates {oldpath newpath : Name} (lasting : s.LastingCall (.rename oldpath newpath))
    (unfiled : ∀ f, s.getCreatedFile oldpath ≠ .ok f) : s.Vacates oldpath newpath := by
  intro path path' source target away
  by_contra taken
  exact lasting.stays ⟨unfiled, path, path', source, target, away, .inr (.inl (Option.isSome_iff_ne_none.mpr taken))⟩

/-- What lasts before a call lasts behind it. -/
theorem Lasting.call (lasting : Lasting s) (ok : env.IoOk) (allowed : s.LastingCall op)
    (result : s.call env op = .ok (t, r)) : Lasting t := by
  obtain ⟨lost, coherent⟩ := lasting.coherent
  have outcome := call_outcome coherent ok allowed.narrow result
  obtain ⟨lost', _, after⟩ := outcome.coherent coherent
  exact
    { coherent := ⟨lost', after⟩
      indexed := outcome.indexed coherent lasting.indexed allowed.fair
      flushed := lasting.flushed.call coherent lasting.indexed (lasting.tenanted.homed coherent lasting.indexed) ok
        allowed.narrow allowed.settles allowed.named (fun oldpath newpath same unfiled => by
          subst same
          exact allowed.vacates unfiled) result
      tenanted := outcome.tenanted coherent lasting.tenanted allowed.settles
      tidy := outcome.tidy lasting.tidy coherent allowed.settles
      nested := lasting.nested.call coherent.housed ok allowed.stays result }

end Calls

section Concrete

instance (s : FileSystem) (f : FilePtr) (n : Nat) : Decidable (s.LosesSlot f n) :=
  inferInstanceAs (Decidable (_ ∧ _))

/-- A check that a growth finds room in its file block and a shrink gives up before it has taken a slot. -/
def isSettledCall (s : FileSystem) (op : Op) : Bool :=
  match s.ftruncateCall op with
  | none => true
  | some (f, n) =>
    decide (s.Narrow f n ∧
      (∀ b ∈ s.attached f ++ s.freeFbhs.take 1,
        (s.fileBlockMetas b).usedBlockNum + blocksNeeded (s.fileMeta f).size n ≤ kFileBlockCapacity) ∧
      ¬s.LosesSlot f n)

/-- A check that a call names the file it enters. -/
def isNamedCall : Op → Bool
  | .createFile path => !path.isEmpty
  | .openFile path _ => !path.isEmpty
  | .rename _ newpath => !(getFileName newpath).isEmpty
  | _ => true

/-- A check that a call moves no directory and takes none away that has no path. -/
def isStayingCall (s : FileSystem) : Op → Bool
  | .rmdir path => !path.isEmpty
  | .rename oldpath _ =>
    match s.getCreatedFile oldpath with
    | .ok _ => true
    | .error _ => false
  | _ => true

def isLastingCall (s : FileSystem) (op : Op) : Bool :=
  s.isSettledCall op && !s.collides op && isNamedCall op && s.isStayingCall op

theorem isSettledCall_sound (s : FileSystem) (op : Op) (passed : s.isSettledCall op = true) :
    s.NarrowCall op ∧ s.SettlesCall op := by
  unfold isSettledCall at passed
  cases call : s.ftruncateCall op with
  | none => exact ⟨fun f n made => by simp [call] at made, fun f n made => by simp [call] at made⟩
  | some target =>
    obtain ⟨f, n⟩ := target
    rw [call] at passed
    obtain ⟨narrow, room, goes⟩ := of_decide_eq_true passed
    refine ⟨fun g k made => ?_, fun g k made => ?_⟩
    · obtain ⟨rfl, rfl⟩ := Prod.mk.inj (Option.some.inj (call.symm.trans made))
      exact narrow
    · obtain ⟨rfl, rfl⟩ := Prod.mk.inj (Option.some.inj (call.symm.trans made))
      refine ⟨?_, fun ⟨_, loses⟩ => goes loses⟩
      rintro ⟨_, b, isNew, rest, found, _, overflow⟩
      have fits := room b found.mem_candidates
      omega

theorem isLastingCall_sound (s : FileSystem) (op : Op) (passed : s.isLastingCall op = true) : s.LastingCall op := by
  simp only [isLastingCall, Bool.and_eq_true, Bool.not_eq_true'] at passed
  obtain ⟨⟨⟨settled, apart⟩, named⟩, stays⟩ := passed
  obtain ⟨narrow, settles⟩ := isSettledCall_sound s op settled
  refine ⟨narrow, settles, fun collision => ?_, fun nameless => ?_, fun uproots => ?_⟩
  · rw [collision.detected] at apart
    exact Bool.noConfusion apart
  · cases op <;> simp_all [isNamedCall, Nameless]
  · cases op with
    | rmdir path => simp_all [isStayingCall, Uproots]
    | rename oldpath newpath =>
      obtain ⟨unfiled, _⟩ := uproots
      cases found : s.getCreatedFile oldpath with
      | ok f => exact unfiled f found
      | error e => simp [isStayingCall, found] at stays
    | _ => exact uproots

end Concrete

end BlockFs.FileSystem
