import BlockFs.Pins

namespace BlockFs.FileSystem

/-- The file loop has still to visit the slots `rest`: they are as on the device `d`, and every file
so far has another slot, which is used there by a file that is not temporary. -/
structure Loading (d : Disk) (rest : List Nat) (s : FileSystem) : Prop where
  ahead : ∀ i ∈ rest, (s.fileMetas i).identity = (d.fileMetas i).identity
  files : ∀ g < s.nextFile, (s.files g).metaSlot ∉ rest ∧
    (s.fileMeta g).identity = (d.fileMetas (s.files g).metaSlot).identity ∧
    (d.fileMetas (s.files g).metaSlot).used = true ∧ (d.fileMetas (s.files g).metaSlot).isTemp = false

/-- The slots and the files in them. -/
structure Berths where
  fileMetas : Nat → FileMeta
  slots : FilePtr → Nat
  nextFile : Nat

def berths (s : FileSystem) : Berths :=
  { fileMetas := s.fileMetas, slots := fun f => (s.files f).metaSlot, nextFile := s.nextFile }

section Loading
variable {d : Disk} {rest : List Nat} {s s' : FileSystem}

theorem Loading.congr (loading : Loading d rest s) (same : s'.berths = s.berths) : Loading d rest s' := by
  have metas : s'.fileMetas = s.fileMetas := congrArg Berths.fileMetas same
  have slots (f : FilePtr) : (s'.files f).metaSlot = (s.files f).metaSlot :=
    congrFun (congrArg Berths.slots same) f
  have nextFile : s'.nextFile = s.nextFile := congrArg Berths.nextFile same
  constructor
  · rw [metas]
    exact loading.ahead
  · intro g known
    rw [fileMeta, slots, metas]
    exact loading.files g (nextFile ▸ known)

theorem identity_update {metas : Nat → FileMeta} {i j : Nat} {m : FileMeta}
    (same : i = j → m.identity = (metas j).identity) :
    (Function.update metas j m i).identity = (metas i).identity := by
  by_cases here : i = j
  · rw [here, Function.update_self, same here]
  · rw [Function.update_of_ne here]

theorem addFileNoLock_berths (s : FileSystem) (f : FilePtr) : (s.addFileNoLock f).berths = s.berths := rfl

theorem addChildFile_berths (s : FileSystem) (d : DirectoryPtr) (f : FilePtr) :
    (s.addChildFile d f).1.berths = s.berths := by
  unfold addChildFile
  split <;> rfl

theorem addFileBlockNoLock_berths (s : FileSystem) (f : FilePtr) (b : FileBlockPtr) :
    (s.addFileBlockNoLock f b).1.berths = s.berths := by
  unfold addFileBlockNoLock
  split
  · rfl
  · have slots : (fun g => ((s.modifyFile f fun o =>
        { o with itemMaps := o.itemMaps.insert (s.fileBlockMetas b).fileCut b }).files g).metaSlot) =
        fun g => (s.files g).metaSlot := by
      funext g
      exact view_update s.files f g (·.metaSlot) rfl
    exact congrArg (fun slots => (⟨s.fileMetas, slots, s.nextFile⟩ : Berths)) slots

variable [Crc32] {env : Env}

/-- A temporary file is cleared, and the slot it names is sealed. -/
theorem clearTemp_berths (s : FileSystem) (i : Nat) :
    ((s.modifyFileMeta i FileMeta.clear).writeFileMeta env (s.fileMetas i).fh).1.berths =
      { s.berths with
        fileMetas := Function.update (Function.update s.fileMetas i (s.fileMetas i).clear)
          (s.fileMetas i).fh (Function.update s.fileMetas i (s.fileMetas i).clear (s.fileMetas i).fh).sealed } := by
  rw [FileSystem.writeFileMeta, pwriteDirect]
  dsimp only
  split <;> rfl

/-- One round of the file loop puts a file in its slot, or clears or skips the slot. -/
theorem Loading.initFileSlot {i : Nat} (loading : Loading d (i :: rest) s) (once : i ∉ rest)
    (done : s.initFileSlot env i = (s', true)) : Loading d rest s' := by
  have slot := loading.ahead i List.mem_cons_self
  have used : (s.fileMetas i).used = (d.fileMetas i).used := congrArg Identity.used slot
  have isTemp : (s.fileMetas i).isTemp = (d.fileMetas i).isTemp := congrArg Identity.isTemp slot
  have skipped : Loading d rest s :=
    { ahead := fun j member => loading.ahead j (List.mem_cons_of_mem i member)
      files := fun g known => by
        obtain ⟨off, kept⟩ := loading.files g known
        exact ⟨fun member => off (List.mem_cons_of_mem i member), kept⟩ }
  unfold FileSystem.initFileSlot at done
  dsimp only at done
  split at done
  · simp at done
  split at done
  swap
  · obtain ⟨rfl, _⟩ := Prod.mk.inj done
    exact skipped.congr rfl
  next here =>
  split at done
  · have written := @clearTemp_berths _ env s i
    rw [done] at written
    have metas : s'.fileMetas = _ := congrArg Berths.fileMetas written
    have slots (f : FilePtr) : (s'.files f).metaSlot = (s.files f).metaSlot :=
      congrFun (congrArg Berths.slots written) f
    have nextFile : s'.nextFile = s.nextFile := congrArg Berths.nextFile written
    have kept {j : Nat} (other : j ≠ i) : (s'.fileMetas j).identity = (s.fileMetas j).identity := by
      rw [metas, identity_update fun same => by subst same; rfl, Function.update_of_ne other]
    refine ⟨fun j member => ?_, fun g known => ?_⟩
    · rw [kept fun same => once (same ▸ member)]
      exact skipped.ahead j member
    · obtain ⟨off, same, rest'⟩ := loading.files g (nextFile ▸ known)
      rw [fileMeta, slots, kept fun here => off (here ▸ List.mem_cons_self)]
      exact ⟨fun member => off (List.mem_cons_of_mem i member), same, rest'⟩
  next lasting =>
  split at done
  · simp at done
  split at done
  · simp at done
  -- A new file gets the slot.
  let u : FileSystem := { s with
    files := Function.update s.files s.nextFile
      { metaSlot := i, nlink := 0, locked := false, deleted := false, itemMaps := ∅ }
    nextFile := s.nextFile + 1 }
  have boarded : Loading d rest u := by
    refine ⟨skipped.ahead, fun g known => ?_⟩
    rcases Nat.lt_succ_iff_lt_or_eq.mp known with before | rfl
    · obtain ⟨off, same, rest'⟩ := skipped.files g before
      rw [fileMeta, show u.files g = s.files g from Function.update_of_ne before.ne _ _]
      exact ⟨off, same, rest'⟩
    · have own : (u.files s.nextFile).metaSlot = i := by
        dsimp only [u]
        rw [Function.update_self]
      rw [fileMeta, own]
      exact ⟨once, slot, used ▸ here, isTemp ▸ Bool.eq_false_iff.mpr lasting⟩
  split at done
  · simp at done
  · next dir _ =>
    have entered : (if 0 < (s.fileMetas i).childFh then
        { u with createdFhs := u.createdFhs.insert (s.fileMetas i).fh s.nextFile }
        else u.addFileNoLock s.nextFile).berths = u.berths := by
      split <;> rfl
    have state : s' = _ := (congrArg Prod.fst done).symm
    rw [state]
    exact boarded.congr ((addChildFile_berths _ dir s.nextFile).trans entered)

/-- What every round of the file loop passes on to the slots behind it holds at its end. -/
theorem loadFiles {holds : List Nat → FileSystem → Prop}
    (round : ∀ i rest s t, holds (i :: rest) s → i ∉ rest → s.initFileSlot env i = (t, true) → holds rest t)
    {slots : List Nat} (start : holds slots s) (nodup : slots.Nodup)
    (done : loadLoop (FileSystem.initFileSlot env) slots s = (s', true)) : holds [] s' := by
  induction slots generalizing s with
  | nil =>
    obtain ⟨rfl, _⟩ := Prod.mk.inj done
    exact start
  | cons i rest ih =>
    obtain ⟨once, nodup⟩ := List.nodup_cons.mp nodup
    rw [loadLoop] at done
    split at done
    · simp at done
    · next t same => exact ih (round i rest s t start once same) nodup done

omit [Crc32] in
/-- A loop whose rounds keep a view of the state keeps it. -/
theorem loadLoop_keeps {α : Type} (view : FileSystem → α) {round : FileSystem → Nat → FileSystem × Bool}
    (keeps : ∀ s i, view (round s i).1 = view s) (slots : List Nat) (s : FileSystem) :
    view (loadLoop round slots s).1 = view s := by
  induction slots generalizing s with
  | nil => rfl
  | cons i rest ih =>
    have first := keeps s i
    rw [loadLoop]
    split <;> next t same =>
      rw [same] at first
      first
        | exact first
        | exact (ih t).trans first

/-- The loading of the directories leaves the handling of files alone. -/
theorem dirInitializeMeta_fileSide (s : FileSystem) : s.dirInitializeMeta.1.fileSide = s.fileSide := by
  have slots (s : FileSystem) (i : Nat) : (s.initDirSlot i).1.fileSide = s.fileSide := by
    unfold initDirSlot
    dsimp only
    split
    · rfl
    split
    swap
    · rfl
    split
    · rfl
    split
    · rfl
    · exact (addDirectory2CreateNolock_fileSide _ _).trans rfl
  have children (s : FileSystem) (d : DirectoryPtr) : (s.initChildDirectory d).1.fileSide = s.fileSide := by
    unfold initChildDirectory
    split
    · rfl
    · split
      · rfl
      · exact addChildDirectory_fileSide _ _ _
  have first := loadLoop_keeps fileSide slots (List.range' 0 s.superMeta.maxFileNum) s
  unfold dirInitializeMeta
  split
  · next t same =>
    rw [same] at first
    exact first
  · next t same =>
    rw [same] at first
    exact (loadLoop_keeps fileSide children _ t).trans first

omit [Crc32] in
theorem berths_of_fileSide (same : s'.fileSide = s.fileSide) : s'.berths = s.berths :=
  congrArg (fun side : FileSide =>
    ({ fileMetas := side.fileMetas, slots := fun f => (side.files f).metaSlot, nextFile := side.nextFile } :
      Berths)) same

theorem fileBlockLoop_berths {indexes : List Nat} {b : Bool}
    (done : fileBlockLoop env indexes s = .ok (s', b)) : s'.berths = s.berths := by
  have taken (m : FileBlockMeta) (fuel i : Nat) (t u : FileSystem) (b : Bool)
      (done : takeSpecificBlockIds m fuel i t = .ok (u, b)) : u.berths = t.berths := by
    induction fuel generalizing i t with
    | zero =>
      obtain ⟨rfl, _⟩ := Prod.mk.inj (Except.ok.inj done)
      rfl
    | succ fuel ih =>
      obtain ⟨id, _, rest⟩ := Except.bind_eq_ok.mp done
      split at rest
      · exact (ih _ _ rest).trans rfl
      · obtain ⟨rfl, _⟩ := Prod.mk.inj (Except.ok.inj rest)
        rfl
  have visited (t u : FileSystem) (i : Nat) (b : Bool) (done : t.initFileBlockSlot env i = .ok (u, b)) :
      u.berths = t.berths := by
    unfold initFileBlockSlot at done
    dsimp only at done
    split at done
    · obtain ⟨rfl, _⟩ := Prod.mk.inj (Except.ok.inj done)
      rfl
    split at done
    swap
    · obtain ⟨rfl, _⟩ := Prod.mk.inj (Except.ok.inj done)
      rfl
    split at done
    · have state : u = _ := (congrArg Prod.fst (Except.ok.inj done)).symm
      rw [state, writeFileBlockMeta, pwriteDirect]
      split <;> rfl
    split at done
    · obtain ⟨rfl, _⟩ := Prod.mk.inj (Except.ok.inj done)
      rfl
    · next f _ =>
      obtain ⟨⟨v, all⟩, ids, rest⟩ := Except.bind_eq_ok.mp done
      have kept := taken _ _ _ _ _ _ ids
      cases all with
      | false =>
        obtain ⟨rfl, _⟩ := Prod.mk.inj (Except.ok.inj rest)
        exact kept
      | true =>
        have state : u = _ := (congrArg Prod.fst (Except.ok.inj rest)).symm
        rw [state]
        exact (addFileBlockNoLock_berths v f i).trans kept
  induction indexes generalizing s with
  | nil =>
    obtain ⟨rfl, _⟩ := Prod.mk.inj (Except.ok.inj done)
    rfl
  | cons i rest ih =>
    obtain ⟨⟨t, more⟩, first, later⟩ := Except.bind_eq_ok.mp done
    have kept := visited s t i more first
    cases more with
    | false =>
      obtain ⟨rfl, _⟩ := Prod.mk.inj (Except.ok.inj later)
      exact kept
    | true => exact (ih later).trans kept

/-- What only the slots and the files in them decide, and every round of the file loop passes on, holds
once the device is mounted. -/
theorem mountFileSystem_loads {holds : List Nat → FileSystem → Prop}
    (congr : ∀ rest s t, t.berths = s.berths → holds rest s → holds rest t)
    (round : ∀ i rest s t, holds (i :: rest) s → i ∉ rest → s.initFileSlot env i = (t, true) → holds rest t)
    (start : holds (List.range' 0 d.superMeta.maxFileNum) (unmounted d).blockInitializeMeta)
    {m : FileSystem} (done : mountFileSystem env d = .ok (m, 0)) : holds [] m := by
  have side := dirInitializeMeta_fileSide (unmounted d).blockInitializeMeta
  have dirs := congr _ _ _ (berths_of_fileSide side) start
  have super : (unmounted d).blockInitializeMeta.dirInitializeMeta.1.superMeta = d.superMeta :=
    congrArg FileSide.superMeta side
  unfold mountFileSystem at done
  dsimp only at done
  split at done
  · simp at done
  split at done
  · simp at done
  obtain ⟨⟨t, loaded⟩, first, rest⟩ := Except.bind_eq_ok.mp done
  cases loaded with
  | false => simp at rest
  | true =>
    have whole : holds [] t := by
      unfold initializeMeta at first
      split at first
      · simp at first
      split at first
      · simp at first
      next u same =>
      rw [same] at dirs super
      split at first
      · simp at first
      next v same' =>
      rw [fileInitializeMeta, super] at same'
      exact congr _ _ _ (fileBlockLoop_berths first) (loadFiles round dirs List.nodup_range' same')
    obtain ⟨⟨u, ret⟩, point, last⟩ := Except.bind_eq_ok.mp rest
    have kept : u.fileSide = t.fileSide := by
      unfold makeMountPoint at point
      split at point
      · obtain ⟨rfl, _⟩ := Prod.mk.inj (Except.ok.inj point)
        rfl
      · exact createDirectory_fileSide t env point
    dsimp only at last
    split at last
    · simp at last
    · obtain ⟨rfl, _⟩ := Prod.mk.inj (Except.ok.inj last)
      exact congr _ _ _ (berths_of_fileSide kept) whole

/-- Every file of a mounted device sits in a slot that is used on the device by a file that is not
temporary, and has its identity from there. -/
theorem mountFileSystem_files {m : FileSystem} (done : mountFileSystem env d = .ok (m, 0)) :
    Loading d [] m := by
  refine @mountFileSystem_loads d _ env (Loading d) ?_ ?_ ?_ m done
  · exact fun _ _ _ same loading => loading.congr same
  · exact fun _ _ _ _ loading once result => loading.initFileSlot once result
  · exact ⟨fun i _ => rfl, fun g known => absurd known (Nat.not_lt_zero g)⟩

end Loading

end BlockFs.FileSystem
