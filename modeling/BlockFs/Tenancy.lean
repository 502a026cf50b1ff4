import BlockFs.Indexes
import BlockFs.Flushing

namespace BlockFs.FileSystem

/-- Every file slot in use belongs to a file that is entered under it. -/
def Tenanted (s : FileSystem) : Prop :=
  ∀ i, (s.fileMetas i).used = true → ∃ f, s.IsRegistered f ∧ (s.files f).metaSlot = i

section Tenancy
variable [Crc32] {s t u : FileSystem} {env : Env} {lost : Lost} {f g : FilePtr} {n : Nat} {r : Int}

omit [Crc32] in
/-- The files stay under their slots, and no slot comes into use. -/
theorem Tenanted.keeps (tenanted : Tenanted s)
    (stays : ∀ f, s.IsRegistered f → t.IsRegistered f ∧ (t.files f).metaSlot = (s.files f).metaSlot)
    (used : ∀ i, (t.fileMetas i).used = true → (s.fileMetas i).used = true) : Tenanted t := by
  intro i inUse
  obtain ⟨f, here, slot⟩ := tenanted i (used i inUse)
  obtain ⟨there, same⟩ := stays f here
  exact ⟨f, there, same.trans slot⟩

omit [Crc32] in
theorem Tenanted.of_sameIndex (tenanted : Tenanted s) (same : SameIndex s t)
    (used : ∀ i, (t.fileMetas i).used = (s.fileMetas i).used) : Tenanted t :=
  tenanted.keeps (fun f here => ⟨(same.isRegistered f).mpr here, same.metaSlot f⟩) fun i inUse => used i ▸ inUse

omit [Crc32] in
theorem SameSides.tenanted (same : SameSides s t) (tenanted : Tenanted s) : Tenanted t := by
  have metas : t.fileMetas = s.fileMetas := congrArg FileSide.fileMetas same.fileSide
  exact tenanted.of_sameIndex (Quiet.of_fileSide same.fileSide).sameIndex fun i => by rw [metas]

/-- A file that is entered anew leaves the others where they are. -/
theorem Reentered.stays (coherent : Coherent s lost) (bound : f < s.nextFile) (reentered : Reentered s t f)
    (here : s.IsRegistered g) (apart : g ≠ f) :
    t.IsRegistered g ∧ (t.files g).metaSlot = (s.files g).metaSlot := by
  have bound' := coherent.registered.bound here
  have slot := (reentered.others g bound' apart).1.metaSlot
  have other : (s.files g).metaSlot ≠ (s.files f).metaSlot := fun same =>
    apart (coherent.consistent.metaSlot_unique bound' bound same)
  obtain ⟨fhs, before, into⟩ := reentered.createdFhs
  refine ⟨?_, slot⟩
  rw [IsRegistered, slot, into, AList.lookup_insert_ne (reentered.unshared g bound' apart)]
  rcases before with rfl | rfl
  · exact here
  · rw [AList.lookup_erase_ne other]
    exact here

theorem Created.tenanted (coherent : Coherent s lost) (tenanted : Tenanted s) {x : Nat} {rest : List Nat}
    {m : FileMeta} (created : Created s t x rest m) : Tenanted t := by
  intro i used
  by_cases new : i = x
  · refine ⟨s.nextFile, ?_, ?_⟩
    · rw [IsRegistered, created.files, Function.update_self, created.createdFhs]
      exact AList.lookup_insert _
    · rw [created.files, Function.update_self, new]
  · rw [created.fileMetas, Function.update_of_ne new] at used
    obtain ⟨f, here, slot⟩ := tenanted i used
    have old : f ≠ s.nextFile := (coherent.registered.bound here).ne
    have same : (t.files f).metaSlot = (s.files f).metaSlot := by rw [created.files, Function.update_of_ne old]
    refine ⟨f, ?_, same.trans slot⟩
    rw [IsRegistered, same, created.createdFhs, AList.lookup_insert_ne (slot ▸ new)]
    exact here

theorem Removed.tenanted (tenanted : Tenanted s) {dir : DirectoryPtr} (removed : Removed s t dir f) : Tenanted t := by
  intro i used
  have other : i ≠ (s.files f).metaSlot := by
    rintro rfl
    rw [removed.fileMetas, Function.update_self] at used
    have cleared : (s.fileMeta f).clear.sealed.used = false := rfl
    rw [cleared] at used
    simp at used
  rw [removed.fileMetas, Function.update_of_ne other] at used
  obtain ⟨g, here, slot⟩ := tenanted i used
  have apart : g ≠ f := by
    rintro rfl
    exact other slot.symm
  have same : (t.files g).metaSlot = (s.files g).metaSlot := by rw [removed.files, Function.update_of_ne apart]
  refine ⟨g, ?_, same.trans slot⟩
  rw [IsRegistered, same]
  rcases removed.index with ⟨fhs, _⟩ | ⟨fhs, _⟩
  · rw [fhs]
    exact here
  · rw [fhs, AList.lookup_erase_ne (slot ▸ other)]
    exact here

theorem Renamed.tenanted (coherent : Coherent s lost) (tenanted : Tenanted s) (bound : f < s.nextFile)
    {m : FileMeta} (renamed : Renamed s t f m) : Tenanted t := by
  have reentered := renamed.reentered coherent.consistent bound
  refine tenanted.keeps (fun g here => ?_) fun i used => ?_
  · by_cases mine : g = f
    · subst mine
      exact ⟨reentered.self, by rw [renamed.files]⟩
    · exact reentered.stays coherent bound here mine
  · by_cases own : i = (s.files f).metaSlot
    · rw [renamed.fileMetas, own, Function.update_self, renamed.used] at used
      rw [own]
      exact used
    · rwa [renamed.fileMetas, Function.update_of_ne own] at used

theorem Change.tenanted {collides : Prop} (coherent : Coherent s lost) (tenanted : Tenanted s)
    (change : Change collides s t) : Tenanted t := by
  cases change with
  | quiet quiet _ => exact tenanted.of_sameIndex quiet.sameIndex quiet.resources.used
  | created created => exact created.tenanted coherent tenanted
  | removed _ _ _ removed => exact removed.tenanted tenanted
  | opened _ opened =>
    exact tenanted.keeps (fun g here => ⟨(opened.toRelinked.isRegistered g).mpr here, opened.toRelinked.metaSlot g⟩)
      fun i used => opened.toRelinked.fileMetas ▸ used
  | closed _ closed =>
    exact tenanted.keeps (fun g here => ⟨(closed.toRelinked.isRegistered g).mpr here, closed.toRelinked.metaSlot g⟩)
      fun i used => closed.toRelinked.fileMetas ▸ used
  | renamed known renamed =>
    exact renamed.tenanted coherent tenanted (coherent.registered.bound (known.registered coherent.registered))

theorem Extension.tenanted (tenanted : Tenanted s) (extension : Extension s env f n t r) : Tenanted t := by
  refine tenanted.of_sameIndex extension.sameIndex fun i => ?_
  cases extension with
  | refused => rfl
  | returned => rfl
  | overfull => rfl
  | inPlace =>
    rw [resized_fileMetas]
    exact view_update s.fileMetas (s.files f).metaSlot i (·.used) rfl
  | grown =>
    rw [grown_fileMetas]
    exact view_update s.fileMetas (s.files f).metaSlot i (·.used) rfl

/-- A shrink that goes through leaves the old slot unused and its file in the new one. -/
theorem Shrinkage.tenanted (coherent : Coherent s lost) (tenanted : Tenanted s) (bound : f < s.nextFile)
    {old : FileBlockPtr} (entries : (s.files f).itemMaps.entries = [⟨0, old⟩]) (shrinks : n < (s.fileMeta f).size)
    (keeps : ¬s.LosesSlot f n) (shrinkage : Shrinkage s env f n old t r) : Tenanted t := by
  have outcome := shrinkage.outcome coherent.consistent bound entries shrinks
  cases shrinkage with
  | noSlot => exact tenanted
  | noFileBlock free positive none => exact absurd ⟨by simp [free], .inl ⟨positive, none⟩⟩ keeps
  | noBlock free _ uneven none => exact absurd ⟨by simp [free], .inr (.inl ⟨uneven, none⟩)⟩ keeps
  | noDirectory free _ none => exact absurd ⟨by simp [free], .inr (.inr none)⟩ keeps
  | @shrunk w rest u fileBlock ids dir free child found =>
    have consistent := coherent.consistent
    have taken : w ∈ s.freeFhs := by simp [free]
    have distinct := consistent.metaSlot_not_free bound taken
    have same : (s.started f w rest n).fileMeta f = s.fileMeta f := Function.update_of_ne distinct _ _
    obtain ⟨consistent', _, _, slot⟩ := child.provided (consistent.started free f n) bound entries (same ▸ shrinks)
    have ready := consistent'.congr (adopted_sameResources u (s.files f).metaSlot w)
    have moved := shrunkTo dir f n old fileBlock distinct.symm ready.parents fun b here => (slot b here).distinct
    obtain ⟨_, shifted⟩ := outcome.resolve_left (by rintro ⟨failed, _⟩; simp at failed)
    obtain ⟨pool, rest', blocks, data, state⟩ := child.frame
    -- Off the two slots of the file nothing has changed.
    have others (i : Nat) (parent : i ≠ (s.files f).metaSlot) (apart : i ≠ w) :
        (((u.adopted (s.files f).metaSlot w).shrunk dir f (s.files f).metaSlot w n old fileBlock).fileMetas i) =
          s.fileMetas i := by
      rw [moved.fileMeta_other parent apart, state]
      change Function.update (Function.update s.fileMetas w _) (s.files f).metaSlot _ i = _
      rw [Function.update_of_ne parent, Function.update_of_ne apart]
    have cleared : ((u.adopted (s.files f).metaSlot w).shrunk dir f (s.files f).metaSlot w n old
        fileBlock).fileMetas (s.files f).metaSlot =
          ((u.adopted (s.files f).metaSlot w).fileMetas (s.files f).metaSlot).clear.sealed := by
      rw [moved.fileMetas, Function.update_self]
    have slot' : (((u.adopted (s.files f).metaSlot w).shrunk dir f (s.files f).metaSlot w n old
        fileBlock).files f).metaSlot = w := by
      rw [moved.files, Function.update_self]
    generalize (u.adopted (s.files f).metaSlot w).shrunk dir f (s.files f).metaSlot w n old fileBlock = v
      at shifted others cleared slot'
    intro i used
    by_cases parent : i = (s.files f).metaSlot
    · rw [parent, cleared] at used
      have unused : ((u.adopted (s.files f).metaSlot w).fileMetas (s.files f).metaSlot).clear.sealed.used = false := rfl
      rw [unused] at used
      simp at used
    by_cases apart : i = w
    · exact ⟨f, shifted.reentered.self, slot'.trans apart.symm⟩
    rw [others i parent apart] at used
    obtain ⟨g, here, at_⟩ := tenanted i used
    have other : g ≠ f := by
      rintro rfl
      exact parent at_.symm
    obtain ⟨there, same⟩ := shifted.reentered.stays coherent bound here other
    exact ⟨g, there, same.trans at_⟩

theorem Truncation.tenanted (coherent : Coherent s lost) (tenanted : Tenanted s) (bound : f < s.nextFile)
    (settles : s.Settles f n) (truncation : Truncation s env f n t r) : Tenanted t := by
  cases truncation with
  | grow _ extension => exact extension.tenanted tenanted
  | shrink shrinks entries shrinkage =>
    exact shrinkage.tenanted coherent tenanted bound entries shrinks fun loses => settles.2 ⟨shrinks, loses⟩
  | keep => exact tenanted

/-- A call whose truncation settles keeps every slot in use with its file. -/
theorem Outcome.tenanted {op : Op} (coherent : Coherent s lost) (tenanted : Tenanted s) (settles : s.SettlesCall op)
    (outcome : Outcome s env op t r) : Tenanted t := by
  have follow {v w : FileSystem} {lost' : Lost} (before : Coherent v lost') (there : Tenanted v)
      (path : Relation.ReflTransGen (Change (s.Collides op)) v w) : Tenanted w := by
    induction path with
    | refl => exact there
    | tail steps change ih => exact change.tenanted (coherent_of_changes before steps) ih
  cases outcome with
  | plain _ path => exact follow coherent tenanted path
  | truncated call same known truncation path _ =>
    have coherent' := same.coherent coherent
    have here := known.registered coherent'.registered
    obtain ⟨_, _, _, after⟩ := truncation.coherent coherent' here
    exact follow after (truncation.tenanted coherent' (same.tenanted tenanted) (coherent'.registered.bound here)
      (same.settles (settles _ _ call))) path
  | @wrote fd buffer len offset f b blocks v w data _ _ opened _ grown _ _ _ quiet homes =>
    have settle (there : Tenanted v) : Tenanted (w.stored data) := by
      have after := there.of_sameIndex quiet.sameIndex quiet.resources.used
      exact after
    rcases grown with ⟨_, rfl⟩ | ⟨n, call, truncation⟩
    · exact settle tenanted
    · have here := coherent.registered.opens fd f opened
      exact settle (truncation.tenanted coherent tenanted (coherent.registered.bound here) (settles _ _ call))

omit [Crc32] in
/-- Every slot in use is listed by the directory it names. -/
theorem Tenanted.homed [Crc32] (tenanted : Tenanted s) (coherent : Coherent s lost) (indexed : Indexed s) : Homed s := by
  intro i used
  obtain ⟨f, here, rfl⟩ := tenanted i used
  obtain ⟨d, ⟨bound, home⟩, lists⟩ := coherent.placed _ f (indexed.named f here)
  refine ⟨d, bound, home, fun none => ?_⟩
  rw [Lists, none] at lists
  simp at lists

end Tenancy

end BlockFs.FileSystem
