import BlockFs.Tenancy

namespace BlockFs.FileSystem

/-- A file block slot in use is attached to a file, and a slot that is not in use is blank. -/
structure Tidy (s : FileSystem) : Prop where
  leased : ∀ b, (s.fileBlockMetas b).used = true → ∃ f < s.nextFile, b ∈ s.attached f
  blank : ∀ i, (s.fileMetas i).used = false → (s.fileMetas i).size = 0
  empty : ∀ b, (s.fileBlockMetas b).used = false → (s.fileBlockMetas b).usedBlockNum = 0

section Tidiness
variable [Crc32] {s t u : FileSystem} {env : Env} {lost : Lost} {f g : FilePtr} {n : Nat} {r : Int}

omit [Crc32] in
theorem Tidy.of_resources (tidy : Tidy s) (same : SameResources s t) : Tidy t where
  leased b used := by
    rw [same.fileBlockMetas] at used
    obtain ⟨f, bound, member⟩ := tidy.leased b used
    exact ⟨f, same.nextFile ▸ bound, by rw [(same.sameFile f).attached_eq]; exact member⟩
  blank i unused := by
    rw [same.used] at unused
    rw [same.size]
    exact tidy.blank i unused
  empty b unused := by
    rw [same.fileBlockMetas] at unused ⊢
    exact tidy.empty b unused

omit [Crc32] in
theorem Created.tidy (tidy : Tidy s) {x : Nat} {rest : List Nat} {m : FileMeta} (created : Created s t x rest m) :
    Tidy t where
  leased b used := by
    rw [created.fileBlockMetas] at used
    obtain ⟨f, bound, member⟩ := tidy.leased b used
    have same : t.attached f = s.attached f := by rw [attached, attached, created.files, Function.update_of_ne bound.ne]
    exact ⟨f, by rw [created.nextFile]; omega, same ▸ member⟩
  blank i unused := by
    rw [created.fileMetas] at unused ⊢
    by_cases here : i = x
    · rw [here, Function.update_self]
      exact created.size
    · rw [Function.update_of_ne here] at unused ⊢
      exact tidy.blank i unused
  empty b unused := by
    rw [created.fileBlockMetas] at unused ⊢
    exact tidy.empty b unused

/-- The file blocks of a file that is emptied are blank again. -/
theorem Emptied.tidy (tidy : Tidy s) (emptied : Emptied s t f) : Tidy t where
  leased b used := by
    by_cases own : b ∈ s.attached f
    · have cleared : (s.fileBlockMetas b).clear.sealed.used = false := rfl
      rw [emptied.released b own, cleared] at used
      simp at used
    rw [emptied.kept b own] at used
    obtain ⟨g, bound, member⟩ := tidy.leased b used
    have apart : g ≠ f := by
      rintro rfl
      exact own member
    have same : t.attached g = s.attached g := by rw [attached, attached, emptied.files, Function.update_of_ne apart]
    exact ⟨g, emptied.nextFile ▸ bound, same ▸ member⟩
  blank i unused := by
    rw [emptied.fileMetas] at unused ⊢
    by_cases here : i = (s.files f).metaSlot
    · rw [here, Function.update_self]
      rfl
    · rw [Function.update_of_ne here] at unused ⊢
      exact tidy.blank i unused
  empty b unused := by
    by_cases own : b ∈ s.attached f
    · rw [emptied.released b own]
      rfl
    · rw [emptied.kept b own] at unused ⊢
      exact tidy.empty b unused

theorem Change.tidy {collides : Prop} (tidy : Tidy s) (change : Change collides s t) : Tidy t := by
  cases change with
  | quiet quiet _ => exact tidy.of_resources quiet.resources
  | created created => exact created.tidy tidy
  | removed _ _ _ removed => exact removed.toEmptied.tidy tidy
  | opened _ opened => exact tidy.of_resources opened.toRelinked.resources
  | closed _ closed => exact tidy.of_resources closed.toRelinked.resources
  | renamed _ renamed => exact tidy.of_resources renamed.resources

omit [Crc32] in
/-- A file block that is filled belongs to the file it grows. -/
theorem GrownTo.tidy [Crc32] (tidy : Tidy s) (alive : (s.fileMeta f).used = true) (bound : f < s.nextFile)
    {needed : Nat} {b : FileBlockPtr} {slot : FileBlockMeta} {items : Map Nat FileBlockPtr} {rest : List FileBlockPtr}
    (grown : GrownTo s t env f n needed b slot items rest) (filled : slot.used = true)
    (more : ∀ c ∈ s.attached f, c ∈ items.entries.map (·.2)) (holds : b ∈ items.entries.map (·.2)) : Tidy t where
  leased c used := by
    have own : t.attached f = items.entries.map (·.2) := by rw [attached, grown.files, Function.update_self]
    by_cases here : c = b
    · exact ⟨f, grown.nextFile ▸ bound, by rw [own, here]; exact holds⟩
    rw [grown.fileBlockMetas, Function.update_of_ne here] at used
    obtain ⟨g, known, member⟩ := tidy.leased c used
    refine ⟨g, grown.nextFile ▸ known, ?_⟩
    by_cases mine : g = f
    · rw [mine, own]
      exact more c (mine ▸ member)
    · rw [attached, grown.files, Function.update_of_ne mine]
      exact member
  blank i unused := by
    rw [grown.fileMetas] at unused ⊢
    by_cases here : i = (s.files f).metaSlot
    · rw [here, Function.update_self] at unused
      have still : ({ s.fileMeta f with size := n }.sealed).used = (s.fileMeta f).used := rfl
      rw [still, alive] at unused
      simp at unused
    · rw [Function.update_of_ne here] at unused ⊢
      exact tidy.blank i unused
  empty c unused := by
    rw [grown.fileBlockMetas] at unused ⊢
    by_cases here : c = b
    · rw [here, Function.update_self] at unused
      have still : slot.sealed.used = slot.used := rfl
      rw [still, filled] at unused
      simp at unused
    · rw [Function.update_of_ne here] at unused ⊢
      exact tidy.empty c unused

theorem Extension.tidy (tidy : Tidy s) (consistent : Consistent s lost) (alive : (s.fileMeta f).used = true)
    (bound : f < s.nextFile) (fits : ¬s.Overfull f n) (extension : Extension s env f n t r) : Tidy t := by
  cases extension with
  | refused => exact tidy
  | returned => exact ⟨tidy.leased, tidy.blank, tidy.empty⟩
  | @overfull b isNew rest slot found enough overflow => exact absurd ⟨b, isNew, rest, found, enough, overflow⟩ fits
  | inPlace =>
    refine ⟨tidy.leased, fun i unused => ?_, tidy.empty⟩
    rw [resized_fileMetas] at unused ⊢
    by_cases here : i = (s.files f).metaSlot
    · rw [here, Function.update_self] at unused
      have still : ({ s.fileMeta f with size := n }.sealed).used = (s.fileMeta f).used := rfl
      rw [still, alive] at unused
      simp at unused
    · rw [Function.update_of_ne here] at unused ⊢
      exact tidy.blank i unused
  | @grown b isNew rest slot found needs enough room same ids =>
    have grown : GrownTo s ({ s with freeFbhs := rest }.grown env f n (blocksNeeded (s.fileMeta f).size n) b slot
        (if isNew then (s.files f).itemMaps.insert 0 b else (s.files f).itemMaps)) env f n
      (blocksNeeded (s.fileMeta f).size n) b slot
      (if isNew then (s.files f).itemMaps.insert 0 b else (s.files f).itemMaps) rest := grownTo
    have used : slot.used = (s.targetSlot f b isNew).used := by rw [same]
    have rep := consistent.rep f bound
    cases found with
    | new size entries free =>
      refine grown.tidy tidy alive bound used (fun c member => ?_) ?_
      · simp [attached, entries] at member
      · simp [entries]
    | old size entries room' =>
      have backs := (rep.of_entries entries).2
      refine grown.tidy tidy alive bound (used.trans backs.used) (fun c member => member) ?_
      simp [entries]

omit [Crc32] in
/-- The file block of the child is the only one that is filled. -/
theorem ChildBlock.others {old : FileBlockPtr} {w : Nat} {fileBlock : Option FileBlockPtr} {ids : List Nat}
    (child : ChildBlock s env old w n t fileBlock ids) {c : FileBlockPtr} (apart : fileBlock ≠ some c) :
    t.fileBlockMetas c = s.fileBlockMetas c := by
  cases child with
  | unneeded => rfl
  | @whole b rest =>
    have other : c ≠ b := fun same => apart (same ▸ rfl)
    exact Function.update_of_ne other _ _
  | @cut b rest id ids _ free pool =>
    have other : c ≠ b := fun same => apart (same ▸ rfl)
    refine (Function.update_of_ne other _ _).trans ?_
    have kept (v : FileSystem) (src dst len : Nat) : (v.copied src dst len).fileBlockMetas = v.fileBlockMetas := rfl
    rw [kept]
    exact Function.update_of_ne other _ _

/-- A shrink that goes through leaves the child's file block in place of the old one. -/
theorem Shrinkage.tidy (tidy : Tidy s) (coherent : Coherent s lost) (bound : f < s.nextFile) {old : FileBlockPtr}
    (entries : (s.files f).itemMaps.entries = [⟨0, old⟩]) (shrinks : n < (s.fileMeta f).size)
    (keeps : ¬s.LosesSlot f n) (shrinkage : Shrinkage s env f n old t r) : Tidy t := by
  cases shrinkage with
  | noSlot => exact ⟨tidy.leased, tidy.blank, tidy.empty⟩
  | noFileBlock free positive none => exact absurd ⟨by simp [free], .inl ⟨positive, none⟩⟩ keeps
  | noBlock free _ uneven none => exact absurd ⟨by simp [free], .inr (.inl ⟨uneven, none⟩)⟩ keeps
  | noDirectory free _ none => exact absurd ⟨by simp [free], .inr (.inr none)⟩ keeps
  | @shrunk w rest u fileBlock ids dir free child found =>
    have consistent := coherent.consistent
    have taken : w ∈ s.freeFhs := by simp [free]
    have distinct := consistent.metaSlot_not_free bound taken
    have same : (s.started f w rest n).fileMeta f = s.fileMeta f := Function.update_of_ne distinct _ _
    obtain ⟨consistent', _, _, slot⟩ := child.provided (consistent.started free f n) bound entries (same ▸ shrinks)
    have ready := consistent'.congr (adopted_sameResources u (s.files f).metaSlot w)
    have moved := shrunkTo dir f n old fileBlock distinct.symm ready.parents fun b here => (slot b here).distinct
    have others := fun {c : FileBlockPtr} (apart : fileBlock ≠ some c) => child.others apart
    obtain ⟨pool, rest', blocks, data, state⟩ := child.frame
    generalize ((u.adopted (s.files f).metaSlot w).shrunk dir f (s.files f).metaSlot w n old fileBlock) = v at moved
    have metas (c : FileBlockPtr) (gone : c ≠ old) : (v.fileBlockMetas c).used = (u.fileBlockMetas c).used ∧
        (v.fileBlockMetas c).usedBlockNum = (u.fileBlockMetas c).usedBlockNum := by
      rw [moved.fileBlockMetas, Function.update_of_ne gone]
      cases fileBlock with
      | none => exact ⟨rfl, rfl⟩
      | some b =>
        exact ⟨view_update u.fileBlockMetas b c (·.used) rfl, view_update u.fileBlockMetas b c (·.usedBlockNum) rfl⟩
    have next : v.nextFile = s.nextFile := by
      rw [moved.nextFile, state]
      rfl
    have attached_ (g : FilePtr) (other : g ≠ f) : v.attached g = s.attached g := by
      rw [attached, attached, moved.files, Function.update_of_ne other, state]
      rfl
    have own (b : FileBlockPtr) (here : fileBlock = some b) : b ∈ v.attached f := by
      rw [attached, moved.files, Function.update_self, here]
      simp [itemsFor]
    have cleared : v.fileBlockMetas old = ((u.adopted (s.files f).metaSlot w).fileBlockMetas old).clear.sealed := by
      rw [moved.fileBlockMetas, Function.update_self]
    have childless (c : FileBlockPtr) (other : fileBlock ≠ some c) (gone : c ≠ old) :
        (v.fileBlockMetas c).used = (s.fileBlockMetas c).used ∧
          (v.fileBlockMetas c).usedBlockNum = (s.fileBlockMetas c).usedBlockNum := by
      obtain ⟨used, count⟩ := metas c gone
      rw [others other] at used count
      exact ⟨used, count⟩
    refine ⟨fun c used => ?_, fun i unused => ?_, fun c unused => ?_⟩
    · have gone : c ≠ old := by
        rintro rfl
        have unused := congrArg FileBlockMeta.used cleared
        rw [used] at unused
        exact absurd unused.symm Bool.false_ne_true
      by_cases mine : fileBlock = some c
      · exact ⟨f, next ▸ bound, own c mine⟩
      rw [(childless c mine gone).1] at used
      obtain ⟨g, known, member⟩ := tidy.leased c used
      have other : g ≠ f := by
        rintro rfl
        rw [attached, entries] at member
        exact gone (List.mem_singleton.mp member)
      exact ⟨g, next ▸ known, attached_ g other ▸ member⟩
    · rw [moved.fileMetas] at unused ⊢
      by_cases parent : i = (s.files f).metaSlot
      · rw [parent, Function.update_self]
        rfl
      rw [Function.update_of_ne parent] at unused ⊢
      by_cases child' : i = w
      · rw [child', Function.update_self] at unused
        have still : ((u.adopted (s.files f).metaSlot w).childMeta w n).used =
            ((u.adopted (s.files f).metaSlot w).fileMetas w).used := rfl
        rw [still, state] at unused
        change (Function.update (Function.update s.fileMetas w _) (s.files f).metaSlot _ w).used = false at unused
        rw [Function.update_of_ne distinct.symm, Function.update_self] at unused
        simp at unused
      · rw [Function.update_of_ne child', state] at unused ⊢
        change (Function.update (Function.update s.fileMetas w _) (s.files f).metaSlot _ i).used = false at unused
        change (Function.update (Function.update s.fileMetas w _) (s.files f).metaSlot _ i).size = 0
        rw [Function.update_of_ne parent, Function.update_of_ne child'] at unused ⊢
        exact tidy.blank i unused
    · by_cases gone : c = old
      · rw [gone, cleared]
        rfl
      by_cases mine : fileBlock = some c
      · rw [(metas c gone).1, (slot c mine).used] at unused
        simp at unused
      · obtain ⟨used, count⟩ := childless c mine gone
        rw [used] at unused
        rw [count]
        exact tidy.empty c unused

theorem Truncation.tidy (tidy : Tidy s) (coherent : Coherent s lost) (known : s.Accessible f)
    (settles : s.Settles f n) (truncation : Truncation s env f n t r) : Tidy t := by
  have bound := coherent.registered.bound (known.registered coherent.registered)
  cases truncation with
  | grow grows extension =>
    exact extension.tidy tidy coherent.consistent (coherent.alive f known) bound
      (fun full => settles.1 ⟨grows, full⟩)
  | shrink shrinks entries shrinkage =>
    exact shrinkage.tidy tidy coherent bound entries shrinks fun loses => settles.2 ⟨shrinks, loses⟩
  | keep => exact tidy

/-- A call whose truncation settles leaves the slots tidy. -/
theorem Outcome.tidy {op : Op} (tidy : Tidy s) (coherent : Coherent s lost) (settles : s.SettlesCall op)
    (outcome : Outcome s env op t r) : Tidy t := by
  have follow {v w : FileSystem} (there : Tidy v) (path : Relation.ReflTransGen (Change (s.Collides op)) v w) :
      Tidy w := by
    induction path with
    | refl => exact there
    | tail _ change ih => exact change.tidy ih
  cases outcome with
  | plain _ path => exact follow tidy path
  | truncated call same known truncation path _ =>
    have coherent' := same.coherent coherent
    have tidy' := tidy.of_resources (Quiet.of_fileSide same.fileSide).resources
    exact follow (truncation.tidy tidy' coherent' known (same.settles (settles _ _ call))) path
  | @wrote fd buffer len offset f b blocks v w data _ _ opened _ grown _ _ _ quiet homes =>
    have settle (there : Tidy v) : Tidy (w.stored data) := by
      have after := there.of_resources quiet.resources
      exact ⟨after.leased, after.blank, after.empty⟩
    rcases grown with ⟨_, rfl⟩ | ⟨n, call, truncation⟩
    · exact settle tidy
    · exact settle (truncation.tidy tidy coherent (.inl ⟨fd, opened⟩) (settles _ _ call))

end Tidiness

end BlockFs.FileSystem
