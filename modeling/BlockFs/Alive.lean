import BlockFs.Exclusion

namespace BlockFs.FileSystem

/-- Every descriptor refers to a file whose slot is in use, which is registered under its handle,
and whose file block and blocks are not free. -/
def OpensAlive (s : FileSystem) : Prop :=
  ∀ fd f, s.openedFile fd = some f →
    (s.fileMeta f).used = true ∧ s.createdFhs.lookup (s.fileMeta f).fh = some f ∧
      (∀ b ∈ s.attached f, b ∉ s.freeFbhs) ∧ ∀ id ∈ s.blockIds f, id ∉ s.blockIdPool

/-- An unlink or a close deletes the content of a file. -/
def ReturnsBlocks (op : Op) (s s' : FileSystem) (f : FilePtr) : Prop :=
  ((∃ path, op = .unlink path) ∨ ∃ fd, op = .close fd) ∧ f < s.nextFile ∧ s.attached f ≠ [] ∧
    s'.attached f = []

/-- A file that has no content and that nothing leads to any more. -/
structure Gone (s : FileSystem) (f : FilePtr) : Prop where
  bound : f < s.nextFile
  empty : s.attached f = []
  inaccessible : ¬s.Accessible f

section Gone
variable [Crc32] {s s' t : FileSystem} {env : Env} {lost : Lost} {op : Op} {r : Int} {f g : FilePtr}
  {collides : Prop}

/-- Nothing calls a file back that is gone. -/
theorem Gone.change (coherent : Coherent s lost) (gone : s.Gone f) (change : Change collides s s') :
    s'.Gone f := by
  have consistent := coherent.consistent
  cases change with
  | quiet quiet _ =>
    refine ⟨quiet.resources.nextFile ▸ gone.bound, ?_, fun reached => ?_⟩
    · rw [(quiet.resources.sameFile f).attached_eq, gone.empty]
    · exact gone.inaccessible (quiet.sameIndex.accessible.mp reached)
  | created created =>
    refine ⟨by rw [created.nextFile]; exact Nat.lt_succ_of_lt gone.bound, ?_, fun reached => ?_⟩
    · rw [(created.sameFile consistent gone.bound).attached_eq, gone.empty]
    · rcases created.accessible reached with same | old
      · exact absurd gone.bound (same ▸ Nat.lt_irrefl _)
      · exact gone.inaccessible old
  | @removed dir g _ _ _ removed =>
    refine ⟨removed.nextFile ▸ gone.bound, ?_, fun reached => ?_⟩
    · rw [removed.toEmptied.attached_eq, gone.empty, ite_self]
    · exact gone.inaccessible (removed.accessible reached)
  | opened known opened =>
    refine ⟨opened.toRelinked.resources.nextFile ▸ gone.bound, ?_, fun reached => ?_⟩
    · rw [(opened.toRelinked.resources.sameFile f).attached_eq, gone.empty]
    · rcases opened.accessible reached with rfl | old
      · exact gone.inaccessible known
      · exact gone.inaccessible old
  | closed _ closed =>
    refine ⟨closed.toRelinked.resources.nextFile ▸ gone.bound, ?_, fun reached => ?_⟩
    · rw [(closed.toRelinked.resources.sameFile f).attached_eq, gone.empty]
    · exact gone.inaccessible (closed.accessible reached)
  | renamed known renamed =>
    refine ⟨renamed.resources.nextFile ▸ gone.bound, ?_, fun reached => ?_⟩
    · rw [(renamed.resources.sameFile f).attached_eq, gone.empty]
    · have reentered := renamed.reentered consistent
        (coherent.registered.bound (known.registered coherent.registered))
      rcases reentered.accessible reached with rfl | old
      · exact gone.inaccessible known
      · exact gone.inaccessible old

theorem Gone.changes (coherent : Coherent s lost) (gone : s.Gone f)
    (path : Relation.ReflTransGen (Change collides) s s') : s'.Gone f := by
  induction path with
  | refl => exact gone
  | tail before change ih => exact ih.change (coherent_of_changes coherent before) change

/-- Only files within reach are truncated. -/
theorem Gone.truncation {n : Nat} (coherent : Coherent s lost) (gone : s.Gone f)
    (known : s.Accessible g) (truncation : Truncation s env g n s' r) : s'.Gone f := by
  have registered := coherent.registered
  have bound := registered.bound (known.registered registered)
  have apart : f ≠ g := by
    rintro rfl
    exact gone.inaccessible known
  have same := truncation.sameFile coherent.consistent bound gone.bound apart
  have kept : s'.nextFile = s.nextFile ∧ (s'.Accessible f → s.Accessible f) := by
    cases truncation with
    | grow _ extension =>
      exact ⟨extension.sameIndex.nextFile, extension.sameIndex.accessible.mp⟩
    | shrink shrinks entries shrinkage =>
      rcases shrinkage.outcome coherent.consistent bound entries shrinks with
        ⟨_, same⟩ | ⟨_, shifted⟩
      · exact ⟨same.sameIndex.nextFile, same.sameIndex.accessible.mp⟩
      · exact ⟨shifted.reentered.nextFile,
          fun reached => (shifted.reentered.accessible reached).resolve_left apart⟩
    | keep => exact ⟨rfl, id⟩
  exact ⟨kept.1 ▸ gone.bound, by rw [same.attached_eq, gone.empty],
    fun reached => gone.inaccessible (kept.2 reached)⟩

theorem Gone.outcome (coherent : Coherent s lost) (gone : s.Gone f)
    (outcome : Outcome s env op s' r) : s'.Gone f := by
  cases outcome with
  | plain _ path => exact gone.changes coherent path
  | truncated _ same known truncation path _ =>
    have coherent' := same.coherent coherent
    obtain ⟨_, _, _, after⟩ := truncation.coherent coherent' (known.registered coherent'.registered)
    have step : Change False s _ := same.change coherent.housed
    have there := gone.change coherent step
    exact (there.truncation coherent' known truncation).changes after path
  | @wrote fd buffer len offset g b blocks t u data _ _ opened _ grown _ _ _ quiet homes =>
    have settle {lost' : Lost} (before : Coherent t lost') (there : t.Gone f) :
        (u.stored data).Gone f := by
      have step : Change False t u := .quiet quiet (before.housed.of_dirSide homes)
      obtain ⟨bound, empty, inaccessible⟩ := there.change before step
      exact ⟨bound, empty, inaccessible⟩
    rcases grown with ⟨_, rfl⟩ | ⟨n, _, truncation⟩
    · exact settle coherent gone
    · obtain ⟨_, _, _, after⟩ := truncation.coherent coherent (coherent.registered.opens fd g opened)
      exact settle after (gone.truncation coherent (.inl ⟨fd, opened⟩) truncation)

/-- A change that takes the content of a file takes the file out of reach. -/
theorem Change.kept_or_gone (coherent : Coherent s lost) (bound : f < s.nextFile)
    (held : s.attached f ≠ []) (change : Change collides s s') : s'.attached f ≠ [] ∨ s'.Gone f := by
  cases change with
  | quiet quiet _ => exact .inl ((quiet.resources.sameFile f).attached_eq ▸ held)
  | created created =>
    exact .inl ((created.sameFile coherent.consistent bound).attached_eq ▸ held)
  | @removed dir g here idle home removed =>
    by_cases same : f = g
    · subst same
      refine .inr ⟨removed.nextFile ▸ bound, ?_, removed.inaccessible coherent bound idle home⟩
      rw [removed.toEmptied.attached_eq, if_pos rfl]
    · refine .inl ?_
      rw [removed.toEmptied.attached_eq, if_neg same]
      exact held
  | opened _ opened => exact .inl ((opened.toRelinked.resources.sameFile f).attached_eq ▸ held)
  | closed _ closed => exact .inl ((closed.toRelinked.resources.sameFile f).attached_eq ▸ held)
  | renamed _ renamed => exact .inl ((renamed.resources.sameFile f).attached_eq ▸ held)

theorem Change.nextFile_le (change : Change collides s s') : s.nextFile ≤ s'.nextFile := by
  cases change with
  | quiet quiet _ => exact quiet.resources.nextFile.ge
  | created created => exact created.nextFile ▸ Nat.le_succ _
  | removed _ _ _ removed => exact removed.nextFile.ge
  | opened _ opened => exact opened.toRelinked.resources.nextFile.ge
  | closed _ closed => exact closed.toRelinked.resources.nextFile.ge
  | renamed _ renamed => exact renamed.resources.nextFile.ge

theorem changes_nextFile_le (path : Relation.ReflTransGen (Change collides) s s') :
    s.nextFile ≤ s'.nextFile := by
  induction path with
  | refl => exact Nat.le_refl _
  | tail _ change ih => exact ih.trans change.nextFile_le

theorem kept_or_gone (coherent : Coherent s lost) (bound : f < s.nextFile) (held : s.attached f ≠ [])
    (path : Relation.ReflTransGen (Change collides) s s') : s'.attached f ≠ [] ∨ s'.Gone f := by
  induction path with
  | refl => exact .inl held
  | tail before change ih =>
    have coherent' := coherent_of_changes coherent before
    rcases ih with kept | gone
    · exact change.kept_or_gone coherent' (bound.trans_le (changes_nextFile_le before)) kept
    · exact .inr (gone.change coherent' change)

/-- A file is gone once its content has been deleted. -/
theorem ReturnsBlocks.gone (coherent : Coherent s lost) (outcome : Outcome s env op s' r)
    (returns : ReturnsBlocks op s s' f) : s'.Gone f := by
  obtain ⟨deletion, bound, held, empty⟩ := returns
  have calm : s.ftruncateCall op = none := by
    rcases deletion with ⟨path, rfl⟩ | ⟨fd, rfl⟩
    · rfl
    · rfl
  cases outcome with
  | plain _ path => exact (kept_or_gone coherent bound held path).resolve_left fun kept => kept empty
  | truncated call => simp [calm] at call
  | wrote pwrite => rcases deletion with ⟨path, rfl⟩ | ⟨fd, rfl⟩ <;> simp at pwrite

end Gone

section Alive
variable [Crc32] {s t : FileSystem}

/-- One call of a run whose I/O succeeds and whose truncations are narrow. -/
def NarrowStep (s s' : FileSystem) : Prop := ∃ e, e.env.IoOk ∧ s.NarrowCall e.op ∧ Step s e s'

theorem Reachable.later (reach : Reachable NarrowCall s)
    (later : Relation.ReflTransGen NarrowStep s t) : Reachable NarrowCall t := by
  induction later with
  | refl => exact reach
  | tail _ step ih =>
    obtain ⟨e, ok, narrow, taken⟩ := step
    exact .next ih ⟨ok, narrow⟩ taken

theorem Gone.later {f : FilePtr} (reach : Reachable NarrowCall s) (gone : s.Gone f)
    (later : Relation.ReflTransGen NarrowStep s t) : t.Gone f := by
  induction later with
  | refl => exact gone
  | tail before step ih =>
    obtain ⟨lost, coherent⟩ := (reach.later before).coherent
    obtain ⟨e, ok, narrow, taken⟩ := step
    obtain ⟨r, outcome⟩ := step_outcome coherent ok narrow taken
    exact ih.outcome coherent outcome

theorem Reachable.opens (reach : Reachable NarrowCall s) : s.OpensAlive := by
  obtain ⟨lost, coherent⟩ := reach.coherent
  intro fd f opened
  have here := coherent.registered.opens fd f opened
  have bound := coherent.registered.bound here
  refine ⟨coherent.alive f (.inl ⟨fd, opened⟩), ?_, fun b member => ?_, fun id member => ?_⟩
  · rw [coherent.consistent.fileMeta_fh]
    exact here
  · exact coherent.consistent.attached_not_free bound member
  · exact coherent.consistent.blockIds_not_free bound member

/-- In a run whose truncations need no more blocks than 32 bits can count, open files stay alive and
no file is deleted twice. -/
theorem Reachable.opensAlive (reach : Reachable NarrowCall s) :
    s.OpensAlive ∧ ∀ e s' f, e.env.IoOk → s.NarrowCall e.op → Step s e s' →
      ReturnsBlocks e.op s s' f → ∀ t, Relation.ReflTransGen NarrowStep s' t →
        ∀ op t', ¬ReturnsBlocks op t t' f := by
  refine ⟨reach.opens, fun e s' f ok narrow step returns t later op t' again => ?_⟩
  obtain ⟨lost, coherent⟩ := reach.coherent
  obtain ⟨r, outcome⟩ := step_outcome coherent ok narrow step
  have gone := (returns.gone coherent outcome).later (.next reach ⟨ok, narrow⟩ step) later
  exact again.2.2.1 gone.empty

omit [Crc32] in
theorem Reachable.opensAlive_unlinked :
    ∃ s : FileSystem, s.openedFile 0 = some 0 ∧ s.blockIds 0 = [0] ∧ (s.files 0).deleted = true ∧
      s.OpensAlive := by
  let _ := zeroCrc
  obtain ⟨s, reach, opened, ids, deleted⟩ := Reachable.exists_run
    [.openFile ['/', 'a'] 0o102, .truncateFd 0 10, .unlink ['/', 'a']]
    (fun s => s.openedFile 0 = some 0 ∧ s.blockIds 0 = [0] ∧ (s.files 0).deleted = true)
    (freshDevice_fresh 8 fun _ => 0) steadyEnv_ok isNarrowCall_sound (by decide +kernel)
  exact ⟨s, opened, ids, deleted, reach.opensAlive.1⟩

omit [Crc32] in
/-- A block that a file lists twice is freed when the file is cut in front of the second entry. -/
theorem not_opensAlive : ∃ s, @Reachable zeroCrc anyCall s ∧ ¬s.OpensAlive := by
  let _ := zeroCrc
  obtain ⟨s, reach, opened, listed, free⟩ := Reachable.exists_run
    [.openFile ['/', 'a'] 0o102, .truncateFd 0 ((2 ^ 32 + 1) * 4194304),
      .truncateFd 0 (2 * 4194304), .truncateFd 0 4194304]
    (fun s => s.openedFile 0 = some 0 ∧ 0 ∈ s.blockIds 0 ∧ 0 ∈ s.blockIdPool)
    (freshDevice_fresh (2 ^ 32 + 1) fun _ => 0) steadyEnv_ok anyCall_sound (by decide +kernel)
  exact ⟨s, reach, fun alive => (alive 0 0 opened).2.2.2 0 listed free⟩

end Alive

end BlockFs.FileSystem
