import BlockFs.CommUtils

namespace BlockFs

section DirNames

/-- A path without its trailing separator. -/
def bare (path : Name) : Name := if path.getLast? = some '/' then path.dropLast else path

theorem getDirName_eq {path : Name} (inner : path ≠ ['/']) :
    getDirName path =
      if parentPath (bare path) = ['/'] then ['/'] else parentPath (bare path) ++ ['/'] := by
  rw [getDirName, if_neg inner]
  change (if parentPath (bare path) = ['/'] then parentPath (bare path) else _) = _
  split
  · next root => exact root
  · rfl

/-- The directory part of a path ends in its separator. -/
theorem getDirName_slash (path : Name) : (getDirName path).getLast? = some '/' := by
  by_cases root : path = ['/']
  · rw [root]
    rfl
  · rw [getDirName_eq root]
    split
    · rfl
    · exact List.getLast?_concat

theorem parentPath_length (path : Name) :
    (path.all (· == '/') = true ∧ parentPath path = path) ∨ parentPath path = ['/'] ∨
      parentPath path = [] ∨ (parentPath path).length < path.length := by
  unfold parentPath
  split
  · next separators => exact .inl ⟨separators, rfl⟩
  · dsimp only
    generalize upto : path.rdropWhile (· != '/') = dir
    split
    · exact .inr (.inl rfl)
    · refine .inr (.inr ?_)
      rcases List.eq_nil_or_concat' dir with rfl | ⟨base, c, rfl⟩
      · exact .inl rfl
      · have stops : ¬(c != '/') = true := by
          have last := List.rdropWhile_last_not (· != '/') path (by rw [upto]; simp)
          simpa [upto] using last
        have separator : (c == '/') = true := by simpa using stops
        have shorter := (List.rdropWhile_prefix (· != '/') path).length_le
        have within := (List.rdropWhile_prefix (· == '/') base).length_le
        rw [upto, List.length_append, List.length_singleton] at shorter
        rw [List.rdropWhile_concat_pos (· == '/') _ _ separator]
        exact .inr (by omega)

/-- The directory part of a path is no longer than the path. -/
theorem getDirName_length (path : Name) : (getDirName path).length ≤ max path.length 1 := by
  by_cases root : path = ['/']
  · rw [root]
    decide
  · rw [getDirName_eq root]
    split
    · exact Nat.le_max_right _ _
    · next inner =>
      rw [List.length_append, List.length_singleton]
      have stripped : (bare path).length ≤ path.length ∧
          (path.getLast? = some '/' → (bare path).length + 1 ≤ path.length) := by
        unfold bare
        split
        · next last =>
          have nonempty : path.length ≠ 0 := by
            intro none
            rw [List.length_eq_zero_iff.mp none] at last
            simp at last
          rw [List.length_dropLast]
          exact ⟨by omega, fun _ => by omega⟩
        · next open_ => exact ⟨le_refl _, fun last => absurd last open_⟩
      rcases parentPath_length (bare path) with ⟨separators, same⟩ | root | none | shorter
      · rw [same]
        by_cases last : path.getLast? = some '/'
        · have := stripped.2 last
          omega
        · rw [bare, if_neg last] at separators ⊢
          rcases List.eq_nil_or_concat' path with rfl | ⟨base, c, rfl⟩
          · simp
          · rw [List.all_append, Bool.and_eq_true] at separators
            refine absurd ?_ last
            rw [List.getLast?_concat]
            simpa using separators.2
      · exact absurd root inner
      · rw [none]
        exact Nat.le_max_right _ _
      · omega

end DirNames

/-- A path component. -/
def IsComponent (name : Name) : Prop := name ≠ [] ∧ '/' ∉ name

/-- An absolute path in normal form: the root, or components that each follow one separator. -/
def Normalized (path : Name) : Prop :=
  path = ['/'] ∨ ∃ names, names ≠ [] ∧ (∀ name ∈ names, IsComponent name) ∧
    path = names.flatMap ('/' :: ·)

/-- A path is cut before its last component. -/
structure Splits (path base name : Name) : Prop where
  eq : path = base ++ '/' :: name
  component : IsComponent name
  closed : base.getLast? ≠ some '/'

section Splitting
variable {path base name : Name}

theorem IsComponent.last (component : IsComponent name) (base : Name) :
    (base ++ name).getLast? ≠ some '/' := by
  obtain ⟨nonempty, plain⟩ := component
  rw [List.getLast?_append_of_ne_nil _ nonempty, List.getLast?_eq_some_getLast nonempty]
  intro last
  exact plain (Option.some.inj last ▸ List.getLast_mem nonempty)

/-- An absolute path as the list of its components, outermost first; the root has none. -/
structure AbsolutePath where
  names : List Name
  proper : ∀ name ∈ names, IsComponent name

namespace AbsolutePath

/-- The path without a trailing separator. Nothing is left of the root. -/
def text (p : AbsolutePath) : Name := p.names.flatMap ('/' :: ·)

/-- The path with its trailing separator, as directories are recorded. -/
def key (p : AbsolutePath) : Name := p.text ++ ['/']

def parent (p : AbsolutePath) : AbsolutePath :=
  ⟨p.names.dropLast, fun name member => p.proper name (List.dropLast_subset _ member)⟩

variable (p : AbsolutePath)

@[simp] theorem parent_names : p.parent.names = p.names.dropLast := rfl

theorem splits (inner : p.names ≠ []) : Splits p.text p.parent.text (p.names.getLast inner) := by
  have whole := List.dropLast_concat_getLast inner
  refine ⟨?_, p.proper _ (List.getLast_mem inner), ?_⟩
  · have cut : p.text = (p.names.dropLast ++ [p.names.getLast inner]).flatMap ('/' :: ·) := by
      rw [whole, text]
    rw [cut, List.flatMap_append, List.flatMap_singleton]
    rfl
  · rcases List.eq_nil_or_concat' p.names.dropLast with top | ⟨init, last, below⟩
    · simp [text, parent, top]
    · have component : IsComponent last :=
        p.proper last (List.dropLast_subset _ (by rw [below]; simp))
      change (p.names.dropLast.flatMap ('/' :: ·)).getLast? ≠ some '/'
      rw [below, List.flatMap_append, List.flatMap_singleton, List.append_cons]
      exact component.last _

end AbsolutePath

theorem Normalized.exists_path (normal : Normalized path) (inner : path ≠ ['/']) :
    ∃ p : AbsolutePath, p.names ≠ [] ∧ p.text = path := by
  rcases normal with root | ⟨names, nonempty, proper, eq⟩
  · exact absurd root inner
  · exact ⟨⟨names, proper⟩, nonempty, eq.symm⟩

theorem Normalized.splits (normal : Normalized path) :
    path = ['/'] ∨ ∃ base name, Splits path base name := by
  by_cases root : path = ['/']
  · exact .inl root
  · obtain ⟨p, below, rfl⟩ := normal.exists_path root
    exact .inr ⟨_, _, p.splits below⟩

theorem Splits.last (splits : Splits path base name) : path.getLast? ≠ some '/' := by
  rw [splits.eq, List.append_cons]
  exact splits.component.last _

theorem Splits.ne_root (splits : Splits path base name) : path ≠ ['/'] := by
  intro root
  refine splits.last ?_
  rw [root]
  rfl

theorem Splits.closed_ne_root (splits : Splits path base name) : path ++ ['/'] ≠ ['/'] := by
  intro root
  have length := congrArg List.length root
  rw [splits.eq] at length
  simp only [List.length_append, List.length_cons, List.length_nil] at length
  omega

/-- What follows a separator is the file name. -/
theorem getFileName_append {dir : Name} (closed : dir.getLast? = some '/') (plain : '/' ∉ name) :
    getFileName (dir ++ name) = name := by
  rw [getFileName]
  induction name using List.reverseRecOn with
  | nil =>
    rw [List.append_nil, List.rtakeWhile_eq_nil_iff]
    intro nonempty
    rw [List.getLast?_eq_some_getLast nonempty] at closed
    simp [Option.some.inj closed]
  | append_singleton init c ih =>
    have here : (c != '/') = true := by
      rw [bne_iff_ne]
      exact fun same => plain (same ▸ by simp)
    rw [← List.append_assoc, List.rtakeWhile_concat_pos (· != '/') _ _ here,
      ih fun member => plain (List.mem_append_left _ member)]

theorem getFileName_plain (path : Name) : '/' ∉ getFileName path := by
  intro member
  simpa using List.mem_rtakeWhile_imp member

theorem Splits.getFileName_eq (splits : Splits path base name) : getFileName path = name := by
  rw [splits.eq, List.append_cons]
  exact getFileName_append List.getLast?_concat splits.component.2

theorem rdropWhile_plain (plain : '/' ∉ name) (base : Name) :
    (base ++ '/' :: name).rdropWhile (· != '/') = base ++ ['/'] := by
  have parts : (base ++ '/' :: name).rdropWhile (· != '/') ++ (base ++ '/' :: name).rtakeWhile (· != '/') =
      base ++ '/' :: name := List.rdropWhile_append_rtakeWhile
  have rest : (base ++ '/' :: name).rtakeWhile (· != '/') = name := by
    rw [List.append_cons]
    exact getFileName_append List.getLast?_concat plain
  rw [rest] at parts
  exact List.append_cancel_right (parts.trans (List.append_cons base '/' name))

theorem Splits.parentPath_eq (splits : Splits path base name) :
    parentPath path = if base = [] then ['/'] else base := by
  have inner : path.all (· == '/') = false := by
    obtain ⟨nonempty, plain⟩ := splits.component
    obtain ⟨c, rest, rfl⟩ := List.exists_cons_of_ne_nil nonempty
    rw [List.all_eq_false, splits.eq]
    refine ⟨c, by simp, fun same => plain ?_⟩
    rw [eq_of_beq same]
    exact List.mem_cons_self ..
  have dropped : (base ++ ['/']).rdropWhile (· == '/') = base := by
    rw [List.rdropWhile_concat_pos _ _ _ rfl, List.rdropWhile_eq_self_iff]
    intro nonempty last
    refine splits.closed ?_
    rw [List.getLast?_eq_some_getLast nonempty, eq_of_beq last]
  rw [parentPath, inner, if_neg Bool.false_ne_true]
  dsimp only
  rw [splits.eq, rdropWhile_plain splits.component.2, dropped]
  cases base <;> simp

theorem Splits.closes (splits : Splits path base name) :
    (if parentPath path = ['/'] then ['/'] else parentPath path ++ ['/']) = base ++ ['/'] := by
  rw [splits.parentPath_eq]
  by_cases top : base = []
  · rw [if_pos top, if_pos rfl, top]
    rfl
  · rw [if_neg top, if_neg]
    intro root
    exact splits.closed (by rw [root]; rfl)

/-- A file and a directory at one path have the same parent. -/
theorem Splits.getDirName_eq (splits : Splits path base name) : getDirName path = base ++ ['/'] := by
  rw [BlockFs.getDirName_eq splits.ne_root, bare, if_neg splits.last]
  exact splits.closes

theorem Splits.getDirName_closed (splits : Splits path base name) :
    getDirName (path ++ ['/']) = base ++ ['/'] := by
  rw [BlockFs.getDirName_eq splits.closed_ne_root, bare, if_pos List.getLast?_concat,
    List.dropLast_concat]
  exact splits.closes

end Splitting

section Components

/-- The components of an absolute path, one behind each separator. -/
def components (path : Name) : List Name := (path.splitOn '/').tail

namespace AbsolutePath
variable (p : AbsolutePath)

theorem key_eq_root : p.key = ['/'] ↔ p.names = [] := by
  constructor
  · intro root
    by_contra inner
    exact (p.splits inner).closed_ne_root root
  · intro root
    simp [key, text, root]

/-- The directory part of a directory's path is its parent's path; the root is its own parent. -/
theorem getDirName_key : getDirName p.key = p.parent.key := by
  by_cases root : p.names = []
  · have above : p.parent.names = [] := by rw [parent_names, root, List.dropLast_nil]
    rw [p.key_eq_root.mpr root, p.parent.key_eq_root.mpr above]
    rfl
  · exact (p.splits root).getDirName_closed

theorem getDirName_iterate (k : Nat) : getDirName^[k] p.key = (parent^[k] p).key := by
  have moves : Function.Semiconj key parent getDirName := fun q => q.getDirName_key.symm
  exact (moves.iterate_right k p).symm

theorem parent_iterate (k : Nat) : (parent^[k] p).names = p.names.take (p.names.length - k) := by
  induction k with
  | zero => exact List.take_length.symm
  | succ k ih =>
    rw [Function.iterate_succ_apply', parent_names, ih, List.dropLast_eq_take, List.length_take, List.take_take]
    congr 1
    omega

/-- The root is first met after as many steps as the path has components. -/
theorem iterate_eq_root {k : Nat} : getDirName^[k] p.key = ['/'] ↔ p.names.length ≤ k := by
  rw [getDirName_iterate, key_eq_root, parent_iterate, ← List.length_eq_zero_iff, List.length_take]
  omega

theorem intercalate_eq (first : Name) (names : List Name) :
    ['/'].intercalate (first :: names) = first ++ names.flatMap ('/' :: ·) := by
  induction names generalizing first with
  | nil => simp
  | cons name names ih =>
    rw [List.intercalate_cons_cons, ih, List.flatMap_cons]
    simp

/-- The components of a path are read back from its text. -/
theorem components_text : components p.text = p.names := by
  have spelled : p.text = ['/'].intercalate ([] :: p.names) := by
    rw [intercalate_eq, List.nil_append, text]
  have plain : ∀ name ∈ [] :: p.names, '/' ∉ name := by
    intro name member
    rcases List.mem_cons.mp member with rfl | below
    · exact List.not_mem_nil
    · exact (p.proper name below).2
  rw [components, spelled, List.splitOn_intercalate '/' plain (List.cons_ne_nil _ _), List.tail_cons]

end AbsolutePath

end Components

section Agreement
variable {path base name : Name}

/-- A path is its directory part followed by its file name. -/
theorem Splits.getDirName_append (splits : Splits path base name) :
    getDirName path ++ getFileName path = path := by
  rw [splits.getDirName_eq, splits.getFileName_eq, splits.eq]
  simp

/-- Directories are recorded under the directory part of the paths in them. -/
theorem Splits.transformPath_parent (splits : Splits path base name) :
    DirHandle.transformPath (parentPath path) =
      if kBlockFsMaxDirNameLen ≤ (getDirName path).length then .error (some ENAMETOOLONG)
      else .ok (getDirName path) := by
  have recorded : (if (parentPath path).getLast? = some '/' then parentPath path
      else parentPath path ++ ['/']) = getDirName path := by
    rw [splits.getDirName_eq, splits.parentPath_eq]
    by_cases top : base = []
    · rw [if_pos top, top]
      rfl
    · rw [if_neg top, if_neg splits.closed]
  unfold DirHandle.transformPath
  rw [recorded]

theorem Splits.transformPath_key {key : Name} (splits : Splits path base name)
    (keyed : DirHandle.transformPath path = .ok key) : key = path ++ ['/'] := by
  unfold DirHandle.transformPath at keyed
  rw [if_neg splits.last] at keyed
  dsimp only at keyed
  split at keyed
  · cases keyed
  · exact (Except.ok.inj keyed).symm

/-- The splitters agree on every path in normal form. The directory part and the file name make up
the path, the directory part is the key its parent is recorded under, the pair and the key of a
path belong to no other path, and the parents of a path end at the root after one step for each
component. -/
theorem splitters_agree {other : Name} (normal : Normalized path) (inner : path ≠ ['/'])
    (normal' : Normalized other) (inner' : other ≠ ['/']) :
    getDirName path ++ getFileName path = path ∧
      getDirName (path ++ ['/']) = getDirName path ∧
      DirHandle.transformPath (parentPath path) =
        (if kBlockFsMaxDirNameLen ≤ (getDirName path).length then .error (some ENAMETOOLONG)
          else .ok (getDirName path)) ∧
      ((getDirName path, getFileName path) = (getDirName other, getFileName other) → path = other) ∧
      (∀ key, DirHandle.transformPath path = .ok key → DirHandle.transformPath other = .ok key →
        path = other) ∧
      getDirName^[(components path).length] (path ++ ['/']) = ['/'] ∧
      ∀ k < (components path).length, getDirName^[k] (path ++ ['/']) ≠ ['/'] := by
  obtain ⟨p, below, rfl⟩ := normal.exists_path inner
  obtain ⟨q, below', rfl⟩ := normal'.exists_path inner'
  have cut := p.splits below
  have cut' := q.splits below'
  rw [p.components_text]
  refine ⟨cut.getDirName_append, ?_, cut.transformPath_parent, ?_, ?_, ?_, ?_⟩
  · rw [cut.getDirName_closed, cut.getDirName_eq]
  · intro same
    obtain ⟨dir, file⟩ := Prod.mk.inj same
    rw [← cut.getDirName_append, ← cut'.getDirName_append, dir, file]
  · intro key keyed keyed'
    exact List.append_cancel_right
      ((cut.transformPath_key keyed).symm.trans (cut'.transformPath_key keyed'))
  · exact p.iterate_eq_root.mpr (le_refl _)
  · intro k less root
    exact absurd (p.iterate_eq_root.mp root) (Nat.not_le.mpr less)

/-- Two components below the root, beside their parent. -/
theorem splitters_agree_nested :
    getDirName ['/', 'a', '/', 'b'] ++ getFileName ['/', 'a', '/', 'b'] = ['/', 'a', '/', 'b'] ∧
      getDirName^[(components ['/', 'a', '/', 'b']).length] ['/', 'a', '/', 'b', '/'] = ['/'] := by
  have nested : Normalized ['/', 'a', '/', 'b'] :=
    .inr ⟨[['a'], ['b']], by decide, by simp [IsComponent], rfl⟩
  have above : Normalized ['/', 'a'] := .inr ⟨[['a']], by decide, by simp [IsComponent], rfl⟩
  have agree := splitters_agree nested (by decide) above (by decide)
  exact ⟨agree.1, agree.2.2.2.2.2.1⟩

end Agreement

end BlockFs
