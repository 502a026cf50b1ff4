import BlockFs.ConfigReload
import Mathlib.Logic.Function.Basic

namespace BlockFs.ConfigParser

/-- A call that changes what a parser holds. -/
inductive Edit
  | setStringValue (section_ key value : Text)
  | setIntValue (section_ key : Text) (value : Int)
  | setBoolValue (section_ key : Text) (value : Bool)
  | setRightComment (section_ key rightComment : Text)
  | deleteSection (section_ : Text)
  | deleteKey (section_ key : Text)

/-- The parser after a call. -/
def edit (p : ConfigParser) : Edit → ConfigParser
  | .setStringValue section_ key value => p.setStringValue section_ key value
  | .setIntValue section_ key value => p.setIntValue section_ key value
  | .setBoolValue section_ key value => p.setBoolValue section_ key value
  | .setRightComment section_ key rightComment => (p.setRightComment section_ key rightComment).1
  | .deleteSection section_ => p.deleteSection section_
  | .deleteKey section_ key => p.deleteKey section_ key

/-- The texts of a call could stand in a file, and the nameless section stays. -/
def Edit.Plain : Edit → Prop
  | setStringValue section_ key value =>
    (Line.header section_ []).Plain ∧ (Line.pair key value []).Plain
  | setIntValue section_ key _ => (Line.header section_ []).Plain ∧ (Line.pair key [] []).Plain
  | setBoolValue section_ key _ => (Line.header section_ []).Plain ∧ (Line.pair key [] []).Plain
  | setRightComment _ _ rightComment => Clean rightComment
  | deleteSection section_ => section_ ≠ []
  | deleteKey _ _ => True

/-- A parser that has loaded a file. -/
def Loaded (p : ConfigParser) : Prop := ∃ path text, ConfigParser.new.load path (some text) = (p, RET_OK)

/-- What a parser stands for: of each section that is there, the values of each key in their order. -/
abbrev Store := Text → Option (Text → List Text)

namespace Store

/-- The first value of a key is replaced. A section or key that is missing is made. -/
def set (s : Store) (section_ key value : Text) : Store :=
  let old := (s section_).getD fun _ => []
  Function.update s section_ (some (Function.update old key (value :: (old key).tail)))

/-- The first value of a key is taken away. -/
def remove (s : Store) (section_ key : Text) : Store :=
  Function.update s section_ ((s section_).map fun old => Function.update old key (old key).tail)

/-- What a call does to the store. Comments are not in it. -/
def apply (s : Store) : Edit → Store
  | .setStringValue section_ key value => s.set section_ key value
  | .setIntValue section_ key value => s.set section_ key (showInt value)
  | .setBoolValue section_ key value =>
    s.set section_ key (if value then ['t', 'r', 'u', 'e'] else ['f', 'a', 'l', 's', 'e'])
  | .setRightComment _ _ _ => s
  | .deleteSection section_ => Function.update s section_ none
  | .deleteKey section_ key => s.remove section_ key

/-- The values of a key, or why there are none. -/
def lookup (s : Store) (section_ key : Text) : Except Nat (List Text) :=
  match s section_ with
  | none => .error ERR_NOT_FOUND_SECTION
  | some values => if values key = [] then .error ERR_NOT_FOUND_KEY else .ok (values key)

end Store

/-- The values of a key in a section. -/
def values (sect : IniSection) (key : Text) : List Text :=
  (sect.items.filter (·.key == key)).map (·.value)

/-- The store of a parser. -/
def store (p : ConfigParser) : Store := fun section_ => (p.getSection section_).map values

section FirstMatches
variable {α β : Type} {cond : α → Bool} {f : α → α} {a : α} {as : List α}

theorem mem_modifyFirst {b : α} (member : b ∈ modifyFirst cond f as) :
    b ∈ as ∨ ∃ a ∈ as, cond a = true ∧ b = f a := by
  induction as with
  | nil => exact .inl member
  | cons a as ih =>
    rw [modifyFirst] at member
    split at member
    · next here =>
      rcases List.mem_cons.mp member with rfl | later
      · exact .inr ⟨a, List.mem_cons_self, here, rfl⟩
      · exact .inl (List.mem_cons_of_mem _ later)
    · rcases List.mem_cons.mp member with rfl | later
      · exact .inl List.mem_cons_self
      · rcases ih later with old | ⟨c, there, meets, same⟩
        · exact .inl (List.mem_cons_of_mem _ old)
        · exact .inr ⟨c, List.mem_cons_of_mem _ there, meets, same⟩

/-- What the change does not touch is kept at every place. -/
theorem map_modifyFirst {g : α → β} (blind : ∀ a, g (f a) = g a) : (modifyFirst cond f as).map g = as.map g := by
  induction as with
  | nil => rfl
  | cons a as ih =>
    rw [modifyFirst]
    split
    · rw [List.map_cons, blind, List.map_cons]
    · rw [List.map_cons, ih, List.map_cons]

theorem find?_modifyFirst [BEq β] [LawfulBEq β] [DecidableEq β] {g : α → β} (blind : ∀ a, g (f a) = g a) (b c : β) :
    (modifyFirst (fun a => g a == b) f as).find? (fun a => g a == c) =
      if c = b then (as.find? fun a => g a == b).map f else as.find? fun a => g a == c := by
  induction as with
  | nil => simp [modifyFirst]
  | cons a as ih =>
    by_cases here : g a = b
    · subst here
      by_cases same : c = g a
      · simp [modifyFirst, blind, same]
      · have other : ¬g a = c := fun equal => same equal.symm
        simp [modifyFirst, blind, same, other]
    · by_cases there : g a = c
      · subst there
        simp [modifyFirst, here]
      · simpa [modifyFirst, here, there] using ih

/-- The elements with a key, after the first of them has been changed. -/
theorem filter_modifyFirst [BEq β] [LawfulBEq β] [DecidableEq β] {g : α → β} (blind : ∀ a, g (f a) = g a) (b c : β) :
    (modifyFirst (fun a => g a == b) f as).filter (fun a => g a == c) =
      if c = b then modifyFirst (fun _ => true) f (as.filter fun a => g a == b)
      else as.filter fun a => g a == c := by
  induction as with
  | nil => simp [modifyFirst]
  | cons a as ih =>
    by_cases here : g a = b
    · subst here
      by_cases same : c = g a
      · simp [modifyFirst, blind, same]
      · have other : ¬g a = c := fun equal => same equal.symm
        simp [modifyFirst, blind, same, other]
    · by_cases there : g a = c
      · subst there
        simpa [modifyFirst, here] using ih
      · simpa [modifyFirst, here, there] using ih

theorem find?_eraseP [BEq β] [LawfulBEq β] [DecidableEq β] {g : α → β} (distinct : (as.map g).Nodup) (b c : β) :
    (as.eraseP fun a => g a == b).find? (fun a => g a == c) =
      if c = b then none else as.find? fun a => g a == c := by
  induction as with
  | nil => simp
  | cons a as ih =>
    obtain ⟨unused, distinct⟩ := List.nodup_cons.mp distinct
    by_cases here : g a = b
    · subst here
      by_cases same : c = g a
      · subst same
        have none_ : as.find? (fun d => g d == g a) = none := by
          rw [List.find?_eq_none]
          intro d member equal
          exact unused (List.mem_map.mpr ⟨d, member, by simpa using equal⟩)
        simp [none_]
      · have other : ¬g a = c := fun equal => same equal.symm
        simp [same, other]
    · by_cases there : g a = c
      · subst there
        simp [here]
      · simpa [here, there] using ih distinct

theorem filter_eraseP [BEq β] [LawfulBEq β] [DecidableEq β] {g : α → β} (b c : β) :
    (as.eraseP fun a => g a == b).filter (fun a => g a == c) =
      if c = b then (as.filter fun a => g a == b).tail else as.filter fun a => g a == c := by
  induction as with
  | nil => simp
  | cons a as ih =>
    by_cases here : g a = b
    · subst here
      by_cases same : c = g a
      · simp [same]
      · have other : ¬g a = c := fun equal => same equal.symm
        simp [same, other]
    · by_cases there : g a = c
      · subst there
        simpa [here] using ih
      · simpa [here, there] using ih

end FirstMatches

section Refining
variable {p : ConfigParser} {section_ key : Text}

/-- The section of a name after the first section of another, or of the same, name has been changed. -/
theorem store_modify {f : IniSection → IniSection} (named : ∀ sect, (f sect).name = sect.name)
    (section_ : Text) : store { p with sections := modifyFirst (·.name == section_) f p.sections } =
      Function.update p.store section_ ((p.getSection section_).map fun sect => values (f sect)) := by
  funext other
  rw [store, getSection]
  dsimp only
  rw [find?_modifyFirst named]
  by_cases same : other = section_
  · subst same
    rw [if_pos rfl, Function.update_self, Option.map_map]
    rfl
  · rw [if_neg same, Function.update_of_ne same]
    rfl

/-- Setting a value changes the first item of the key, or makes one. -/
theorem values_setItem (key value comment : Text) (sect : IniSection) :
    values (setItem key value comment sect) =
      Function.update (values sect) key (value :: (values sect key).tail) := by
  funext other
  have blind : ∀ item : IniItem, { item with value := value, comment := comment }.key = item.key := fun _ => rfl
  by_cases there : sect.items.any (·.key == key) = true
  · rw [setItem, if_pos there, values]
    dsimp only
    rw [filter_modifyFirst blind]
    by_cases same : other = key
    · subst same
      obtain ⟨item, member, meets⟩ := List.any_eq_true.mp there
      rw [if_pos rfl, Function.update_self, values]
      cases found : sect.items.filter (·.key == other) with
      | nil => exact absurd (List.filter_eq_nil_iff.mp found item member) (by simpa using meets)
      | cons first rest => simp [modifyFirst]
    · rw [if_neg same, Function.update_of_ne same]
      rfl
  · have none_ : sect.items.filter (·.key == key) = [] := by
      rw [List.filter_eq_nil_iff]
      exact fun item member meets => there (List.any_eq_true.mpr ⟨item, member, meets⟩)
    rw [setItem, if_neg there, values, List.filter_append, List.map_append]
    by_cases same : other = key
    · subst same
      rw [Function.update_self, values, none_]
      simp
    · have apart : ¬key = other := fun equal => same equal.symm
      rw [Function.update_of_ne same]
      simp [apart, values]

theorem store_setValue (section_ key value comment : Text) :
    (p.setValue section_ key value comment).store = p.store.set section_ key value := by
  have named (comment : Text) (sect : IniSection) : (setItem key value comment sect).name = sect.name := by
    rw [setItem]
    split <;> rfl
  rw [setValue]
  dsimp only
  cases found : p.getSection section_ with
  | some sect =>
    rw [Option.isSome_some, if_pos rfl, store_modify (named _), found, Store.set, store, found]
    simp [values_setItem]
  | none =>
    rw [Option.isSome_none, if_neg Bool.false_ne_true]
    -- The new section is found, and no other is hidden by it.
    generalize whole : (if section_ = [] then
      { name := section_, comment := [], rightComment := [], items := [] } :: p.sections else
      p.sections ++ [{ name := section_, comment := [], rightComment := [], items := [] }]) = ss
    have missing : ∀ sect ∈ p.sections, ¬sect.name = section_ := by
      intro sect member same
      exact List.find?_eq_none.mp found sect member (by simpa using same)
    have at_ (other : Text) : ss.find? (·.name == other) = if other = section_ then
        some { name := section_, comment := [], rightComment := [], items := [] }
        else p.getSection other := by
      by_cases same : other = section_
      · subst same
        have none_ : p.sections.find? (·.name == other) = none := found
        rw [if_pos rfl, ← whole]
        split
        · simp
        · simp [List.find?_append, none_]
      · have apart : ¬section_ = other := fun equal => same equal.symm
        rw [if_neg same, ← whole]
        split <;> simp [List.find?_append, apart, getSection]
    have moved := store_modify (p := { p with sections := ss })
      (named (if comment ≠ [] then p.commentDelimiter ++ comment else comment)) section_
    rw [show store { p with sections := _ } = _ from moved, getSection]
    dsimp only
    rw [at_, if_pos rfl, Store.set, store, found]
    funext other
    by_cases same : other = section_
    · subst same
      rw [Function.update_self, Function.update_self, Option.map_some, values_setItem]
      rfl
    · rw [Function.update_of_ne same, Function.update_of_ne same, store, getSection]
      dsimp only
      rw [at_, if_neg same]
      rfl

theorem store_setRightComment (section_ key rightComment : Text) :
    (p.setRightComment section_ key rightComment).1.store = p.store := by
  have kept {f : IniSection → IniSection} (named : ∀ sect, (f sect).name = sect.name)
      (same : ∀ sect, values (f sect) = values sect) :
      store { p with sections := modifyFirst (·.name == section_) f p.sections } = p.store := by
    rw [store_modify named, Function.update_eq_self_iff, store]
    simp [same]
  rw [setRightComment]
  cases found : p.getSection section_ with
  | none => rfl
  | some sect =>
    dsimp only
    split
    · exact kept (fun _ => rfl) fun _ => rfl
    · split
      · refine kept (fun _ => rfl) fun s => funext fun other => ?_
        have blind : ∀ item : IniItem, { item with rightComment := rightComment }.key = item.key :=
          fun _ => rfl
        rw [values]
        dsimp only
        rw [filter_modifyFirst blind]
        split
        · next same =>
          subst same
          exact map_modifyFirst fun _ => rfl
        · rfl
      · rfl

theorem store_deleteKey (section_ key : Text) :
    (p.deleteKey section_ key).store = p.store.remove section_ key := by
  have taken (sect : IniSection) : values { sect with items := sect.items.eraseP (·.key == key) } =
      Function.update (values sect) key (values sect key).tail := by
    funext other
    rw [values]
    dsimp only
    rw [filter_eraseP]
    by_cases same : other = key
    · subst same
      rw [if_pos rfl, Function.update_self, values, List.map_tail]
    · rw [if_neg same, Function.update_of_ne same]
      rfl
  have moved := store_modify (p := p)
    (f := fun sect => { sect with items := sect.items.eraseP (·.key == key) }) (fun _ => rfl) section_
  simp only [taken] at moved
  rw [deleteKey, moved, Store.remove, store, Option.map_map]
  rfl

theorem store_deleteSection (distinct : (p.sections.map (·.name)).Nodup) (section_ : Text) :
    (p.deleteSection section_).store = Function.update p.store section_ none := by
  funext other
  rw [deleteSection, store, getSection]
  dsimp only
  rw [find?_eraseP distinct]
  by_cases same : other = section_
  · subst same
    rw [if_pos rfl, Function.update_self]
    rfl
  · rw [if_neg same, Function.update_of_ne same]
    rfl

/-- A call does to the store what it is for, whatever its texts are. -/
theorem store_edit (distinct : (p.sections.map (·.name)).Nodup) (e : Edit) :
    (p.edit e).store = p.store.apply e := by
  cases e with
  | setStringValue section_ key value => exact store_setValue section_ key value []
  | setIntValue section_ key value => exact store_setValue section_ key _ []
  | setBoolValue section_ key value => exact store_setValue section_ key _ []
  | setRightComment section_ key rightComment => exact store_setRightComment section_ key rightComment
  | deleteSection section_ => exact store_deleteSection distinct section_
  | deleteKey section_ key => exact store_deleteKey section_ key

/-- No call makes a second section of a name. -/
theorem distinct_edit (distinct : (p.sections.map (·.name)).Nodup) (e : Edit) :
    ((p.edit e).sections.map (·.name)).Nodup := by
  have kept {f : IniSection → IniSection} (named : ∀ sect, (f sect).name = sect.name) (section_ : Text)
      {ss : List IniSection} (distinct : (ss.map (·.name)).Nodup) :
      ((modifyFirst (·.name == section_) f ss).map (·.name)).Nodup := by
    rwa [map_modifyFirst named]
  have set_ (section_ key value : Text) : ((p.setValue section_ key value []).sections.map (·.name)).Nodup := by
    refine kept (fun sect => ?_) section_ ?_
    · rw [setItem]
      split <;> rfl
    · cases found : p.getSection section_ with
      | some sect => exact distinct
      | none =>
        have unused : section_ ∉ p.sections.map (·.name) := by
          intro member
          obtain ⟨sect, there, same⟩ := List.mem_map.mp member
          exact List.find?_eq_none.mp found sect there (by simpa using same)
        rw [Option.isSome_none, if_neg Bool.false_ne_true]
        split
        · exact List.nodup_cons.mpr ⟨unused, distinct⟩
        · rw [List.map_append, List.map_singleton]
          refine List.nodup_append.mpr ⟨distinct, by simp, fun name member last here same => ?_⟩
          obtain rfl := List.mem_singleton.mp here
          exact unused (same ▸ member)
  cases e with
  | setStringValue section_ key value => exact set_ section_ key value
  | setIntValue section_ key value => exact set_ section_ key _
  | setBoolValue section_ key value => exact set_ section_ key _
  | setRightComment section_ key rightComment =>
    rw [edit, setRightComment]
    split
    · exact distinct
    · split
      · exact kept (fun _ => by rfl) section_ distinct
      · split
        · exact kept (fun _ => by rfl) section_ distinct
        · exact distinct
  | deleteSection section_ => exact distinct.sublist (List.eraseP_sublist.map _)
  | deleteKey section_ key => exact kept (fun _ => by rfl) section_ distinct

theorem store_edits (distinct : (p.sections.map (·.name)).Nodup) (edits : List Edit) :
    (edits.foldl edit p).store = edits.foldl Store.apply p.store := by
  induction edits generalizing p with
  | nil => rfl
  | cons e edits ih => rw [List.foldl_cons, ih (distinct_edit distinct e), store_edit distinct, List.foldl_cons]

end Refining

section Answers
variable (p : ConfigParser) (section_ key : Text)

theorem hasSection_store : p.hasSection section_ = (p.store section_).isSome := by
  rw [hasSection, store, Option.isSome_map]

theorem getValues_store : p.getValues section_ key =
    match p.store.lookup section_ key with
    | .ok found => (found, RET_OK)
    | .error err => ([], err) := by
  rw [getValues, Store.lookup, store]
  cases p.getSection section_ with
  | none => rfl
  | some sect =>
    dsimp only [Option.map_some]
    rw [values]
    by_cases none : (sect.items.filter (·.key == key)).map (·.value) = []
    · rw [if_pos none, if_pos (by rw [none]; rfl)]
    · rw [if_neg none, if_neg (by simpa using none)]

theorem getStringValue_store (value : Text) : p.getStringValue section_ key value =
    match p.store.lookup section_ key with
    | .ok found => (found.headD [], RET_OK)
    | .error err => (value, err) := by
  rw [getStringValue, getValue, Store.lookup, store]
  cases p.getSection section_ with
  | none => rfl
  | some sect =>
    dsimp only [Option.map_some]
    rw [values]
    cases found : sect.items.find? (·.key == key) with
    | none =>
      have none_ : sect.items.filter (·.key == key) = [] :=
        List.filter_eq_nil_iff.mpr (List.find?_eq_none.mp found)
      rw [none_]
      rfl
    | some item =>
      have head : (sect.items.filter (·.key == key)).head? = some item := by rw [List.head?_filter, found]
      obtain ⟨rest, same⟩ := List.head?_eq_some_iff.mp head
      rw [same]
      rfl

theorem hasKey_store : p.hasKey section_ key = (p.store.lookup section_ key).toBool := by
  rw [hasKey, Store.lookup, store]
  cases p.getSection section_ with
  | none => rfl
  | some sect =>
    dsimp only [Option.map_some]
    by_cases there : sect.items.any (·.key == key) = true
    · obtain ⟨item, member, meets⟩ := List.any_eq_true.mp there
      have some_ : values sect key ≠ [] := by
        intro none
        have empty : sect.items.filter (·.key == key) = [] := List.map_eq_nil_iff.mp none
        exact List.filter_eq_nil_iff.mp empty item member meets
      rw [there, if_neg some_]
      rfl
    · have none : values sect key = [] := by
        rw [values, List.map_eq_nil_iff, List.filter_eq_nil_iff]
        exact fun item member meets => there (List.any_eq_true.mpr ⟨item, member, meets⟩)
      rw [Bool.eq_false_iff.mpr there, if_pos none]
      rfl

end Answers

end BlockFs.ConfigParser
