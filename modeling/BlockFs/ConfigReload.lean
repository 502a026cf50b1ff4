import BlockFs.ConfigSave

namespace BlockFs.ConfigParser

/-- A section without the comment beside it. -/
def unadorned (sect : IniSection) : IniSection := { sect with rightComment := [] }

/-- The lines of a section if nothing is written beside it. -/
def allLines (sect : IniSection) : List Line := headLines sect ++ sect.items.flatMap itemLines

/-- The section a line opens. -/
def Line.opens : Line → Option Text
  | header name _ => some name
  | _ => none

section Absorbing
variable {d d' : Draft} {ls : List Line} {ss : List IniSection}

/-- What does not depend on the items of a section is kept when they are changed. -/
theorem map_modify_items {α : Type} (g : IniSection → α) (blind : ∀ s items, g { s with items := items } = g s)
    (items : IniSection → List IniItem) (ss : List IniSection) (i : Nat) :
    (ss.modify i fun s => { s with items := items s }).map g = ss.map g := by
  induction ss generalizing i with
  | nil => simp
  | cons s ss ih =>
    cases i with
    | zero => simp [blind]
    | succ i => simp [ih]

/-- Lines that open sections of new names are all taken in. -/
theorem absorbAll_opens (distinct : (d.sections.map (·.name) ++ ls.filterMap Line.opens).Nodup) :
    ∃ d', d.absorbAll ls = some d' := by
  induction ls generalizing d with
  | nil => exact ⟨d, rfl⟩
  | cons l ls ih =>
    rw [Draft.absorbAll_cons]
    cases l with
    | note t => exact ih distinct
    | pair key value right =>
      refine @ih ⟨_, _⟩ ?_
      dsimp only
      rw [map_modify_items (·.name) fun _ _ => rfl]
      exact distinct
    | header name right =>
      have fresh : d.sections.any (·.name == name) = false := by
        rw [Bool.eq_false_iff]
        intro taken
        obtain ⟨s, there, same⟩ := List.any_eq_true.mp taken
        exact (List.nodup_append.mp distinct).2.2 name (List.mem_map.mpr ⟨s, there, by simpa using same⟩) name
          List.mem_cons_self rfl
      rw [Draft.absorb, if_neg (by simp [fresh])]
      refine @ih ⟨_, _⟩ ?_
      simpa [Line.opens] using distinct

/-- No section gets a comment beside it if the lines that open sections have none. -/
theorem absorbAll_unadorned (alone : ∀ sect ∈ d.sections, sect.rightComment = [])
    (plain : ∀ name right, Line.header name right ∈ ls → right = []) (taken : d.absorbAll ls = some d') :
    ∀ sect ∈ d'.sections, sect.rightComment = [] := by
  induction ls generalizing d with
  | nil =>
    obtain rfl := Option.some.inj taken
    exact alone
  | cons l ls ih =>
    obtain ⟨u, first, rest⟩ := Option.bind_eq_some_iff.mp taken
    refine ih ?_ (fun name right member => plain name right (List.mem_cons_of_mem _ member)) rest
    cases l with
    | note t =>
      obtain rfl := Option.some.inj first
      exact alone
    | pair key value right =>
      obtain rfl := Option.some.inj first
      intro sect member
      have there : sect.rightComment ∈ d.sections.map (·.rightComment) := by
        rw [← map_modify_items (·.rightComment) fun _ _ => rfl]
        exact List.mem_map.mpr ⟨sect, member, rfl⟩
      obtain ⟨old, before, same⟩ := List.mem_map.mp there
      rw [← same]
      exact alone old before
    | header name right =>
      rw [Draft.absorb] at first
      split at first
      · simp at first
      · obtain rfl := Option.some.inj first
        intro sect member
        rcases List.mem_append.mp member with before | last
        · exact alone sect before
        · obtain rfl := List.mem_singleton.mp last
          exact plain name right List.mem_cons_self

theorem absorbAll_notes {ts : List Text} (clean : ∀ t ∈ ts, Clean t) (comment : Text) :
    Draft.absorbAll { sections := ss, comment := comment } (ts.map .note) =
      some { sections := ss, comment := comment ++ Lines.unlines '\n' ts } := by
  induction ts generalizing comment with
  | nil => simp [Draft.absorbAll]
  | cons t ts ih =>
    rw [List.map_cons, Draft.absorbAll_cons]
    refine (ih (fun t member => clean t (List.mem_cons_of_mem _ member)) _).trans ?_
    rw [(clean t List.mem_cons_self).trim, Lines.unlines_cons]
    simp

theorem absorbAll_items {sect : IniSection} {items : List IniItem} (plain : ∀ item ∈ items, PlainItem item) :
    Draft.absorbAll { sections := ss ++ [sect], comment := [] } (items.flatMap itemLines) =
      some { sections := ss ++ [{ sect with items := sect.items ++ items }], comment := [] } := by
  induction items generalizing sect with
  | nil => simp [Draft.absorbAll]
  | cons item items ih =>
    have notes := (plain item List.mem_cons_self).comment
    rw [List.flatMap_cons, itemLines, List.append_assoc, Draft.absorbAll_append,
      absorbAll_notes (fun t member => (notes.lines.2 t member).1), Option.bind_some, List.nil_append,
      notes.lines.1, List.singleton_append, Draft.absorbAll_cons, Draft.absorb, Option.bind_some]
    dsimp only
    rw [modify_last, ih fun item member => plain item (List.mem_cons_of_mem _ member)]
    simp

/-- The lines of a section that has a new name make up the section. -/
theorem absorbAll_section {sect : IniSection} (plain : PlainSection sect) (named : sect.name ≠ [])
    (fresh : sect.name ∉ ss.map (·.name)) :
    Draft.absorbAll { sections := ss, comment := [] } (allLines sect) =
      some { sections := ss ++ [unadorned sect], comment := [] } := by
  have notes := plain.comment
  have unused : ¬ss.any (·.name == sect.name) = true := by
    intro taken
    obtain ⟨s, there, same⟩ := List.any_eq_true.mp taken
    exact fresh (List.mem_map.mpr ⟨s, there, by simpa using same⟩)
  rw [allLines, headLines, if_neg named, List.append_assoc, Draft.absorbAll_append,
    absorbAll_notes (fun t member => (notes.lines.2 t member).1), Option.bind_some, List.nil_append,
    notes.lines.1, List.singleton_append, Draft.absorbAll_cons, Draft.absorb, if_neg unused, Option.bind_some,
    absorbAll_items plain.items]
  rfl

theorem absorbAll_sections {acc : List IniSection} (plain : ∀ sect ∈ ss, PlainSection sect)
    (named : ∀ sect ∈ ss, sect.name ≠ []) (distinct : ((acc ++ ss).map (·.name)).Nodup) :
    Draft.absorbAll { sections := acc, comment := [] } (ss.flatMap allLines) =
      some { sections := acc ++ ss.map unadorned, comment := [] } := by
  induction ss generalizing acc with
  | nil => simp [Draft.absorbAll]
  | cons sect ss ih =>
    have fresh : sect.name ∉ acc.map (·.name) := by
      intro member
      rw [List.map_append, List.nodup_append] at distinct
      exact distinct.2.2 _ member _ List.mem_cons_self rfl
    rw [List.flatMap_cons, Draft.absorbAll_append,
      absorbAll_section (plain sect List.mem_cons_self) (named sect List.mem_cons_self) fresh, Option.bind_some,
      ih (fun s member => plain s (List.mem_cons_of_mem _ member))
        (fun s member => named s (List.mem_cons_of_mem _ member)) (by simpa [unadorned] using distinct)]
    simp

/-- The draft `Load` starts with. -/
def Draft.start : Draft :=
  { sections := [{ name := [], comment := [], rightComment := [], items := [] }], comment := [] }

/-- The lines of all sections, each without the comment beside it, make up the sections without it. -/
theorem PlainSections.absorbAll (plain : PlainSections ss) :
    Draft.start.absorbAll (ss.flatMap allLines) = some { sections := ss.map unadorned, comment := [] } := by
  obtain ⟨first, rest, rfl, nameless, uncommented⟩ := plain.nameless
  have items := @absorbAll_items [] { name := [], comment := [], rightComment := [], items := [] } _
    (plain.plain first List.mem_cons_self).items
  have lines : allLines first = first.items.flatMap itemLines := by
    simp [allLines, headLines, nameless, uncommented, Lines.lines]
  have same : unadorned first = { name := [], comment := [], rightComment := [], items := first.items } := by
    rw [unadorned, nameless, uncommented]
  rw [List.flatMap_cons, Draft.absorbAll_append, lines]
  rw [List.nil_append] at items
  rw [show Draft.start.absorbAll _ = _ from items, Option.bind_some]
  dsimp only
  rw [List.nil_append, List.nil_append, ← same, absorbAll_sections]
  · rfl
  · exact fun s member => plain.plain s (List.mem_cons_of_mem _ member)
  · intro s member none
    have distinct := plain.distinct
    rw [List.map_cons, List.nodup_cons, nameless] at distinct
    exact distinct.1 (List.mem_map.mpr ⟨s, member, none⟩)
  · exact plain.distinct

end Absorbing

/-- A line that is more than a comment. -/
def Line.tells : Line → Bool
  | note _ => false
  | _ => true

/-- The names, keys and values of sections, without their comments. -/
def contents (ss : List IniSection) : List (Text × List (Text × Text)) :=
  ss.map fun sect => (sect.name, sect.items.map fun item => (item.key, item.value))

/-- What a line adds to names, keys and values. -/
def retell (c : List (Text × List (Text × Text))) : Line → List (Text × List (Text × Text))
  | .note _ => c
  | .header name _ => c ++ [(name, [])]
  | .pair key value _ => c.modify (c.length - 1) fun sect => (sect.1, sect.2 ++ [(key, value)])

section Telling
variable {d d' : Draft} {ls : List Line} {c : List (Text × List (Text × Text))}

theorem absorb_contents {l : Line} (taken : d.absorb l = some d') :
    contents d'.sections = retell (contents d.sections) l := by
  cases l with
  | note t =>
    obtain rfl := Option.some.inj taken
    rfl
  | header name right =>
    rw [Draft.absorb] at taken
    split at taken
    · simp at taken
    · obtain rfl := Option.some.inj taken
      simp [contents, retell]
  | pair key value right =>
    obtain rfl := Option.some.inj taken
    have moved (ss : List IniSection) (i : Nat) : contents (ss.modify i fun s => { s with
        items := s.items ++ [{ key := key, value := value, comment := d.comment, rightComment := right }] }) =
          (contents ss).modify i fun sect => (sect.1, sect.2 ++ [(key, value)]) := by
      induction ss generalizing i with
      | nil => simp [contents]
      | cons s ss ih =>
        cases i with
        | zero => simp [contents]
        | succ i => simpa [contents] using ih i
    rw [moved, retell, contents, List.length_map]

/-- Comments tell nothing. -/
theorem absorbAll_contents (taken : d.absorbAll ls = some d') :
    contents d'.sections = (ls.filter Line.tells).foldl retell (contents d.sections) := by
  induction ls generalizing d with
  | nil =>
    obtain rfl := Option.some.inj taken
    rfl
  | cons l ls ih =>
    obtain ⟨u, first, rest⟩ := Option.bind_eq_some_iff.mp taken
    rw [ih rest, absorb_contents first]
    cases l <;> rfl

/-- The number of sections and of items. -/
def weight (c : List (Text × List (Text × Text))) : Nat := c.length + (c.flatMap (·.2)).length

theorem weight_modify_last (c : List (Text × List (Text × Text))) (pair : Text × Text) (some_ : c ≠ []) :
    weight (c.modify (c.length - 1) fun sect => (sect.1, sect.2 ++ [pair])) = weight c + 1 := by
  induction c with
  | nil => exact absurd rfl some_
  | cons sect c ih =>
    cases c with
    | nil => simp [weight, Nat.add_assoc]
    | cons sect' c =>
      have rest := ih (List.cons_ne_nil _ _)
      have length : (sect :: sect' :: c).length - 1 = (sect' :: c).length - 1 + 1 := by simp
      rw [length, List.modify_succ_cons]
      simp only [weight, List.length_cons, List.flatMap_cons, List.length_append] at rest ⊢
      omega

/-- Every line that tells something adds one section or one item. -/
theorem weight_foldl (some_ : c ≠ []) (tells : ∀ l ∈ ls, l.tells = true) :
    weight (ls.foldl retell c) = weight c + ls.length := by
  induction ls generalizing c with
  | nil => rfl
  | cons l ls ih =>
    have later : ∀ l ∈ ls, l.tells = true := fun l member => tells l (List.mem_cons_of_mem _ member)
    rw [List.foldl_cons]
    cases l with
    | note t => exact absurd (tells _ List.mem_cons_self) Bool.false_ne_true
    | header name right =>
      rw [ih (by simp [retell]) later]
      simp [weight, retell]
      omega
    | pair key value right =>
      have kept : retell c (.pair key value right) ≠ [] := by
        rw [← List.length_pos_iff, retell, List.length_modify, List.length_pos_iff]
        exact some_
      rw [ih kept later, retell, weight_modify_last c _ some_, List.length_cons]
      omega

end Telling

/-- A comment beside a section takes the line behind it with it: the first item of the section, or,
where it has none, the next section, unless a comment stands above that. -/
def Loses (ss : List IniSection) : Prop :=
  ∃ front sect rest, ss = front ++ sect :: rest ∧ sect.rightComment ≠ [] ∧
    ((∃ item items, sect.items = item :: items ∧ item.comment = []) ∨
      sect.items = [] ∧ ∃ next last, rest = next :: last ∧ next.comment = [])

/-- The lines of sections that are written behind `before` do not tell all. -/
def Spills (before : Text) (ss : List IniSection) : Prop :=
  (before ≠ [] ∧ ∃ next last, ss = next :: last ∧ next.comment = []) ∨ Loses ss

section Spilling
variable {sect : IniSection} {ss : List IniSection} {before : Text} {ls : List Line}

theorem loses_cons : Loses (sect :: ss) ↔
    (sect.rightComment ≠ [] ∧ ∃ item items, sect.items = item :: items ∧ item.comment = []) ∨
      if sect.items = [] then Spills (beside sect.rightComment) ss else Spills [] ss := by
  have beside_ : beside sect.rightComment ≠ [] ↔ sect.rightComment ≠ [] := by
    rw [beside]
    split <;> simp [*]
  constructor
  · rintro ⟨front, s, rest, same, beside', takes⟩
    cases front with
    | nil =>
      obtain ⟨rfl, rfl⟩ : sect = s ∧ ss = rest := by simpa using same
      rcases takes with item | ⟨none, next⟩
      · exact .inl ⟨beside', item⟩
      · rw [if_pos none]
        exact .inr (.inl ⟨beside_.mpr beside', next⟩)
    | cons t front =>
      obtain ⟨rfl, rfl⟩ : sect = t ∧ ss = front ++ s :: rest := by simpa using same
      have later : Loses (front ++ s :: rest) := ⟨front, s, rest, rfl, beside', takes⟩
      refine .inr ?_
      split <;> exact .inr later
  · rintro (⟨beside', item⟩ | spills)
    · exact ⟨[], sect, ss, rfl, beside', .inl item⟩
    · have later (loses : Loses ss) : Loses (sect :: ss) := by
        obtain ⟨front, s, rest, rfl, others⟩ := loses
        exact ⟨sect :: front, s, rest, rfl, others⟩
      split at spills
      · next none =>
        rcases spills with ⟨some_, next⟩ | loses
        · exact ⟨[], sect, ss, rfl, beside_.mp some_, .inr ⟨none, next⟩⟩
        · exact later loses
      · exact later (spills.resolve_left fun both => both.1 rfl)

/-- Lines that are written for others tell the same, or, if something is lost, fewer of them tell
anything. -/
structure Told (lost : Prop) (new old : List Line) : Prop where
  part : (new.filter Line.tells).Sublist (old.filter Line.tells)
  all : ¬lost → new.filter Line.tells = old.filter Line.tells
  less : lost → (new.filter Line.tells).length < (old.filter Line.tells).length

theorem Told.append {lost lost' : Prop} {new new' old old' : List Line} (first : Told lost new old)
    (second : Told lost' new' old') : Told (lost ∨ lost') (new ++ new') (old ++ old') where
  part := by
    rw [List.filter_append, List.filter_append]
    exact first.part.append second.part
  all none := by
    obtain ⟨kept, kept'⟩ := not_or.mp none
    rw [List.filter_append, List.filter_append, first.all kept, second.all kept']
  less some_ := by
    have bound := first.part.length_le
    have bound' := second.part.length_le
    rw [List.filter_append, List.filter_append, List.length_append, List.length_append]
    rcases some_ with gone | gone
    · have shorter := first.less gone
      omega
    · have shorter := second.less gone
      omega

theorem Told.congr {lost lost' : Prop} {new old : List Line} (told : Told lost new old)
    (same : lost' ↔ lost) : Told lost' new old where
  part := told.part
  all none := told.all fun gone => none (same.mpr gone)
  less gone := told.less (same.mp gone)

/-- The first of the lines that follow a text on its line is lost if it tells something. -/
theorem fuse_told (before : Text) (ls : List Line) :
    Told (before ≠ [] ∧ ∃ l rest, ls = l :: rest ∧ l.tells = true) (fuse before ls) ls := by
  have silent (t : Text) : ¬(Line.note t).tells = true := Bool.false_ne_true
  by_cases none : before = []
  · have same : fuse before ls = ls := by
      cases ls <;> simp [fuse, none]
    rw [same]
    exact ⟨.refl _, fun _ => rfl, fun lost => absurd none lost.1⟩
  cases ls with
  | nil =>
    constructor
    · rw [fuse, if_neg none, List.filter_cons_of_neg (silent before)]
    · intro _
      rw [fuse, if_neg none, List.filter_cons_of_neg (silent before)]
    · rintro ⟨_, l, rest, same, _⟩
      simp at same
  | cons l ls =>
    constructor
    · rw [fuse, if_neg none, List.filter_cons_of_neg (silent _)]
      exact (List.sublist_cons_self l ls).filter _
    · intro kept
      have quiet : ¬l.tells = true := fun tells => kept ⟨none, l, ls, rfl, tells⟩
      rw [fuse, if_neg none, List.filter_cons_of_neg (silent _), List.filter_cons_of_neg quiet]
    · rintro ⟨_, m, rest, same, tells⟩
      obtain ⟨rfl, rfl⟩ : l = m ∧ ls = rest := by simpa using same
      rw [fuse, if_neg none, List.filter_cons_of_neg (silent _), List.filter_cons_of_pos tells]
      exact Nat.lt_succ_self _

/-- A comment comes first where there is one. -/
theorem Notes.first {comment : Text} (notes : Notes comment) {l : Line} (tells : l.tells = true) :
    (∃ m rest, (Lines.lines '\n' comment).map Line.note ++ [l] = m :: rest ∧ m.tells = true) ↔
      comment = [] := by
  constructor
  · rintro ⟨m, rest, same, tells'⟩
    cases ls : Lines.lines '\n' comment with
    | nil => rw [← notes.lines.1, ls, Lines.unlines_nil]
    | cons t ts =>
      rw [ls] at same
      obtain rfl : Line.note t = m := by simpa using congrArg List.head? same
      exact absurd tells' Bool.false_ne_true
  · rintro rfl
    exact ⟨l, [], rfl, tells⟩

theorem headLines_first (plain : PlainSection sect) (named : sect.name ≠ []) :
    (∃ l rest, headLines sect = l :: rest ∧ l.tells = true) ↔ sect.comment = [] := by
  rw [headLines, if_neg named]
  exact plain.comment.first rfl

theorem itemLines_first (plain : ∀ item ∈ sect.items, PlainItem item) :
    (∃ l rest, sect.items.flatMap itemLines = l :: rest ∧ l.tells = true) ↔
      ∃ item items, sect.items = item :: items ∧ item.comment = [] := by
  cases same : sect.items with
  | nil => simp
  | cons item items =>
    have notes := (plain item (same ▸ List.mem_cons_self)).comment
    have first := notes.first (l := .pair item.key item.value item.rightComment) rfl
    constructor
    · rintro ⟨l, rest, whole, tells⟩
      refine ⟨item, items, rfl, first.mp ?_⟩
      rw [List.flatMap_cons] at whole
      cases lines : itemLines item with
      | nil => simp [itemLines] at lines
      | cons m more =>
        rw [lines, List.cons_append, List.cons.injEq] at whole
        exact ⟨m, more, lines, whole.1 ▸ tells⟩
    · rintro ⟨item', items', whole, none⟩
      obtain ⟨rfl, rfl⟩ : item = item' ∧ items = items' := by simpa using whole
      obtain ⟨l, rest, lines, tells⟩ := first.mpr none
      refine ⟨l, rest ++ items.flatMap itemLines, ?_, tells⟩
      rw [List.flatMap_cons, itemLines, lines, List.cons_append]

/-- The lines that are written tell all that the sections hold, unless a comment takes a line with it. -/
theorem layout_told (plain : ∀ sect ∈ ss, PlainSection sect)
    (start : before ≠ [] → ∀ sect ∈ ss, sect.name ≠ []) (named : ∀ sect ∈ ss.tail, sect.name ≠ []) :
    Told (Spills before ss) (layout before ss) (ss.flatMap allLines) := by
  induction ss generalizing before with
  | nil =>
    refine (fuse_told before []).congr ⟨?_, ?_⟩
    · rintro (⟨_, next, last, same, _⟩ | ⟨front, sect, rest, same, _⟩)
      · simp at same
      · simp at same
    · rintro ⟨_, l, rest, same, _⟩
      simp at same
  | cons sect ss ih =>
    have here := plain sect List.mem_cons_self
    have rest : ∀ s ∈ ss, PlainSection s := fun s member => plain s (List.mem_cons_of_mem _ member)
    have inner : ∀ s ∈ ss.tail, s.name ≠ [] := fun s member => named s (List.mem_of_mem_tail member)
    have besides : beside sect.rightComment ≠ [] ↔ sect.rightComment ≠ [] := by
      rw [beside]
      split <;> simp [*]
    have head : Told (before ≠ [] ∧ sect.comment = []) (fuse before (headLines sect)) (headLines sect) :=
      (fuse_told before (headLines sect)).congr <| and_congr_right fun some_ =>
        (headLines_first here (start some_ sect List.mem_cons_self)).symm
    have first : Spills before (sect :: ss) ↔ (before ≠ [] ∧ sect.comment = []) ∨ Loses (sect :: ss) := by
      refine or_congr_left (and_congr_right fun _ => ⟨?_, fun none => ⟨sect, ss, rfl, none⟩⟩)
      rintro ⟨next, last, same, none⟩
      obtain ⟨rfl, rfl⟩ : sect = next ∧ ss = last := by simpa using same
      exact none
    rw [layout, List.flatMap_cons, allLines]
    by_cases none : sect.items = []
    · have tail := @ih (beside sect.rightComment) rest (fun _ => named) inner
      rw [if_pos none, none, List.flatMap_nil, List.append_nil]
      refine (head.append tail).congr (first.trans (or_congr_right (loses_cons.trans ?_)))
      rw [if_pos none]
      refine or_iff_right fun both => ?_
      obtain ⟨_, item, items, same, _⟩ := both
      simp [none] at same
    · have tail := @ih [] rest (fun some_ => absurd rfl some_) inner
      have middle : Told (sect.rightComment ≠ [] ∧ ∃ item items, sect.items = item :: items ∧ item.comment = [])
          (fuse (beside sect.rightComment) (sect.items.flatMap itemLines)) (sect.items.flatMap itemLines) :=
        (fuse_told _ _).congr (and_congr besides.symm (itemLines_first here.items).symm)
      rw [if_neg none, List.append_assoc]
      refine (head.append (middle.append tail)).congr (first.trans (or_congr_right (loses_cons.trans ?_)))
      rw [if_neg none]

theorem opens_filter (ls : List Line) : (ls.filter Line.tells).filterMap Line.opens = ls.filterMap Line.opens := by
  induction ls with
  | nil => rfl
  | cons l ls ih =>
    cases l with
    | note t => exact ih
    | header name right => exact congrArg (name :: ·) ih
    | pair key value right => exact ih

theorem opens_notes (ts : List Text) : (ts.map Line.note).filterMap Line.opens = [] := by
  induction ts with
  | nil => rfl
  | cons t ts ih => exact ih

theorem opens_allLines (sect : IniSection) :
    (allLines sect).filterMap Line.opens = if sect.name = [] then [] else [sect.name] := by
  have items (items : List IniItem) : (items.flatMap itemLines).filterMap Line.opens = [] := by
    induction items with
    | nil => rfl
    | cons item items ih =>
      rw [List.flatMap_cons, List.filterMap_append, ih, itemLines, List.filterMap_append, opens_notes]
      rfl
  rw [allLines, headLines, List.filterMap_append, List.filterMap_append, items, opens_notes]
  split <;> rfl

theorem layout_unadorned (alone : ∀ sect ∈ ss, sect.rightComment = []) :
    layout [] ss = ss.flatMap allLines := by
  have plain (ls : List Line) : fuse [] ls = ls := by
    cases ls <;> simp [fuse]
  induction ss with
  | nil => rfl
  | cons sect ss ih =>
    have here : beside sect.rightComment = [] := by
      rw [beside, if_pos (alone sect List.mem_cons_self)]
    rw [layout, here, plain, plain, ih fun s member => alone s (List.mem_cons_of_mem _ member),
      List.flatMap_cons, allLines]
    by_cases none : sect.items = []
    · simp [none]
    · rw [if_neg none, List.append_assoc]

end Spilling

section Reloading
variable {p : ConfigParser}

/-- A file that has been written loads. All comes back if no section has a comment beside it; names,
keys and values come back if no such comment takes a line with it, and only then. -/
theorem PlainSections.reload (hash : p.commentDelimiter = ['#']) (plain : PlainSections p.sections)
    (path : Text) :
    ∃ q, ConfigParser.new.load path (some p.saveAs) = (q, RET_OK) ∧ PlainSections q.sections ∧
      (q.sections = p.sections ↔ ∀ sect ∈ p.sections, sect.rightComment = []) ∧
      (contents q.sections = contents p.sections ↔ ¬Loses p.sections) := by
  obtain ⟨first, rest, whole, nameless, _⟩ := plain.nameless
  have distinct := plain.distinct
  rw [whole, List.map_cons, List.nodup_cons, nameless] at distinct
  have named : ∀ sect ∈ p.sections.tail, sect.name ≠ [] := by
    intro sect member none
    rw [whole] at member
    exact distinct.1 (List.mem_map.mpr ⟨sect, member, none⟩)
  have legible := legible_layout plain.plain
  have told := @layout_told p.sections [] plain.plain (fun some_ => absurd rfl some_) named
  have spills : Spills [] p.sections ↔ Loses p.sections :=
    or_iff_right fun both => both.1 rfl
  -- Each line is taken in, since the names of the sections differ.
  have names : (p.sections.flatMap allLines).filterMap Line.opens = rest.map (·.name) := by
    have each (ss : List IniSection) (named : ∀ sect ∈ ss, sect.name ≠ []) :
        (ss.flatMap allLines).filterMap Line.opens = ss.map (·.name) := by
      induction ss with
      | nil => rfl
      | cons sect ss ih =>
        rw [List.flatMap_cons, List.filterMap_append, opens_allLines, if_neg (named sect List.mem_cons_self),
          ih fun s member => named s (List.mem_cons_of_mem _ member)]
        rfl
    rw [whole] at named ⊢
    rw [List.flatMap_cons, List.filterMap_append, opens_allLines, if_pos nameless, each rest named,
      List.nil_append]
  have opened : ([] :: (layout [] p.sections).filterMap Line.opens).Nodup := by
    have fewer : ((layout [] p.sections).filterMap Line.opens).Sublist (rest.map (·.name)) := by
      rw [← names, ← opens_filter, ← opens_filter (p.sections.flatMap allLines)]
      exact told.part.filterMap _
    exact List.nodup_cons.mpr ⟨fun member => distinct.1 (fewer.subset member), distinct.2.sublist fewer⟩
  obtain ⟨d, taken⟩ : ∃ d, Draft.start.absorbAll (layout [] p.sections) = some d := absorbAll_opens opened
  have text : Lines.lines '\n' p.saveAs = (layout [] p.sections).map Line.render := by
    have lines := @lines_layout p.sections [] (fun some_ => absurd rfl some_) named
      fun l member => (legible l member).1.oneLine
    rwa [List.nil_append, ← plain.saveAs hash] at lines
  have loaded : ConfigParser.new.load path (some p.saveAs) =
      ({ ConfigParser.new with sections := d.sections, configParserPath := path }, RET_OK) := by
    rw [load]
    dsimp only
    rw [text]
    exact loadLines_render (p := { ConfigParser.new with
      sections := Draft.start.sections, configParserPath := path }) rfl legible taken
  have started : PlainSections Draft.start.sections := by
    refine ⟨⟨_, [], rfl, rfl, rfl⟩, by simp [Draft.start], fun sect member => ?_⟩
    obtain rfl := List.mem_singleton.mp member
    exact ⟨⟨.nil, List.not_mem_nil, List.not_mem_nil, .nil⟩, .nil, fun item member => absurd member List.not_mem_nil⟩
  have all := plain.absorbAll
  refine ⟨_, loaded, Draft.absorbAll_plain started .nil (fun l member => (legible l member).1) taken, ⟨?_, ?_⟩, ?_⟩
  · intro same sect member
    have there : sect ∈ d.sections := by
      rwa [show d.sections = p.sections from same]
    refine absorbAll_unadorned (d := Draft.start) ?_ ?_ taken sect there
    · intro sect member
      obtain rfl := List.mem_singleton.mp member
      rfl
    · have bare : ∀ l ∈ layout [] p.sections, ∀ name right, l = .header name right → right = [] := by
        refine layout_all ?_ ?_ (fun some_ => absurd rfl some_) ?_ ?_
        · exact fun _ _ _ name right same => Line.noConfusion same
        · exact fun _ _ _ _ _ name right same => Line.noConfusion same
        · intro sect _ l member name right same
          rcases List.mem_append.mp member with above | head
          · obtain ⟨t, _, rfl⟩ := List.mem_map.mp above
            exact Line.noConfusion same
          · split at head
            · simp at head
            · obtain rfl := List.mem_singleton.mp head
              exact (Line.header.inj same).2.symm
        · intro sect _ item _ l member name right same
          rcases List.mem_append.mp member with above | pair
          · obtain ⟨t, _, rfl⟩ := List.mem_map.mp above
            exact Line.noConfusion same
          · obtain rfl := List.mem_singleton.mp pair
            exact Line.noConfusion same
      exact fun name right member => bare _ member name right rfl
  · intro alone
    rw [layout_unadorned alone, all] at taken
    obtain rfl := Option.some.inj taken
    refine (List.map_congr_left fun sect member => ?_).trans (List.map_id _)
    rw [unadorned, ← alone sect member]
    rfl
  · have whole' := absorbAll_contents all
    have part := absorbAll_contents taken
    have kept : contents (p.sections.map unadorned) = contents p.sections := by
      rw [contents, List.map_map]
      rfl
    have start : contents Draft.start.sections ≠ [] := by simp [contents, Draft.start]
    dsimp only at whole'
    rw [kept] at whole'
    dsimp only
    rw [part, whole']
    constructor
    · intro same loses
      have heavy := congrArg weight same
      rw [weight_foldl start fun l member => (List.mem_filter.mp member).2,
        weight_foldl start fun l member => (List.mem_filter.mp member).2] at heavy
      have less := told.less (spills.mpr loses)
      omega
    · intro none
      rw [told.all fun lost => none (spills.mp lost)]

end Reloading

end BlockFs.ConfigParser
