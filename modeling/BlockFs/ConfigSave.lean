import BlockFs.ConfigText

namespace BlockFs.ConfigParser

/-- The lines `SaveAs` writes for an item. -/
def itemLines (item : IniItem) : List Line :=
  (Lines.lines '\n' item.comment).map .note ++ [.pair item.key item.value item.rightComment]

/-- The lines it writes for a section in front of the items. The comment beside the section is not on
the line of its name. -/
def headLines (sect : IniSection) : List Line :=
  (Lines.lines '\n' sect.comment).map .note ++ if sect.name = [] then [] else [.header sect.name []]

/-- The text of lines. -/
def text (ls : List Line) : Text := Lines.unlines '\n' (ls.map Line.render)

/-- Lines that follow a text on its line: with the first of them it makes up a comment. -/
def fuse (before : Text) : List Line → List Line
  | [] => if before = [] then [] else [.note before]
  | l :: ls => if before = [] then l :: ls else .note (before ++ l.render) :: ls

/-- The lines of sections that are written behind the text `before`. -/
def layout (before : Text) : List IniSection → List Line
  | [] => fuse before []
  | sect :: ss =>
    fuse before (headLines sect) ++
      if sect.items = [] then layout (beside sect.rightComment) ss
      else fuse (beside sect.rightComment) (sect.items.flatMap itemLines) ++ layout [] ss

section Writing
variable {p : ConfigParser} {data t : Text}

theorem text_append (ls ls' : List Line) : text (ls ++ ls') = text ls ++ text ls' := by
  rw [text, List.map_append, Lines.unlines_append]
  rfl

theorem endLine_append (some_ : t ≠ []) (oneLine : '\n' ∉ t) : endLine (data ++ t) = data ++ t ++ ['\n'] := by
  rcases List.eq_nil_or_concat' t with rfl | ⟨t, c, rfl⟩
  · exact absurd rfl some_
  · have other : c ≠ '\n' := by
      rintro rfl
      simp at oneLine
    rw [endLine, ← List.append_assoc, List.getLast?_concat, if_neg (by simpa using other)]

/-- A comment above something is written as its lines. -/
theorem Notes.lines {comment : Text} (notes : Notes comment) :
    Lines.unlines '\n' (Lines.lines '\n' comment) = comment ∧
      ∀ l ∈ Lines.lines '\n' comment, Clean l ∧ (l = [] ∨ l.head? = some '#') := by
  obtain ⟨ls, all, rfl⟩ := notes
  have split := Lines.lines_unlines_append (fun l member => (all l member).1.oneLine) []
  rw [List.append_nil, Lines.lines, List.append_nil] at split
  rw [split]
  exact ⟨rfl, all⟩

theorem Notes.text {comment : Text} (notes : Notes comment) :
    ConfigParser.text ((Lines.lines '\n' comment).map .note) = comment := by
  have same : Line.render ∘ Line.note = id := rfl
  rw [ConfigParser.text, List.map_map, same, List.map_id, notes.lines.1]

theorem Notes.endLine {comment : Text} (notes : Notes comment) :
    (if comment ≠ [] then ConfigParser.endLine (data ++ comment) else data) = data ++ comment := by
  obtain ⟨ls, all, rfl⟩ := notes
  rcases List.eq_nil_or_concat' ls with rfl | ⟨ls, l, rfl⟩
  · simp
  · rw [if_pos (by simp [Lines.unlines_append]), ConfigParser.endLine, Lines.unlines_append, Lines.unlines_cons,
      Lines.unlines_nil, ← List.append_assoc, ← List.append_assoc, List.getLast?_concat, if_pos rfl]

theorem PlainItem.saveItem {item : IniItem} (hash : p.commentDelimiter = ['#']) (plain : PlainItem item) :
    p.saveItem data item = data ++ text (itemLines item) := by
  obtain ⟨⟨cleanKey, _⟩, ⟨cleanValue, _⟩, right⟩ := plain.line
  have oneLine : '\n' ∉ (Line.pair item.key item.value item.rightComment).render := by
    rw [Line.render, beside]
    split <;> simp [cleanKey.oneLine, cleanValue.oneLine, right.oneLine]
  have whole (data : Text) : (if item.rightComment ≠ [] then
      data ++ item.key ++ ['='] ++ item.value ++ [' '] ++ p.commentDelimiter ++ item.rightComment
      else data ++ item.key ++ ['='] ++ item.value) =
        data ++ (Line.pair item.key item.value item.rightComment).render := by
    by_cases none : item.rightComment = []
    · simp [none, Line.render, beside]
    · simp [none, Line.render, beside, hash]
  rw [ConfigParser.saveItem, plain.comment.endLine, whole, endLine_append (by simp [Line.render]) oneLine,
    itemLines, text_append, plain.comment.text]
  simp [text]

theorem saveItems (hash : p.commentDelimiter = ['#']) {items : List IniItem}
    (plain : ∀ item ∈ items, PlainItem item) (data : Text) :
    items.foldl p.saveItem data = data ++ text (items.flatMap itemLines) := by
  induction items generalizing data with
  | nil => simp [text]
  | cons item items ih =>
    rw [List.foldl_cons, (plain item List.mem_cons_self).saveItem hash,
      ih fun item member => plain item (List.mem_cons_of_mem _ member), List.flatMap_cons, text_append,
      List.append_assoc]

/-- What `SaveAs` writes for a section. -/
def sectionText (sect : IniSection) : Text :=
  text (headLines sect) ++ beside sect.rightComment ++ text (sect.items.flatMap itemLines)

theorem PlainSection.saveSection {sect : IniSection} (hash : p.commentDelimiter = ['#'])
    (plain : PlainSection sect) (data : Text) : p.saveSection data sect = data ++ sectionText sect := by
  rw [ConfigParser.saveSection, saveItems hash plain.items, sectionText, headLines, text_append,
    plain.comment.text]
  by_cases nameless : sect.name = [] <;> by_cases alone : sect.rightComment = [] <;>
    by_cases bare : sect.comment = [] <;>
      simp [nameless, alone, bare, beside, hash, text, Line.render]

theorem PlainSections.saveAs (hash : p.commentDelimiter = ['#']) (plain : PlainSections p.sections) :
    p.saveAs = p.sections.flatMap sectionText := by
  have written (ss : List IniSection) (all : ∀ sect ∈ ss, PlainSection sect) (data : Text) :
      ss.foldl p.saveSection data = data ++ ss.flatMap sectionText := by
    induction ss generalizing data with
    | nil => simp
    | cons sect ss ih =>
      rw [List.foldl_cons, (all sect List.mem_cons_self).saveSection hash,
        ih fun sect member => all sect (List.mem_cons_of_mem _ member), List.flatMap_cons,
        List.append_assoc]
  rw [ConfigParser.saveAs, written p.sections plain.plain, List.nil_append]

theorem text_fuse {before : Text} {ls : List Line} (some_ : before ≠ [] → ls ≠ []) :
    before ++ text ls = text (fuse before ls) := by
  by_cases none : before = []
  · subst none
    cases ls <;> simp [fuse]
  · cases ls with
    | nil => exact absurd rfl (some_ none)
    | cons l ls => simp [fuse, none, text, Line.render]

/-- A line that `Load` can take in wherever it stands, as long as it opens no section twice. -/
def Legible (l : Line) : Prop := l.Plain ∧ ∀ right, l ≠ .header [] right

theorem fuse_all {holds : Line → Prop} {before : Text} {ls : List Line}
    (alone : before ≠ [] → holds (.note before))
    (merged : ∀ l, before ≠ [] → holds l → holds (.note (before ++ l.render)))
    (all : ∀ l ∈ ls, holds l) : ∀ l ∈ fuse before ls, holds l := by
  intro l member
  cases ls with
  | nil =>
    rw [fuse] at member
    split at member
    · simp at member
    · next some_ =>
      obtain rfl := List.mem_singleton.mp member
      exact alone some_
  | cons first rest =>
    rw [fuse] at member
    split at member
    · exact all l member
    · next some_ =>
      rcases List.mem_cons.mp member with rfl | later
      · exact merged first some_ (all first List.mem_cons_self)
      · exact all l (List.mem_cons_of_mem _ later)

/-- What holds of the lines of all sections and of what comments beside sections make of them, holds of
the lines that are written. -/
theorem layout_all {holds : Line → Prop} {ss : List IniSection} {before : Text}
    (alone : ∀ before, (∃ sect ∈ ss, before = beside sect.rightComment) → before ≠ [] → holds (.note before))
    (merged : ∀ before l, (∃ sect ∈ ss, before = beside sect.rightComment) → before ≠ [] → holds l →
      holds (.note (before ++ l.render)))
    (first : before ≠ [] → holds (.note before) ∧ ∀ l, holds l → holds (.note (before ++ l.render)))
    (heads : ∀ sect ∈ ss, ∀ l ∈ headLines sect, holds l)
    (items : ∀ sect ∈ ss, ∀ item ∈ sect.items, ∀ l ∈ itemLines item, holds l) :
    ∀ l ∈ layout before ss, holds l := by
  induction ss generalizing before with
  | nil =>
    exact fuse_all (fun some_ => (first some_).1) (fun l some_ => (first some_).2 l)
      fun l member => absurd member List.not_mem_nil
  | cons sect ss ih =>
    have here : ∃ s ∈ sect :: ss, beside sect.rightComment = beside s.rightComment :=
      ⟨sect, List.mem_cons_self, rfl⟩
    have rest {before' : Text} (first' : before' ≠ [] →
        holds (.note before') ∧ ∀ l, holds l → holds (.note (before' ++ l.render))) :
        ∀ l ∈ layout before' ss, holds l := by
      refine ih ?_ ?_ first' (fun s member => heads s (List.mem_cons_of_mem _ member))
        fun s member => items s (List.mem_cons_of_mem _ member)
      · rintro before'' ⟨s, member, same⟩
        exact alone before'' ⟨s, List.mem_cons_of_mem _ member, same⟩
      · rintro before'' l ⟨s, member, same⟩
        exact merged before'' l ⟨s, List.mem_cons_of_mem _ member, same⟩
    intro l member
    rw [layout] at member
    rcases List.mem_append.mp member with head | tail
    · exact fuse_all (fun some_ => (first some_).1) (fun l some_ => (first some_).2 l)
        (heads sect List.mem_cons_self) l head
    · split at tail
      · exact rest (fun some_ => ⟨alone _ here some_, fun l => merged _ l here some_⟩) l tail
      · rcases List.mem_append.mp tail with middle | tail
        · refine fuse_all (alone _ here) (fun l => merged _ l here) (fun l member => ?_) l middle
          obtain ⟨item, there, member⟩ := List.mem_flatMap.mp member
          exact items sect List.mem_cons_self item there l member
        · exact rest (fun some_ => absurd rfl some_) l tail

theorem Line.Plain.oneLine {l : Line} (plain : l.Plain) : '\n' ∉ l.render := by
  have besides {right : Text} (clean : Clean right) : '\n' ∉ beside right := by
    rw [beside]
    split <;> simp [clean.oneLine]
  cases l with
  | note t => exact plain.1
  | header name right => simpa [render] using ⟨plain.1.oneLine, besides plain.2.2.2⟩
  | pair key value right =>
    obtain ⟨⟨cleanKey, _⟩, ⟨cleanValue, _⟩, clean⟩ := plain
    simpa [render] using ⟨cleanKey.oneLine, cleanValue.oneLine, besides clean⟩

/-- A text behind the delimiter is a comment. -/
theorem legible_beside {right : Text} (some_ : beside right ≠ []) (clean : Clean right)
    (oneLine : '\n' ∉ t) : Legible (.note (beside right ++ t)) := by
  have full : right ≠ [] := fun none => some_ (by rw [beside, if_pos none])
  have blank : isspace ' ' = true := rfl
  rw [beside, if_neg full]
  refine ⟨⟨by simp [clean.oneLine, oneLine], .inr ?_⟩, fun right same => Line.noConfusion same⟩
  rw [List.cons_append, trim, Lines.strip_cons _ blank, Lines.head?_strip]
  · rfl
  · intro c first
    obtain rfl := Option.some.inj first
    rfl

theorem Notes.legible {comment : Text} (notes : Notes comment) {l : Line}
    (member : l ∈ (Lines.lines '\n' comment).map Line.note) : Legible l := by
  obtain ⟨t, there, rfl⟩ := List.mem_map.mp member
  obtain ⟨clean, start⟩ := notes.lines.2 t there
  exact ⟨⟨clean.oneLine, by rwa [clean.trim]⟩, fun right same => Line.noConfusion same⟩

theorem PlainSection.legible_head {sect : IniSection} (plain : PlainSection sect) {l : Line}
    (member : l ∈ headLines sect) : Legible l := by
  rcases List.mem_append.mp member with above | name
  · exact plain.comment.legible above
  · split at name
    · simp at name
    · next named =>
      obtain rfl := List.mem_singleton.mp name
      obtain ⟨clean, unhashed, unclosed, _⟩ := plain.line
      exact ⟨⟨clean, unhashed, unclosed, .nil⟩, fun right same => named (Line.header.inj same).1⟩

theorem PlainItem.legible {item : IniItem} (plain : PlainItem item) {l : Line}
    (member : l ∈ itemLines item) : Legible l := by
  rcases List.mem_append.mp member with above | pair
  · exact plain.comment.legible above
  · obtain rfl := List.mem_singleton.mp pair
    exact ⟨plain.line, fun right same => Line.noConfusion same⟩

/-- Every line that is written can be taken in. -/
theorem legible_layout {ss : List IniSection} (plain : ∀ sect ∈ ss, PlainSection sect) :
    ∀ l ∈ layout [] ss, Legible l := by
  refine layout_all ?_ ?_ (fun some_ => absurd rfl some_) (fun sect member l => (plain sect member).legible_head)
    fun sect member item there l => ((plain sect member).items item there).legible
  · rintro _ ⟨sect, member, rfl⟩ some_
    have alone := legible_beside some_ (plain sect member).line.2.2.2 (t := []) List.not_mem_nil
    rwa [List.append_nil] at alone
  · rintro _ l ⟨sect, member, rfl⟩ some_ legible
    exact legible_beside some_ (plain sect member).line.2.2.2 legible.1.oneLine

/-- The lines of what is written. -/
theorem lines_layout {ss : List IniSection} {before : Text} (start : before ≠ [] → ∀ sect ∈ ss, sect.name ≠ [])
    (named : ∀ sect ∈ ss.tail, sect.name ≠ []) (oneLine : ∀ l ∈ layout before ss, '\n' ∉ l.render) :
    Lines.lines '\n' (before ++ ss.flatMap sectionText) = (layout before ss).map Line.render := by
  induction ss generalizing before with
  | nil =>
    by_cases none : before = []
    · simp [none, layout, fuse, Lines.lines]
    · have whole : '\n' ∉ before := oneLine (.note before) (by simp [layout, fuse, none])
      rw [List.flatMap_nil, List.append_nil, Lines.lines_last whole none]
      simp [layout, fuse, none, Line.render]
  | cons sect ss ih =>
    have inner : ∀ s ∈ ss.tail, s.name ≠ [] := fun s member => named s (List.mem_of_mem_tail member)
    have split {ls : List Line} (part : ∀ l ∈ ls, '\n' ∉ l.render) (u : Text) :
        Lines.lines '\n' (text ls ++ u) = ls.map Line.render ++ Lines.lines '\n' u := by
      refine Lines.lines_unlines_append (fun l member => ?_) u
      obtain ⟨m, there, rfl⟩ := List.mem_map.mp member
      exact part m there
    have headed : before ≠ [] → headLines sect ≠ [] := by
      intro some_ none
      have name := start some_ sect List.mem_cons_self
      simp [headLines, name] at none
    rw [layout] at oneLine ⊢
    rw [List.flatMap_cons, sectionText, ← List.append_assoc, ← List.append_assoc, ← List.append_assoc,
      text_fuse headed, List.append_assoc, List.append_assoc,
      split fun l member => oneLine l (List.mem_append_left _ member), List.map_append]
    congr 1
    have rest := fun l member => oneLine l (List.mem_append_right _ member)
    by_cases none : sect.items = []
    · rw [if_pos none] at rest ⊢
      rw [none]
      exact ih (fun _ s member => named s member) inner rest
    · rw [if_neg none] at rest ⊢
      have some_ : sect.items.flatMap itemLines ≠ [] := by
        obtain ⟨item, items, same⟩ := List.exists_cons_of_ne_nil none
        simp [same, itemLines]
      rw [← List.append_assoc, text_fuse fun _ => some_,
        split fun l member => rest l (List.mem_append_left _ member), List.map_append]
      congr 1
      exact ih (fun absurd_ => absurd rfl absurd_) inner fun l member => rest l (List.mem_append_right _ member)

end Writing

end BlockFs.ConfigParser
