import BlockFs.ConfigStore

namespace BlockFs.ConfigParser

section Accepting
variable {p : ConfigParser} {d d' : Draft} {ls : List Line}

/-- The sections after a line has been taken in. -/
theorem absorb_names {l : Line} (taken : d.absorb l = some d') :
    d'.sections.map (·.name) = d.sections.map (·.name) ++ l.opens.toList := by
  cases l with
  | note t =>
    obtain rfl := Option.some.inj taken
    simp [Line.opens]
  | pair key value right =>
    obtain rfl := Option.some.inj taken
    rw [map_modify_items (·.name) fun _ _ => rfl]
    simp [Line.opens]
  | header name right =>
    rw [Draft.absorb] at taken
    split at taken
    · simp at taken
    · obtain rfl := Option.some.inj taken
      simp [Line.opens]

theorem absorbAll_names (taken : d.absorbAll ls = some d') :
    d'.sections.map (·.name) = d.sections.map (·.name) ++ ls.filterMap Line.opens := by
  induction ls generalizing d with
  | nil =>
    obtain rfl := Option.some.inj taken
    simp
  | cons l ls ih =>
    obtain ⟨u, first, rest⟩ := Option.bind_eq_some_iff.mp taken
    rw [ih rest, absorb_names first, List.append_assoc]
    cases l <;> rfl

/-- A line is not taken in exactly if it opens a section that is there. -/
theorem absorb_eq_none {l : Line} :
    d.absorb l = none ↔ ∃ name, l.opens = some name ∧ name ∈ d.sections.map (·.name) := by
  cases l with
  | note t => simp [Draft.absorb, Line.opens]
  | pair key value right => simp [Draft.absorb, Line.opens]
  | header name right => simp [Draft.absorb, Line.opens]

/-- The loop of `Load` takes lines in up to the first that it cannot read or that opens a section a
second time. -/
theorem loadLines_stops (hash : p.commentDelimiter = ['#']) (comment : Text) (lines : List Text) :
    ∃ front rest ls d q err, loadLines p (p.sections.length - 1) comment lines = (q, err) ∧
      lines = front ++ rest ∧ front.map Line.read = ls.map .ok ∧
      Draft.absorbAll { sections := p.sections, comment := comment } ls = some d ∧
      q = { p with sections := d.sections } ∧
      (rest = [] ∧ err = RET_OK ∨ ∃ line after, rest = line :: after ∧
        (Line.read line = .error err ∨
          ∃ l, Line.read line = .ok l ∧ d.absorb l = none ∧ err = ERR_SECTION_ALREADY_EXISTS)) := by
  induction lines generalizing p comment with
  | nil => exact ⟨[], [], [], _, _, _, rfl, rfl, rfl, rfl, rfl, .inl ⟨rfl, rfl⟩⟩
  | cons line lines ih =>
    rw [loadLines_cons hash]
    cases result : Line.read line with
    | error err =>
      exact ⟨[], line :: lines, [], _, p, err, rfl, rfl, rfl, rfl, rfl, .inr ⟨line, lines, rfl, .inl result⟩⟩
    | ok l =>
      dsimp only
      cases taken : Draft.absorb { sections := p.sections, comment := comment } l with
      | none =>
        exact ⟨[], line :: lines, [], _, p, _, rfl, rfl, rfl, rfl, rfl,
          .inr ⟨line, lines, rfl, .inr ⟨l, result, taken, rfl⟩⟩⟩
      | some u =>
        obtain ⟨front, rest, ls, d, q, err, done, same, read, absorbed, sections, stop⟩ :=
          @ih { p with sections := u.sections } hash u.comment
        refine ⟨line :: front, rest, l :: ls, d, q, err, done, by rw [same, List.cons_append], ?_, ?_, sections, stop⟩
        · rw [List.map_cons, List.map_cons, result, read]
        · rw [Draft.absorbAll_cons, taken]
          exact absorbed

/-- `Load` opens the nameless section and goes through the lines. -/
theorem load_start (path text : Text) :
    ConfigParser.new.load path (some text) =
      loadLines { ConfigParser.new with sections := Draft.start.sections, configParserPath := path }
        (Draft.start.sections.length - 1) Draft.start.comment (Lines.lines '\n' text) := rfl

theorem started : PlainSections Draft.start.sections := by
  refine ⟨⟨_, [], rfl, rfl, rfl⟩, by simp [Draft.start], fun sect member => ?_⟩
  obtain rfl := List.mem_singleton.mp member
  exact ⟨⟨.nil, List.not_mem_nil, List.not_mem_nil, .nil⟩, .nil, fun item member => absurd member List.not_mem_nil⟩

/-- What a file that is loaded leaves. -/
theorem Loaded.plain (loaded : Loaded p) : p.commentDelimiter = ['#'] ∧ PlainSections p.sections := by
  obtain ⟨path, text, done⟩ := loaded
  rw [load_start] at done
  obtain ⟨ls, d, plain, taken, rfl⟩ := loadLines_taken rfl
    (fun line member => Lines.not_mem_of_mem_lines member) done
  exact ⟨rfl, Draft.absorbAll_plain started .nil plain taken⟩

/-- A file is accepted exactly if each of its lines is a comment, a section or an item, and no section
is opened twice; a file that is refused is refused at its first line that is none of these or opens a
section a second time, with the code of that line, and what the lines in front of it say stays. -/
theorem load_accepts (path text : Text) :
    ∃ q err, ConfigParser.new.load path (some text) = (q, err) ∧
      (err = RET_OK ↔ ∃ ls : List Line, (Lines.lines '\n' text).map Line.read = ls.map .ok ∧
        ([] :: ls.filterMap Line.opens).Nodup) ∧
      (err ≠ RET_OK → ∃ front line after ls d, Lines.lines '\n' text = front ++ line :: after ∧
        front.map Line.read = ls.map .ok ∧ Draft.start.absorbAll ls = some d ∧ q.sections = d.sections ∧
        (Line.read line = .error err ∨ ∃ l name, Line.read line = .ok l ∧ l.opens = some name ∧
          name ∈ [] :: ls.filterMap Line.opens ∧ err = ERR_SECTION_ALREADY_EXISTS)) := by
  obtain ⟨front, rest, ls, d, q, err, done, same, read, taken, sections, stop⟩ :=
    loadLines_stops (p := { ConfigParser.new with sections := Draft.start.sections, configParserPath := path })
      rfl Draft.start.comment (Lines.lines '\n' text)
  have names : d.sections.map (·.name) = [] :: ls.filterMap Line.opens := absorbAll_names taken
  refine ⟨q, err, done, ⟨?_, ?_⟩, ?_⟩
  · rintro rfl
    rcases stop with ⟨rfl, _⟩ | ⟨line, after, _, bad | ⟨l, _, _, code⟩⟩
    · have plain : ∀ l ∈ ls, l.Plain := by
        intro l member
        have there : Except.ok l ∈ front.map Line.read := read ▸ List.mem_map_of_mem member
        obtain ⟨line, there, result⟩ := List.mem_map.mp there
        have oneLine : line ∈ Lines.lines '\n' text := by rwa [same, List.append_nil]
        exact Line.read_plain (Lines.not_mem_of_mem_lines oneLine) result
      refine ⟨ls, by rw [same, List.append_nil, read], ?_⟩
      rw [← names]
      exact (Draft.absorbAll_plain started .nil plain taken).distinct
    · exact absurd rfl (Line.read_error bad)
    · exact absurd code (by decide)
  · rintro ⟨all, each, opened⟩
    rcases stop with ⟨_, ok⟩ | ⟨line, after, rfl, stopped⟩
    · exact ok
    exfalso
    -- The line that stops the loop could be read and taken in.
    rw [same, List.map_append, read, List.map_cons] at each
    obtain ⟨ls', others, rfl, first, last⟩ := List.append_eq_map_iff.mp each
    have inj : Function.Injective (Except.ok : Line → Except Nat Line) := fun _ _ equal => Except.ok.inj equal
    obtain rfl : ls' = ls := List.map_injective_iff.mpr inj first
    obtain ⟨l, others, rfl, result, _⟩ := List.map_eq_cons_iff.mp last
    rcases stopped with bad | ⟨l', result', refused, _⟩
    · rw [← result] at bad
      simp at bad
    · obtain rfl : l = l' := Except.ok.inj (result.trans result')
      obtain ⟨name, opens, there⟩ := absorb_eq_none.mp refused
      rw [names] at there
      rw [List.filterMap_append, List.filterMap_cons, opens, ← List.cons_append] at opened
      exact (List.nodup_append.mp opened).2.2 name there name List.mem_cons_self rfl
  · intro failed
    rcases stop with ⟨_, ok⟩ | ⟨line, after, rfl, stopped⟩
    · exact absurd ok failed
    refine ⟨front, line, after, ls, d, same, read, taken, by rw [sections], ?_⟩
    rcases stopped with bad | ⟨l, result, refused, code⟩
    · exact .inl bad
    · obtain ⟨name, opens, there⟩ := absorb_eq_none.mp refused
      rw [names] at there
      exact .inr ⟨l, name, result, opens, there, code⟩

end Accepting

section Editing
variable {p : ConfigParser} {ss : List IniSection} {section_ key value : Text}

theorem plain_digits {digits : Text} (decimal : ∀ c ∈ digits, c.isDigit = true) : Clean digits ∧ '#' ∉ digits := by
  have solid {c : Char} (member : c ∈ digits) : isspace c = false ∧ c ≠ '#' ∧ c ≠ '\n' := by
    have digit := decimal c member
    refine ⟨?_, ?_, ?_⟩
    · rw [Bool.eq_false_iff]
      intro space
      simp only [isspace, Bool.or_eq_true, beq_iff_eq] at space
      rcases space with ((((rfl | rfl) | rfl) | rfl) | rfl) | rfl <;> simp at digit
    · rintro rfl
      simp at digit
    · rintro rfl
      simp at digit
  refine ⟨⟨⟨fun c head => ?_, fun c last => ?_⟩, fun member => (solid member).2.2 rfl⟩,
    fun member => (solid member).2.1 rfl⟩
  · exact (solid (List.mem_of_head? head)).1
  · exact (solid (List.mem_of_getLast? last)).1

/-- A number can stand in a file as it is printed. -/
theorem plain_showInt (value : Int) : Clean (showInt value) ∧ '#' ∉ showInt value := by
  have decimal : ∀ c ∈ Nat.toDigits 10 value.natAbs, c.isDigit = true := fun c member =>
    Nat.isDigit_of_mem_toDigits (by omega) (by omega) member
  obtain ⟨clean, unhashed⟩ := plain_digits decimal
  rw [showInt]
  split
  · obtain ⟨digits, c, last⟩ := (List.eq_nil_or_concat' (Nat.toDigits 10 value.natAbs)).resolve_left
      Nat.toDigits_ne_nil
    have tail := clean.stripped.2 c (by rw [last, List.getLast?_concat])
    refine ⟨⟨?_, by simpa using clean.oneLine⟩, by simpa using unhashed⟩
    rw [last]
    exact Lines.stripped_of_ends rfl tail digits
  · exact ⟨clean, unhashed⟩

theorem plain_bool (value : Bool) :
    Clean (if value then ['t', 'r', 'u', 'e'] else ['f', 'a', 'l', 's', 'e']) ∧
      '#' ∉ (if value then ['t', 'r', 'u', 'e'] else ['f', 'a', 'l', 's', 'e']) := by
  cases value with
  | true =>
    rw [if_pos rfl]
    exact ⟨⟨Lines.stripped_of_ends rfl rfl ['r', 'u'], by decide⟩, by decide⟩
  | false =>
    rw [if_neg Bool.false_ne_true]
    exact ⟨⟨Lines.stripped_of_ends rfl rfl ['a', 'l', 's'], by decide⟩, by decide⟩

/-- The sections stay plain when the first of a name is changed to a plain one of the name. -/
theorem PlainSections.modify {f : IniSection → IniSection} (plain : PlainSections ss)
    (named : ∀ sect, (f sect).name = sect.name) (noted : ∀ sect, (f sect).comment = sect.comment)
    (kept : ∀ sect, PlainSection sect → PlainSection (f sect)) (section_ : Text) :
    PlainSections (modifyFirst (·.name == section_) f ss) where
  nameless := by
    obtain ⟨first, rest, rfl, nameless, uncommented⟩ := plain.nameless
    rw [modifyFirst]
    split
    · exact ⟨f first, rest, rfl, by rw [named, nameless], by rw [noted, uncommented]⟩
    · exact ⟨first, _, rfl, nameless, uncommented⟩
  distinct := by
    rw [map_modifyFirst named]
    exact plain.distinct
  plain sect member := by
    rcases mem_modifyFirst member with old | ⟨s, there, _, rfl⟩
    · exact plain.plain sect old
    · exact kept s (plain.plain s there)

theorem PlainSection.setItem {sect : IniSection} (plain : PlainSection sect) (pair : (Line.pair key value []).Plain) :
    PlainSection (setItem key value [] sect) := by
  rw [ConfigParser.setItem]
  split
  · refine ⟨plain.line, plain.comment, fun item member => ?_⟩
    rcases mem_modifyFirst member with old | ⟨i, there, same, rfl⟩
    · exact plain.items item old
    · have line := (plain.items i there).line
      exact ⟨⟨line.1, pair.2.1, line.2.2⟩, .nil⟩
  · refine ⟨plain.line, plain.comment, fun item member => ?_⟩
    rcases List.mem_append.mp member with old | new
    · exact plain.items item old
    · obtain rfl := List.mem_singleton.mp new
      exact ⟨pair, .nil⟩

theorem PlainSections.setValue (plain : PlainSections p.sections) (header : (Line.header section_ []).Plain)
    (pair : (Line.pair key value []).Plain) : PlainSections (p.setValue section_ key value []).sections := by
  have named (sect : IniSection) : (ConfigParser.setItem key value [] sect).name = sect.name := by
    rw [ConfigParser.setItem]
    split <;> rfl
  have noted (sect : IniSection) : (ConfigParser.setItem key value [] sect).comment = sect.comment := by
    rw [ConfigParser.setItem]
    split <;> rfl
  refine PlainSections.modify ?_ named noted (fun sect old => old.setItem pair) section_
  cases found : p.getSection section_ with
  | some sect => exact plain
  | none =>
    obtain ⟨first, rest, same, nameless, uncommented⟩ := plain.nameless
    have missing : ∀ sect ∈ p.sections, sect.name ≠ section_ := by
      intro sect member equal
      exact List.find?_eq_none.mp found sect member (by simpa using equal)
    have some_ : section_ ≠ [] := by
      rintro rfl
      exact missing first (by rw [same]; exact List.mem_cons_self) nameless
    rw [Option.isSome_none, if_neg Bool.false_ne_true, if_neg some_]
    refine ⟨⟨first, rest ++ [_], by rw [same, List.cons_append], nameless, uncommented⟩, ?_, ?_⟩
    · rw [List.map_append, List.map_singleton]
      refine List.nodup_append.mpr ⟨plain.distinct, by simp, fun name member last here equal => ?_⟩
      obtain rfl := List.mem_singleton.mp here
      obtain ⟨sect, there, rfl⟩ := List.mem_map.mp member
      exact missing sect there equal
    · intro sect member
      rcases List.mem_append.mp member with old | new
      · exact plain.plain sect old
      · obtain rfl := List.mem_singleton.mp new
        exact ⟨header, .nil, fun item member => absurd member List.not_mem_nil⟩

/-- A call whose texts could stand in a file leaves sections that could come out of one. -/
theorem PlainSections.edit {e : Edit} (plain : PlainSections p.sections) (calm : e.Plain) :
    PlainSections (p.edit e).sections := by
  cases e with
  | setStringValue section_ key value => exact plain.setValue calm.1 calm.2
  | setIntValue section_ key value => exact plain.setValue calm.1 ⟨calm.2.1, plain_showInt value, .nil⟩
  | setBoolValue section_ key value => exact plain.setValue calm.1 ⟨calm.2.1, plain_bool value, .nil⟩
  | setRightComment section_ key rightComment =>
    rw [ConfigParser.edit, setRightComment]
    split
    · exact plain
    split
    · exact plain.modify (f := fun s => { s with rightComment := rightComment }) (fun _ => rfl) (fun _ => rfl)
        (fun sect old => ⟨⟨old.line.1, old.line.2.1, old.line.2.2.1, calm⟩, old.comment, old.items⟩) section_
    split
    · refine plain.modify (f := fun s => { s with items := modifyFirst (·.key == key) _ s.items })
        (fun _ => rfl) (fun _ => rfl) (fun sect old => ⟨old.line, old.comment, fun item member => ?_⟩) section_
      rcases mem_modifyFirst member with same | ⟨i, there, _, rfl⟩
      · exact old.items item same
      · have item := old.items i there
        exact ⟨⟨item.line.1, item.line.2.1, calm⟩, item.comment⟩
    · exact plain
  | deleteSection section_ =>
    obtain ⟨first, rest, same, nameless, uncommented⟩ := plain.nameless
    have other : ¬(first.name == section_) = true := by
      rw [nameless]
      simpa using Ne.symm calm
    refine ⟨⟨first, rest.eraseP (·.name == section_), ?_, nameless, uncommented⟩,
      plain.distinct.sublist (List.eraseP_sublist.map _),
      fun sect member => plain.plain sect (List.mem_of_mem_eraseP member)⟩
    rw [ConfigParser.edit, deleteSection]
    dsimp only
    rw [same, List.eraseP_cons_of_neg (p := fun s : IniSection => s.name == section_) other]
  | deleteKey section_ key =>
    exact plain.modify (f := fun s => { s with items := s.items.eraseP (·.key == key) }) (fun _ => rfl)
      (fun _ => rfl) (fun sect old =>
        ⟨old.line, old.comment, fun item member => old.items item (List.mem_of_mem_eraseP member)⟩) section_

theorem edits_plain {edits : List Edit} (plain : PlainSections p.sections) (calm : ∀ e ∈ edits, e.Plain) :
    PlainSections (edits.foldl ConfigParser.edit p).sections := by
  induction edits generalizing p with
  | nil => exact plain
  | cons e edits ih =>
    exact ih (plain.edit (calm e List.mem_cons_self)) fun e member => calm e (List.mem_cons_of_mem _ member)

theorem edit_delimiter (e : Edit) : (p.edit e).commentDelimiter = p.commentDelimiter := by
  cases e with
  | setRightComment section_ key rightComment =>
    rw [ConfigParser.edit, setRightComment]
    split
    · rfl
    split
    · rfl
    split <;> rfl
  | _ => rfl

theorem edits_delimiter (edits : List Edit) :
    (edits.foldl ConfigParser.edit p).commentDelimiter = p.commentDelimiter := by
  induction edits generalizing p with
  | nil => rfl
  | cons e edits ih => exact ih.trans (edit_delimiter e)

end Editing

/-- A configuration with a comment above an item and one beside another. -/
def sampleText : Text :=
  "[common]\nlog_level = DEBUG # verbose\n[bfs]\n# the device\ndevice_uuid = a1\n[fuse]\n".toList

def sample : ConfigParser := (ConfigParser.new.load "bfs.cnf".toList (some sampleText)).1

theorem sample_loaded : Loaded sample := ⟨"bfs.cnf".toList, sampleText, Prod.ext rfl (by decide +kernel)⟩

theorem not_loses_of_bare {ss : List IniSection} (bare : ∀ sect ∈ ss, sect.rightComment = []) : ¬Loses ss := by
  rintro ⟨front, sect, rest, rfl, some_, _⟩
  exact some_ (bare sect (List.mem_append_right _ List.mem_cons_self))

section Storing
variable {p : ConfigParser} {edits : List Edit} {section_ key : Text}

/-- A number is read as it was printed. -/
theorem atoi_showInt (value : Int) : atoi (showInt value) = value := by
  have decimal : ∀ c ∈ Nat.toDigits 10 value.natAbs, c.isDigit = true := fun c member =>
    Nat.isDigit_of_mem_toDigits (by omega) (by omega) member
  have whole : (Nat.toDigits 10 value.natAbs).takeWhile Char.isDigit = Nat.toDigits 10 value.natAbs :=
    List.takeWhile_eq_self_iff.mpr decimal
  have unblank {t : Text} {c : Char} (solid : isspace c = false) : (c :: t).dropWhile isspace = c :: t := by
    rw [List.dropWhile_cons, if_neg (by simp [solid])]
  rw [showInt]
  split
  · next negative =>
    rw [atoi, unblank rfl]
    show -(Nat.ofDigitChars 10 ((Nat.toDigits 10 value.natAbs).takeWhile Char.isDigit) 0 : Int) = value
    rw [whole, Nat.ofDigitChars_ten_toDigits]
    omega
  · next positive =>
    obtain ⟨c, digits, same⟩ := List.exists_cons_of_ne_nil (Nat.toDigits_ne_nil (n := value.natAbs) (b := 10))
    have digit := decimal c (by rw [same]; exact List.mem_cons_self)
    have solid : isspace c = false := by
      have clean := (plain_digits decimal).1.stripped.1
      exact clean c (by rw [same]; rfl)
    rw [same] at whole
    rw [atoi, same, unblank solid]
    split
    · next equal =>
      obtain ⟨rfl, rfl⟩ := List.cons.inj equal
      simp at digit
    · next equal =>
      obtain ⟨rfl, rfl⟩ := List.cons.inj equal
      simp at digit
    · rw [whole, ← same, Nat.ofDigitChars_ten_toDigits]
      omega

/-- A parser that has loaded a file answers, after any calls with whatever texts, as the store that the
same calls have been made on. -/
theorem Loaded.answers (loaded : Loaded p) (edits : List Edit) (section_ key : Text) :
    let q := edits.foldl edit p
    let s := edits.foldl Store.apply p.store
    q.hasSection section_ = (s section_).isSome ∧ q.hasKey section_ key = (s.lookup section_ key).toBool ∧
      match s.lookup section_ key with
      | .ok found => q.getValues section_ key = (found, RET_OK) ∧
          ∀ value, q.getStringValue section_ key value = (found.headD [], RET_OK)
      | .error err => q.getValues section_ key = ([], err) ∧
          ∀ value, q.getStringValue section_ key value = (value, err) := by
  intro q s
  have same : q.store = s := store_edits loaded.plain.2.distinct edits
  rw [hasSection_store, hasKey_store, getValues_store, same]
  refine ⟨rfl, rfl, ?_⟩
  cases found : s.lookup section_ key with
  | ok found_ =>
    refine ⟨rfl, fun value => ?_⟩
    rw [getStringValue_store, same, found]
  | error err =>
    refine ⟨rfl, fun value => ?_⟩
    rw [getStringValue_store, same, found]

theorem Loaded.answers_sample :
    (sample.edit (.setIntValue "bfs".toList "threads".toList (-7))).getValues "bfs".toList "threads".toList =
      ("-7".toList :: [], RET_OK) :=
  (sample_loaded.answers [.setIntValue "bfs".toList "threads".toList (-7)] "bfs".toList "threads".toList).2.2.1

theorem store_contents {q : ConfigParser} (same : contents q.sections = contents p.sections) : q.store = p.store := by
  -- The store is a function of names, keys and values.
  have told (r : ConfigParser) (section_ : Text) : r.store section_ =
      ((contents r.sections).find? (·.1 == section_)).map fun sect key =>
        (sect.2.filter (·.1 == key)).map (·.2) := by
    rw [store, getSection, contents, List.find?_map, Option.map_map]
    congr 1
    funext sect key
    rw [values, Function.comp_apply, List.filter_map, List.map_map]
    rfl
  funext section_
  rw [told, told, same]

/-- What has been loaded and then changed by plain calls can be saved and loaded. All of it comes back if
and only if no section has a comment beside it; the names, keys and values come back, and the store
with them, if and only if no such comment takes a line with it. -/
theorem Loaded.saved (loaded : Loaded p) (calm : ∀ e ∈ edits, e.Plain) (path : Text) :
    let q := edits.foldl edit p
    ∃ r, ConfigParser.new.load path (some q.saveAs) = (r, RET_OK) ∧
      (r.sections = q.sections ↔ ∀ sect ∈ q.sections, sect.rightComment = []) ∧
      (contents r.sections = contents q.sections ↔ ¬Loses q.sections) ∧
      (¬Loses q.sections → r.store = edits.foldl Store.apply p.store) := by
  intro q
  obtain ⟨hash, plain⟩ := loaded.plain
  have plain' : PlainSections q.sections := edits_plain plain calm
  obtain ⟨r, done, _, all, told⟩ := plain'.reload ((edits_delimiter edits).trans hash) path
  refine ⟨r, done, all, told, fun kept => ?_⟩
  rw [store_contents (told.mpr kept)]
  exact store_edits plain.distinct edits

theorem Loaded.saved_sample : ∃ r, ConfigParser.new.load "bfs.cnf".toList
    (some (sample.edit (.deleteSection "fuse".toList)).saveAs) = (r, RET_OK) ∧
      contents r.sections = contents (sample.edit (.deleteSection "fuse".toList)).sections := by
  have calm : ∀ e ∈ [Edit.deleteSection "fuse".toList], e.Plain := by
    intro e member
    obtain rfl := List.mem_singleton.mp member
    exact List.cons_ne_nil _ _
  obtain ⟨r, done, _, told, _⟩ := sample_loaded.saved calm "bfs.cnf".toList
  exact ⟨r, done, told.mpr (not_loses_of_bare (by decide +kernel))⟩

theorem lookup_set (s : Store) (section_ key value : Text) :
    (s.set section_ key value).lookup section_ key =
      .ok (value :: (((s section_).getD fun _ => []) key).tail) := by
  rw [Store.lookup, Store.set, Function.update_self]
  dsimp only
  rw [Function.update_self, if_neg (List.cons_ne_nil _ _)]

/-- The values of a key, none where the key or the section is missing. -/
theorem getValues_fst (p : ConfigParser) (section_ key : Text) :
    (p.getValues section_ key).1 = ((p.store section_).getD fun _ => []) key := by
  rw [getValues_store, Store.lookup]
  cases p.store section_ with
  | none => rfl
  | some found =>
    dsimp only [Option.getD_some]
    by_cases none : found key = []
    · rw [if_pos none, none]
    · rw [if_neg none]

theorem getD_set_of_ne (s : Store) (value : Text) {section' key' : Text} (other : (section', key') ≠ (section_, key)) :
    ((s.set section_ key value section').getD fun _ => []) key' = ((s section').getD fun _ => []) key' := by
  rw [Store.set]
  by_cases same : section' = section_
  · subst same
    have apart : key' ≠ key := fun equal => other (by rw [equal])
    rw [Function.update_self, Option.getD_some, Function.update_of_ne apart]
  · rw [Function.update_of_ne same]

/-- A value that is set is there when the parser has been saved and loaded, and no other value is another
one then. -/
theorem Loaded.set_saved (loaded : Loaded p) (calm : ∀ e ∈ edits, e.Plain) {e : Edit} (plain : e.Plain)
    {text : Text} (sets : ∀ s : Store, s.apply e = s.set section_ key text)
    (kept : ¬Loses ((edits.foldl edit p).edit e).sections) (path : Text) :
    ∃ r, ConfigParser.new.load path (some ((edits.foldl edit p).edit e).saveAs) = (r, RET_OK) ∧
      (∀ value, r.getStringValue section_ key value = (text, RET_OK)) ∧
      ∀ section' key', (section', key') ≠ (section_, key) →
        (r.getValues section' key').1 = ((edits.foldl edit p).getValues section' key').1 := by
  have calm' : ∀ e' ∈ edits ++ [e], e'.Plain := by
    intro e' member
    rcases List.mem_append.mp member with before | last
    · exact calm e' before
    · obtain rfl := List.mem_singleton.mp last
      exact plain
  obtain ⟨r, done, _, _, same⟩ := loaded.saved calm' path
  rw [List.foldl_append] at done same
  rw [List.foldl_append, ← store_edits loaded.plain.2.distinct] at same
  have store_ : r.store = (edits.foldl edit p).store.set section_ key text := (same kept).trans (sets _)
  refine ⟨r, done, fun value => ?_, fun section' key' other => ?_⟩
  · rw [getStringValue_store, store_, lookup_set]
    rfl
  · rw [getValues_fst, getValues_fst, store_, getD_set_of_ne _ _ other]

/-- The first value of a key. -/
def Store.first (s : Store) (section_ key : Text) : Option Text :=
  (((s section_).getD fun _ => []) key).head?

theorem getStringValue_first (p : ConfigParser) (section_ key value : Text) :
    (p.getStringValue section_ key value).1 = (p.store.first section_ key).getD value ∧
      ((p.getStringValue section_ key value).2 = RET_OK ↔ (p.store.first section_ key).isSome) := by
  rw [getStringValue_store, Store.lookup, Store.first]
  cases p.store section_ with
  | none => exact ⟨rfl, by simp [ERR_NOT_FOUND_SECTION, RET_OK]⟩
  | some found =>
    dsimp only [Option.getD_some]
    cases found key with
    | nil => exact ⟨rfl, by simp [ERR_NOT_FOUND_KEY, RET_OK]⟩
    | cons first rest => exact ⟨rfl, by simp⟩

theorem ite_code {found : Option Text} {err : Nat} {old default_ : Text} (code : err = RET_OK ↔ found.isSome) :
    (if err ≠ 0 then default_ else found.getD old) = found.getD default_ := by
  cases found with
  | none =>
    have failed : err ≠ 0 := fun ok => Bool.false_ne_true (code.mp ok)
    rw [if_pos failed, Option.getD_none]
  | some text =>
    have ok : err = 0 := code.mpr rfl
    rw [if_neg (not_not.mpr ok), Option.getD_some, Option.getD_some]

end Storing

end BlockFs.ConfigParser
