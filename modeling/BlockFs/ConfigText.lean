import BlockFs.ConfigParser

namespace BlockFs.ConfigParser

section Searching
variable {a b : Text} {c : Char}

theorem find_singleton (absent : c ∉ a) : find [c] (a ++ c :: b) = some a.length := by
  induction a with
  | nil => simp [find]
  | cons d a ih =>
    obtain ⟨other, absent⟩ : ¬c = d ∧ c ∉ a := by simpa using absent
    rw [List.cons_append, find, if_neg (by simpa using other), ih absent]
    rfl

theorem find_absent (absent : c ∉ a) : find [c] a = none := by
  induction a with
  | nil => simp [find]
  | cons d a ih =>
    obtain ⟨other, absent⟩ : ¬c = d ∧ c ∉ a := by simpa using absent
    rw [find, if_neg (by simpa using other), ih absent]
    rfl

/-- A character is found where it first occurs. -/
theorem find_eq_some {pos : Nat} (found : find [c] a = some pos) :
    ∃ front back, a = front ++ c :: back ∧ c ∉ front ∧ front.length = pos := by
  induction a generalizing pos with
  | nil => simp [find] at found
  | cons d a ih =>
    rw [find] at found
    split at found
    · next here =>
      obtain rfl : c = d := by simpa using here
      obtain rfl := Option.some.inj found
      exact ⟨[], a, rfl, List.not_mem_nil, rfl⟩
    · next other =>
      obtain ⟨_, before, rfl⟩ := Option.map_eq_some_iff.mp found
      obtain ⟨front, back, rfl, absent, rfl⟩ := ih before
      have apart : ¬c = d := fun same => other (by simp [same])
      exact ⟨d :: front, back, rfl, by simpa [apart] using absent, rfl⟩

theorem find_eq_none (missing : find [c] a = none) : c ∉ a := by
  intro member
  obtain ⟨front, back, rfl, absent⟩ := List.eq_append_cons_of_mem member
  simp [find_singleton absent] at missing

theorem split_singleton (absent : c ∉ a) : split (a ++ c :: b) [c] = (trim a, trim b, true) := by
  rw [split, find_singleton absent]
  dsimp only
  rw [List.take_left, ← List.singleton_append, ← List.append_assoc, List.drop_left' (by simp)]

theorem split_absent (absent : c ∉ a) : split a [c] = (trim a, [], false) := by
  rw [split, find_absent absent]

end Searching

/-- One line without blanks at its ends. -/
structure Clean (t : Text) : Prop where
  stripped : Lines.Stripped isspace t
  oneLine : '\n' ∉ t

theorem Clean.nil : Clean [] := ⟨.nil, List.not_mem_nil⟩

theorem Clean.trim {t : Text} (clean : Clean t) : trim t = t := clean.stripped.strip

theorem clean_trim {t : Text} (oneLine : '\n' ∉ t) : Clean (trim t) :=
  ⟨Lines.strip_stripped t, fun member => oneLine (Lines.mem_of_mem_strip member)⟩

/-- What a line of a configuration file says. -/
inductive Line
  | note (text : Text)
  | header (name rightComment : Text)
  | pair (key value rightComment : Text)

/-- The comment beside a section or an item. -/
def beside (rightComment : Text) : Text :=
  if rightComment = [] then [] else ' ' :: '#' :: rightComment

namespace Line

def render : Line → Text
  | note text => text
  | header name rightComment => '[' :: (name ++ ']' :: beside rightComment)
  | pair key value rightComment => key ++ '=' :: (value ++ beside rightComment)

/-- A line as `Load` takes lines apart. -/
def Plain : Line → Prop
  | note text => '\n' ∉ text ∧ (trim text = [] ∨ (trim text).head? = some '#')
  | header name rightComment => Clean name ∧ '#' ∉ name ∧ ']' ∉ name ∧ Clean rightComment
  | pair key value rightComment => (Clean key ∧ '=' ∉ key ∧ '#' ∉ key ∧ key.head? ≠ some '[') ∧
      (Clean value ∧ '#' ∉ value) ∧ Clean rightComment

/-- The line in a text, or the code with which `Load` refuses it whatever came before. -/
def read (line : Text) : Except Nat Line :=
  if trim line = [] ∨ (trim line).head? = some '#' then .ok (note line)
  else
    match split (trim line) ['#'] with
    | (cleanLine, rightComment, _) =>
      if cleanLine.head? = some '[' then
        match find [']'] cleanLine with
        | none => .error ERR_UNMATCHED_BRACKETS
        | some index =>
          if index ≤ 1 then .error ERR_SECTION_EMPTY
          else .ok (header (trim ((cleanLine.drop 1).take (index - 1))) rightComment)
      else
        match split cleanLine ['='] with
        | (_, _, false) => .error ERR_PARSE_KEY_VALUE_FAILED
        | (key, value, true) => .ok (pair key value rightComment)

end Line

/-- What `Load` has at hand between two lines: the sections, of which the last is the current one, and
the comment that waits for an owner. -/
structure Draft where
  sections : List IniSection
  comment : Text

/-- A line is taken in, unless it opens a section that exists. -/
def Draft.absorb (d : Draft) : Line → Option Draft
  | .note text => some { d with comment := d.comment ++ trim text ++ ['\n'] }
  | .header name rightComment =>
    if d.sections.any (·.name == name) then none
    else
      some
        { sections := d.sections ++
            [{ name := name, comment := d.comment, rightComment := rightComment, items := [] }]
          comment := [] }
  | .pair key value rightComment =>
    some
      { sections := d.sections.modify (d.sections.length - 1) fun s =>
          { s with
            items := s.items ++
              [{ key := key, value := value, comment := d.comment, rightComment := rightComment }] }
        comment := [] }

/-- The lines are taken in one after the other. -/
def Draft.absorbAll (d : Draft) (ls : List Line) : Option Draft := ls.foldlM absorb d

section Reading
variable {p : ConfigParser} {comment line : Text} {lines : List Text}

theorem isCommentLine_iff (hash : p.commentDelimiter = ['#']) (str : Text) :
    p.isCommentLine str = true ↔ str.head? = some '#' := by
  rw [isCommentLine, hash, startWith]
  cases str with
  | nil => simp
  | cons c str =>
    by_cases same : c = '#'
    · simp [same]
    · by_cases zero : c = '\x00'
      · simp [zero]
      · simp [same, zero]

/-- The loop of `Load` reads a line and takes it in. -/
theorem loadLines_cons (hash : p.commentDelimiter = ['#']) (line : Text) (lines : List Text) :
    loadLines p (p.sections.length - 1) comment (line :: lines) =
      match Line.read line with
      | .error err => (p, err)
      | .ok l =>
        match Draft.absorb { sections := p.sections, comment := comment } l with
        | none => (p, ERR_SECTION_ALREADY_EXISTS)
        | some d => loadLines { p with sections := d.sections } (d.sections.length - 1) d.comment lines := by
  rw [loadLines, Line.read]
  dsimp only
  by_cases blank : trim line = []
  · rw [if_pos (by simp [blank]), if_pos (.inl blank)]
    dsimp only [Draft.absorb]
    rw [blank, List.append_nil]
  rw [if_neg (by simpa using blank)]
  by_cases note : p.isCommentLine (trim line) = true
  · rw [if_pos note, if_pos (.inr ((isCommentLine_iff hash _).mp note))]
    rfl
  have plain : ¬(trim line).head? = some '#' := fun starts => note ((isCommentLine_iff hash _).mpr starts)
  have cut : split (trim line) p.commentDelimiter = split (trim line) ['#'] := by rw [hash]
  rw [if_neg note, if_neg (not_or.mpr ⟨blank, plain⟩), cut]
  generalize split (trim line) ['#'] = parts
  obtain ⟨cleanLine, rightComment, there⟩ := parts
  dsimp only
  by_cases opens : cleanLine.head? = some '['
  · rw [if_pos opens, if_pos opens, updateSection]
    cases find [']'] cleanLine with
    | none => rfl
    | some index =>
      dsimp only
      by_cases short : index ≤ 1
      · rw [if_pos short, if_pos short]
      rw [if_neg short, if_neg short]
      generalize trim ((cleanLine.drop 1).take (index - 1)) = name
      have taken : (p.getSection name).isSome = p.sections.any (·.name == name) := by
        rw [getSection, Bool.eq_iff_iff, List.find?_isSome, List.any_eq_true]
      dsimp only [Draft.absorb]
      rw [taken]
      by_cases dup : p.sections.any (·.name == name) = true
      · rw [if_pos dup, if_pos dup]
      · rw [if_neg dup, if_neg dup]
        simp only [List.length_append, List.length_singleton, Nat.add_sub_cancel]
  · rw [if_neg opens, if_neg opens, addKeyValuePair]
    obtain ⟨key, value, pair⟩ := split cleanLine ['=']
    cases pair with
    | false => rfl
    | true =>
      dsimp only [Draft.absorb]
      rw [List.length_modify]

/-- A line that is read says something plain. -/
theorem Line.read_plain {l : Line} (oneLine : '\n' ∉ line) (result : read line = .ok l) : l.Plain := by
  have clean := clean_trim oneLine
  rw [read] at result
  by_cases note : trim line = [] ∨ (trim line).head? = some '#'
  · rw [if_pos note] at result
    obtain rfl := Except.ok.inj result
    exact ⟨oneLine, note⟩
  rw [if_neg note] at result
  -- The part in front of the comment, and the comment.
  obtain ⟨cleanLine, rightComment, there, cut, cleanCut, unhashed, cleanRight⟩ :
      ∃ cleanLine rightComment there, split (trim line) ['#'] = (cleanLine, rightComment, there) ∧
        Clean cleanLine ∧ '#' ∉ cleanLine ∧ Clean rightComment := by
    cases found : find ['#'] (trim line) with
    | none =>
      have absent := find_eq_none found
      refine ⟨_, _, _, split_absent absent, ?_, ?_, .nil⟩
      · rw [clean.trim]
        exact clean
      · rw [clean.trim]
        exact absent
    | some pos =>
      obtain ⟨front, back, same, absent, _⟩ := find_eq_some found
      have inside := clean.oneLine
      rw [same] at inside
      refine ⟨trim front, trim back, true, ?_, clean_trim fun member => inside (by simp [member]),
        fun member => absent (Lines.mem_of_mem_strip member), clean_trim fun member => inside (by simp [member])⟩
      rw [same, split_singleton absent]
  rw [cut] at result
  dsimp only at result
  by_cases opens : cleanLine.head? = some '['
  · rw [if_pos opens] at result
    cases found : find [']'] cleanLine with
    | none => simp [found] at result
    | some index =>
      rw [found] at result
      dsimp only at result
      by_cases short : index ≤ 1
      · simp [if_pos short] at result
      rw [if_neg short] at result
      obtain rfl := Except.ok.inj result
      obtain ⟨front, back, rfl, absent, rfl⟩ := find_eq_some found
      have within (c : Char) (member : c ∈ trim (((front ++ ']' :: back).drop 1).take (front.length - 1))) :
          c ∈ front := by
        have inside := Lines.mem_of_mem_strip member
        cases front with
        | nil => simp at short
        | cons d front =>
          rw [List.cons_append, List.drop_one, List.tail_cons, List.length_cons, Nat.add_sub_cancel,
            List.take_left] at inside
          exact List.mem_cons_of_mem d inside
      have whole := cleanCut.oneLine
      refine ⟨⟨Lines.strip_stripped _, fun member => whole ?_⟩, fun member => unhashed ?_,
        fun member => absent (within _ member), cleanRight⟩
      · exact List.mem_append_left _ (within _ member)
      · exact List.mem_append_left _ (within _ member)
  · rw [if_neg opens] at result
    cases found : find ['='] cleanLine with
    | none => simp [split_absent (find_eq_none found)] at result
    | some pos =>
      obtain ⟨front, back, rfl, absent, rfl⟩ := find_eq_some found
      rw [split_singleton absent] at result
      obtain rfl := Except.ok.inj result
      have whole := cleanCut.oneLine
      refine ⟨⟨clean_trim fun member => whole (by simp [member]), ?_, ?_, ?_⟩,
        ⟨clean_trim fun member => whole (by simp [member]), ?_⟩, cleanRight⟩
      · exact fun member => absent (Lines.mem_of_mem_strip member)
      · exact fun member => unhashed (List.mem_append_left _ (Lines.mem_of_mem_strip member))
      · -- A key starts where its line starts.
        cases front with
        | nil => simp [trim, Lines.strip]
        | cons c front =>
          have solid : ∀ d, (c :: front).head? = some d → isspace d = false := cleanCut.stripped.1
          rw [trim, Lines.head?_strip solid]
          exact opens
      · exact fun member => unhashed (List.mem_append_right _ (List.mem_cons_of_mem _ (Lines.mem_of_mem_strip member)))

/-- The comment beside a text is cut off again. -/
theorem split_beside {t rightComment : Text} (clean : Clean t) (some_ : t ≠ []) (unhashed : '#' ∉ t)
    (right : Clean rightComment) :
    trim (t ++ beside rightComment) = t ++ beside rightComment ∧
      ∃ there, split (t ++ beside rightComment) ['#'] = (t, rightComment, there) := by
  rcases List.eq_nil_or_concat' rightComment with rfl | ⟨rest, c, rfl⟩
  · rw [beside, if_pos rfl, List.append_nil]
    refine ⟨clean.trim, false, ?_⟩
    rw [split_absent unhashed, clean.trim]
  · obtain ⟨d, t', rfl⟩ := List.exists_cons_of_ne_nil some_
    rw [beside, if_neg (by simp)]
    constructor
    · have ends := Lines.stripped_of_ends (clean.stripped.1 d rfl)
        (right.stripped.2 c List.getLast?_concat) (t' ++ ' ' :: '#' :: rest)
      rw [List.append_assoc] at ends
      exact ends.strip
    · have blank : isspace ' ' = true := rfl
      have absent : '#' ∉ (d :: t') ++ [' '] := by simpa using unhashed
      refine ⟨true, ?_⟩
      rw [show (d :: t') ++ ' ' :: '#' :: (rest ++ [c]) = ((d :: t') ++ [' ']) ++ '#' :: (rest ++ [c]) from by simp,
        split_singleton absent, trim, Lines.strip_concat _ blank, right.trim]
      exact congrArg (·, _, _) clean.trim

/-- A refusal has a code of its own. -/
theorem Line.read_error {err : Nat} (result : read line = .error err) : err ≠ RET_OK := by
  rw [read] at result
  by_cases note : trim line = [] ∨ (trim line).head? = some '#'
  · simp [if_pos note] at result
  rw [if_neg note] at result
  generalize split (trim line) ['#'] = parts at result
  obtain ⟨cleanLine, rightComment, there⟩ := parts
  dsimp only at result
  by_cases opens : cleanLine.head? = some '['
  · rw [if_pos opens] at result
    cases found : find [']'] cleanLine with
    | none =>
      rw [found] at result
      obtain rfl := Except.error.inj result
      decide
    | some index =>
      rw [found] at result
      dsimp only at result
      by_cases short : index ≤ 1
      · rw [if_pos short] at result
        obtain rfl := Except.error.inj result
        decide
      · simp [if_neg short] at result
  · rw [if_neg opens] at result
    generalize split cleanLine ['='] = parts at result
    obtain ⟨key, value, pair⟩ := parts
    cases pair with
    | false =>
      obtain rfl := Except.error.inj result
      decide
    | true => simp at result

/-- A line that is written out is read back; a section needs a name for it. -/
theorem Line.read_render {l : Line} (plain : l.Plain) (named : ∀ right, l ≠ .header [] right) :
    read l.render = .ok l := by
  cases l with
  | note text => rw [render, read, if_pos plain.2]
  | header name rightComment =>
    obtain ⟨clean, unhashed, unclosed, right⟩ := plain
    have some_ : name ≠ [] := fun none => named rightComment (by rw [none])
    have whole : Clean ('[' :: (name ++ [']'])) :=
      ⟨Lines.stripped_of_ends rfl rfl name, by simpa using clean.oneLine⟩
    obtain ⟨same, there, cut⟩ := split_beside whole (List.cons_ne_nil _ _) (by simpa using unhashed) right
    have text : render (.header name rightComment) = '[' :: (name ++ [']']) ++ beside rightComment := by
      simp [render]
    have at_ : find [']'] ('[' :: (name ++ [']'])) = some (name.length + 1) :=
      find_singleton (a := '[' :: name) (by simpa using unclosed)
    rw [read, text, same, if_neg (by simp), cut]
    dsimp only
    rw [List.head?_cons, if_pos rfl, at_]
    dsimp only
    rw [if_neg (by simpa using some_), List.drop_one, List.tail_cons, Nat.add_sub_cancel, List.take_left,
      clean.trim]
  | pair key value rightComment =>
    obtain ⟨⟨cleanKey, unequal, unhashed, closed⟩, ⟨cleanValue, unhashed'⟩, right⟩ := plain
    have whole : Clean (key ++ '=' :: value) :=
      ⟨cleanKey.stripped.join cleanValue.stripped rfl, by simpa using ⟨cleanKey.oneLine, cleanValue.oneLine⟩⟩
    have absent : '#' ∉ key ++ '=' :: value := by simpa using ⟨unhashed, unhashed'⟩
    obtain ⟨same, there, cut⟩ := split_beside whole (by simp) absent right
    have text : render (.pair key value rightComment) = key ++ '=' :: value ++ beside rightComment := by
      simp [render]
    have head : (key ++ '=' :: value).head? ≠ some '[' := by
      cases key with
      | nil => simp
      | cons c key => exact closed
    have unnoted : ¬(key ++ '=' :: value ++ beside rightComment = [] ∨
        (key ++ '=' :: value ++ beside rightComment).head? = some '#') := by
      cases key with
      | nil => simp
      | cons c key =>
        rintro (none | first)
        · simp at none
        · obtain rfl : c = '#' := by simpa using first
          exact unhashed List.mem_cons_self
    rw [read, text, same, if_neg unnoted, cut]
    dsimp only
    rw [if_neg head, split_singleton unequal, cleanKey.trim, cleanValue.trim]

end Reading

/-- Comment lines above a section or an item: empty ones, and ones that start with the delimiter. -/
def Notes (comment : Text) : Prop :=
  ∃ ls : List Text, (∀ l ∈ ls, Clean l ∧ (l = [] ∨ l.head? = some '#')) ∧ comment = Lines.unlines '\n' ls

structure PlainItem (item : IniItem) : Prop where
  line : (Line.pair item.key item.value item.rightComment).Plain
  comment : Notes item.comment

structure PlainSection (sect : IniSection) : Prop where
  line : (Line.header sect.name sect.rightComment).Plain
  comment : Notes sect.comment
  items : ∀ item ∈ sect.items, PlainItem item

/-- Sections that can come out of a file: the nameless one first, no two of one name, and all texts as
`Load` leaves them. -/
structure PlainSections (ss : List IniSection) : Prop where
  nameless : ∃ sect rest, ss = sect :: rest ∧ sect.name = [] ∧ sect.comment = []
  distinct : (ss.map (·.name)).Nodup
  plain : ∀ sect ∈ ss, PlainSection sect

section Drafts
variable {p q : ConfigParser} {comment : Text} {d d' : Draft} {ls : List Line} {l : Line}

theorem Notes.nil : Notes [] := ⟨[], fun _ member => absurd member List.not_mem_nil, rfl⟩

theorem Notes.snoc {text : Text} (notes : Notes comment) (plain : (Line.note text).Plain) :
    Notes (comment ++ trim text ++ ['\n']) := by
  obtain ⟨ls, all, rfl⟩ := notes
  refine ⟨ls ++ [trim text], fun l member => ?_, ?_⟩
  · rcases List.mem_append.mp member with before | last
    · exact all l before
    · obtain rfl := List.mem_singleton.mp last
      exact ⟨clean_trim plain.1, plain.2⟩
  · rw [Lines.unlines_append, Lines.unlines_cons, Lines.unlines_nil, List.append_assoc]

theorem modify_last (ss : List IniSection) (sect : IniSection) (f : IniSection → IniSection) :
    (ss ++ [sect]).modify ((ss ++ [sect]).length - 1) f = ss ++ [f sect] := by
  induction ss with
  | nil => rfl
  | cons s ss ih =>
    have length : (s :: ss ++ [sect]).length - 1 = (ss ++ [sect]).length - 1 + 1 := by simp
    rw [length, List.cons_append, List.modify_succ_cons, ih, List.cons_append]

/-- The current section is there, and what is done to it is seen in no other. -/
theorem PlainSections.concat (plain : PlainSections d.sections) :
    ∃ ss sect, d.sections = ss ++ [sect] := by
  obtain ⟨first, rest, same, _⟩ := plain.nameless
  rcases List.eq_nil_or_concat' d.sections with none | some_
  · simp [none] at same
  · exact some_

theorem Draft.absorb_plain (sections : PlainSections d.sections) (notes : Notes d.comment)
    (plain : l.Plain) (taken : d.absorb l = some d') : PlainSections d'.sections ∧ Notes d'.comment := by
  cases l with
  | note text =>
    obtain rfl := Option.some.inj taken
    exact ⟨sections, notes.snoc plain⟩
  | header name rightComment =>
    rw [absorb] at taken
    split at taken
    · simp at taken
    next fresh =>
    obtain rfl := Option.some.inj taken
    refine ⟨⟨?_, ?_, ?_⟩, .nil⟩
    · obtain ⟨first, rest, same, nameless⟩ := sections.nameless
      exact ⟨first, rest ++ [_], by rw [same]; rfl, nameless⟩
    · have unused : name ∉ d.sections.map (·.name) := by
        intro member
        obtain ⟨s, there, same⟩ := List.mem_map.mp member
        exact fresh (List.any_eq_true.mpr ⟨s, there, by simpa using same⟩)
      rw [List.map_append, List.map_singleton]
      refine List.nodup_append.mpr ⟨sections.distinct, by simp, fun other member last here same => ?_⟩
      obtain rfl := List.mem_singleton.mp here
      exact unused (same ▸ member)
    · intro s member
      rcases List.mem_append.mp member with before | last
      · exact sections.plain s before
      · obtain rfl := List.mem_singleton.mp last
        exact ⟨plain, notes, fun item member => absurd member List.not_mem_nil⟩
  | pair key value rightComment =>
    obtain rfl := Option.some.inj taken
    obtain ⟨ss, sect, same⟩ := sections.concat
    dsimp only
    rw [same, modify_last]
    rw [same] at sections
    refine ⟨⟨?_, ?_, ?_⟩, .nil⟩
    · obtain ⟨first, rest, whole, nameless, uncommented⟩ := sections.nameless
      cases ss with
      | nil =>
        obtain rfl : sect = first := by simpa using congrArg List.head? whole
        exact ⟨_, [], rfl, nameless, uncommented⟩
      | cons s ss =>
        obtain rfl : s = first := by simpa using congrArg List.head? whole
        exact ⟨s, ss ++ [_], rfl, nameless, uncommented⟩
    · have names := sections.distinct
      rw [List.map_append, List.map_singleton] at names ⊢
      exact names
    · intro s member
      rcases List.mem_append.mp member with before | last
      · exact sections.plain s (List.mem_append_left _ before)
      · obtain rfl := List.mem_singleton.mp last
        have old := sections.plain sect (List.mem_append_right _ List.mem_cons_self)
        refine ⟨old.line, old.comment, fun item member => ?_⟩
        rcases List.mem_append.mp member with before | new
        · exact old.items item before
        · obtain rfl := List.mem_singleton.mp new
          exact ⟨plain, notes⟩

theorem Draft.absorbAll_cons (d : Draft) (l : Line) (ls : List Line) :
    d.absorbAll (l :: ls) = (d.absorb l).bind fun d => d.absorbAll ls := rfl

theorem Draft.absorbAll_append (d : Draft) (ls ls' : List Line) :
    d.absorbAll (ls ++ ls') = (d.absorbAll ls).bind fun d => d.absorbAll ls' := List.foldlM_append

theorem Draft.absorbAll_plain (sections : PlainSections d.sections) (notes : Notes d.comment)
    (plain : ∀ l ∈ ls, l.Plain) (taken : d.absorbAll ls = some d') : PlainSections d'.sections := by
  induction ls generalizing d with
  | nil =>
    obtain rfl := Option.some.inj taken
    exact sections
  | cons l ls ih =>
    obtain ⟨u, first, rest⟩ := Option.bind_eq_some_iff.mp taken
    obtain ⟨sections', notes'⟩ := Draft.absorb_plain sections notes (plain l List.mem_cons_self) first
    exact ih sections' notes' (fun l member => plain l (List.mem_cons_of_mem _ member)) rest

/-- The lines of a file that is loaded were all read and taken in. -/
theorem loadLines_taken (hash : p.commentDelimiter = ['#']) {lines : List Text}
    (oneLine : ∀ line ∈ lines, '\n' ∉ line)
    (done : loadLines p (p.sections.length - 1) comment lines = (q, RET_OK)) :
    ∃ ls d, (∀ l ∈ ls, Line.Plain l) ∧
      Draft.absorbAll { sections := p.sections, comment := comment } ls = some d ∧
        q = { p with sections := d.sections } := by
  induction lines generalizing p comment with
  | nil =>
    obtain ⟨rfl, _⟩ := Prod.mk.inj done
    exact ⟨[], _, fun l member => absurd member List.not_mem_nil, rfl, rfl⟩
  | cons line lines ih =>
    rw [loadLines_cons hash] at done
    split at done
    · next err result =>
      exact absurd (Prod.mk.inj done).2 (Line.read_error result)
    · next l result =>
      split at done
      · simp [ERR_SECTION_ALREADY_EXISTS, RET_OK] at done
      · next d taken =>
        obtain ⟨ls, d', plain, rest, same⟩ :=
          @ih { p with sections := d.sections } d.comment hash
            (fun line member => oneLine line (List.mem_cons_of_mem _ member)) done
        refine ⟨l :: ls, d', fun m member => ?_, ?_, same⟩
        · rcases List.mem_cons.mp member with rfl | later
          · exact Line.read_plain (oneLine line List.mem_cons_self) result
          · exact plain m later
        · rw [Draft.absorbAll_cons, taken]
          exact rest

/-- Lines that are written out load as what they say. -/
theorem loadLines_render (hash : p.commentDelimiter = ['#'])
    (plain : ∀ l ∈ ls, Line.Plain l ∧ ∀ right, l ≠ .header [] right)
    (taken : Draft.absorbAll { sections := p.sections, comment := comment } ls = some d) :
    loadLines p (p.sections.length - 1) comment (ls.map Line.render) =
      ({ p with sections := d.sections }, RET_OK) := by
  induction ls generalizing p comment with
  | nil =>
    obtain rfl := Option.some.inj taken
    rfl
  | cons l ls ih =>
    obtain ⟨u, first, rest⟩ := Option.bind_eq_some_iff.mp taken
    obtain ⟨ready, named⟩ := plain l List.mem_cons_self
    rw [List.map_cons, loadLines_cons hash, Line.read_render ready named]
    dsimp only
    rw [first]
    exact @ih { p with sections := u.sections } u.comment hash
      (fun l member => plain l (List.mem_cons_of_mem _ member)) rest

end Drafts

end BlockFs.ConfigParser
