import Mathlib.Data.List.DropRight

/-!
Lists cut into lines at a separator, and lists without the blank elements at their ends.
-/

namespace Lines

variable {α : Type}

section Strip
variable {blank : α → Bool} {a b l : List α} {c : α}

/-- A list without the blank elements at either end. -/
def strip (blank : α → Bool) (l : List α) : List α := (l.dropWhile blank).rdropWhile blank

/-- Neither end of a list is blank. -/
def Stripped (blank : α → Bool) (l : List α) : Prop :=
  (∀ c, l.head? = some c → blank c = false) ∧ ∀ c, l.getLast? = some c → blank c = false

theorem Stripped.nil : Stripped blank [] := by
  constructor <;> intro c found <;> simp at found

/-- What is stripped stays as it is. -/
theorem Stripped.strip (stripped : Stripped blank l) : strip blank l = l := by
  have front : l.dropWhile blank = l := by
    cases l with
    | nil => rfl
    | cons c l => rw [List.dropWhile_cons_of_neg (by simp [stripped.1 c rfl])]
  rw [Lines.strip, front, List.rdropWhile_eq_self_iff]
  intro some_
  have last := stripped.2 _ (List.getLast?_eq_getLast_of_ne_nil some_)
  simp [last]

theorem strip_stripped (l : List α) : Stripped blank (strip blank l) := by
  constructor
  · intro c found
    obtain ⟨rest, same⟩ : ∃ rest, Lines.strip blank l = c :: rest := by
      cases whole : Lines.strip blank l with
      | nil => simp [whole] at found
      | cons d rest =>
        rw [whole] at found
        exact ⟨rest, by rw [Option.some.inj found]⟩
    obtain ⟨tail, joined⟩ := List.rdropWhile_prefix blank (l.dropWhile blank)
    rw [show (l.dropWhile blank).rdropWhile blank = c :: rest from same, List.cons_append] at joined
    have stops := List.head?_dropWhile_not blank l
    rw [← joined] at stops
    simpa using stops
  · intro c found
    have some_ : Lines.strip blank l ≠ [] := by
      intro none
      simp [none] at found
    have last := List.rdropWhile_last_not blank (l.dropWhile blank) some_
    rw [List.getLast?_eq_getLast_of_ne_nil some_] at found
    obtain rfl := Option.some.inj found
    exact Bool.eq_false_iff.mpr last

/-- A list that does not start with a blank keeps its first element. -/
theorem head?_strip (front : ∀ c, l.head? = some c → blank c = false) :
    (strip blank l).head? = l.head? := by
  cases l with
  | nil => rfl
  | cons c l =>
    have solid := front c rfl
    rw [strip, List.dropWhile_cons_of_neg (by simp [solid])]
    obtain ⟨tail, joined⟩ := List.rdropWhile_prefix blank (c :: l)
    cases whole : (c :: l).rdropWhile blank with
    | nil =>
      have all := List.rdropWhile_eq_nil_iff.mp whole c List.mem_cons_self
      simp [solid] at all
    | cons d rest =>
      rw [whole, List.cons_append, List.cons.injEq] at joined
      rw [joined.1]
      rfl

theorem mem_of_mem_strip (member : c ∈ strip blank l) : c ∈ l :=
  (List.dropWhile_sublist blank).mem ((List.rdropWhile_prefix blank _).sublist.mem member)

/-- A blank at the end does not matter. -/
theorem strip_concat (l : List α) (isBlank : blank c = true) : strip blank (l ++ [c]) = strip blank l := by
  unfold strip
  rw [List.dropWhile_append]
  split
  · next none =>
    rw [List.isEmpty_iff.mp none, List.dropWhile_cons_of_pos isBlank, List.dropWhile_nil]
  · rw [List.rdropWhile_concat_pos blank _ c isBlank]

/-- Nor does one at the start. -/
theorem strip_cons (l : List α) (isBlank : blank c = true) : strip blank (c :: l) = strip blank l := by
  unfold strip
  rw [List.dropWhile_cons_of_pos isBlank]

/-- The ends of a list decide. -/
theorem stripped_of_ends {d : α} (first : blank c = false) (last : blank d = false) (l : List α) :
    Stripped blank (c :: (l ++ [d])) := by
  constructor
  · intro e found
    obtain rfl := Option.some.inj found
    exact first
  · intro e found
    rw [← List.cons_append, List.getLast?_concat] at found
    obtain rfl := Option.some.inj found
    exact last

/-- Two stripped lists around an element that is not blank. -/
theorem Stripped.join (front : Stripped blank a) (back : Stripped blank b) (solid : blank c = false) :
    Stripped blank (a ++ c :: b) := by
  constructor
  · intro d found
    cases a with
    | nil =>
      obtain rfl := Option.some.inj found
      exact solid
    | cons e a => exact front.1 d found
  · intro d found
    rcases List.eq_nil_or_concat' b with rfl | ⟨b, e, rfl⟩
    · rw [List.getLast?_append_of_ne_nil _ (List.cons_ne_nil _ _)] at found
      obtain rfl := Option.some.inj found
      exact solid
    · refine back.2 d ?_
      rw [← List.cons_append, ← List.append_assoc, List.getLast?_concat] at found
      rw [List.getLast?_concat, found]

theorem Stripped.singleton (solid : blank c = false) : Stripped blank [c] :=
  Stripped.nil.join .nil solid

end Strip

section Lines
variable [BEq α] [LawfulBEq α] {sep : α} {l : List α}

omit [LawfulBEq α] in
/-- The lines of a text: what follows the last separator counts only if there is something. -/
def lines (sep : α) : List α → List (List α)
  | [] => []
  | c :: text =>
    if c == sep then [] :: lines sep text
    else
      match lines sep text with
      | [] => [[c]]
      | l :: ls => (c :: l) :: ls

/-- The text of lines that each end in a separator. -/
def unlines (sep : α) (ls : List (List α)) : List α := ls.flatMap (· ++ [sep])

omit [BEq α] [LawfulBEq α] in
@[simp] theorem unlines_nil : unlines sep [] = [] := rfl

omit [BEq α] [LawfulBEq α] in
@[simp] theorem unlines_cons (l : List α) (ls : List (List α)) :
    unlines sep (l :: ls) = l ++ sep :: unlines sep ls := by
  rw [unlines, List.flatMap_cons, List.append_assoc]
  rfl

omit [BEq α] [LawfulBEq α] in
theorem unlines_append (ls ls' : List (List α)) :
    unlines sep (ls ++ ls') = unlines sep ls ++ unlines sep ls' := List.flatMap_append

theorem lines_cons (plain : sep ∉ l) (rest : List α) :
    lines sep (l ++ sep :: rest) = l :: lines sep rest := by
  induction l with
  | nil => simp [lines]
  | cons c l ih =>
    obtain ⟨other, plain⟩ : ¬c = sep ∧ sep ∉ l := by simpa [eq_comm] using plain
    rw [List.cons_append, lines, if_neg (by simpa using other), ih plain]

theorem lines_last (plain : sep ∉ l) (some_ : l ≠ []) : lines sep l = [l] := by
  induction l with
  | nil => exact absurd rfl some_
  | cons c l ih =>
    obtain ⟨other, plain⟩ : ¬c = sep ∧ sep ∉ l := by simpa [eq_comm] using plain
    rw [lines, if_neg (by simpa using other)]
    cases l with
    | nil => rfl
    | cons d l => rw [ih plain (List.cons_ne_nil d l)]

/-- A line holds no separator. -/
theorem not_mem_of_mem_lines {text : List α} (member : l ∈ lines sep text) : sep ∉ l := by
  induction text generalizing l with
  | nil => simp [lines] at member
  | cons c text ih =>
    rw [lines] at member
    split at member
    · rcases List.mem_cons.mp member with rfl | later
      · exact List.not_mem_nil
      · exact ih later
    next other =>
    have apart : ¬sep = c := fun same => other (by simp [same])
    split at member
    · obtain rfl := List.mem_singleton.mp member
      simpa using apart
    · next first rest whole =>
      rw [whole] at ih
      rcases List.mem_cons.mp member with rfl | later
      · simpa [apart] using ih List.mem_cons_self
      · exact ih (List.mem_cons_of_mem _ later)

theorem lines_unlines_append {ls : List (List α)} (plain : ∀ l ∈ ls, sep ∉ l) (rest : List α) :
    lines sep (unlines sep ls ++ rest) = ls ++ lines sep rest := by
  induction ls with
  | nil => rfl
  | cons l ls ih =>
    rw [unlines_cons, List.append_assoc, List.cons_append, lines_cons (plain l List.mem_cons_self),
      ih fun l member => plain l (List.mem_cons_of_mem _ member), List.cons_append]

end Lines

end Lines
