import UxmlBindings.Code.Render

/-!
# Line breaks in generated files

Five characters end a line of the generated code, and a text that holds none of them is unbroken. The
values of string literals may hold anything: `escapeText` leaves no line break in them. A text that is
made of unbroken lines is cut into these lines.
-/

namespace UxmlBindings.Code

/-- The characters that end a line of the generated code. -/
def lineBreaks : List Char :=
  ['\n', '\r', '\u0085', '\u2028', '\u2029']

/-- Whether a character ends a line. -/
def isLineBreak (c : Char) : Bool :=
  lineBreaks.contains c

/-- Whether a text stays on one line. -/
def isUnbroken (text : String) : Bool :=
  text.toList.all fun c => !isLineBreak c

/-- What fails for every line break holds of no line break. -/
theorem isLineBreak_of_test {test : Char → Bool} (hbreaks : lineBreaks.all (fun c => !test c) = true)
    {c : Char} (hc : test c = true) : isLineBreak c = false := by
  rw [← Bool.not_eq_true]
  intro hbreak
  have hfails := List.all_eq_true.1 hbreaks c (List.contains_iff_mem.1 hbreak)
  rw [hc] at hfails
  cases hfails

theorem isUnbroken_iff {text : String} :
    isUnbroken text = true ↔ ∀ c ∈ text.toList, isLineBreak c = false := by
  simp [isUnbroken]

/-- A text is unbroken if its characters are, which saves decoding it again. -/
theorem isUnbroken_of_eq_ofList {text : String} {chars : List Char}
    (htext : text = String.ofList chars)
    (hchars : chars.all (fun c => !isLineBreak c) = true) : isUnbroken text = true := by
  rw [htext, isUnbroken, String.toList_ofList]
  exact hchars

@[simp] theorem isUnbroken_append (first second : String) :
    isUnbroken (first ++ second) = (isUnbroken first && isUnbroken second) := by
  simp [isUnbroken]

/-- A character of joined texts is one of the joiner or of a text. -/
theorem mem_toList_intercalate {joiner : String} {texts : List String} {c : Char}
    (hmem : c ∈ (String.intercalate joiner texts).toList) :
    c ∈ joiner.toList ∨ ∃ text ∈ texts, c ∈ text.toList := by
  cases texts with
  | nil => exact absurd hmem List.not_mem_nil
  | cons first rest =>
    induction rest generalizing first with
    | nil => exact .inr ⟨first, List.mem_singleton_self first, by simpa using hmem⟩
    | cons second rest ih =>
      rw [String.intercalate_cons_cons, String.toList_append, String.toList_append,
        List.mem_append, List.mem_append] at hmem
      rcases hmem with (hfirst | hjoiner) | hrest
      · exact .inr ⟨first, List.mem_cons_self, hfirst⟩
      · exact .inl hjoiner
      · exact (ih second hrest).imp_right fun ⟨text, htext, hc⟩ =>
          ⟨text, List.mem_cons_of_mem _ htext, hc⟩

/-- Texts joined by an unbroken one stay on one line if each of them does. -/
theorem isUnbroken_intercalate {joiner : String} {texts : List String}
    (hjoiner : isUnbroken joiner = true) (htexts : texts.all isUnbroken = true) :
    isUnbroken (String.intercalate joiner texts) = true := by
  refine isUnbroken_iff.2 fun c hmem => ?_
  rcases mem_toList_intercalate hmem with hinside | ⟨text, htext, hc⟩
  · exact isUnbroken_iff.1 hjoiner c hinside
  · exact isUnbroken_iff.1 (List.all_eq_true.1 htexts text htext) c hc

/-- The characters that a literal does not hold as they are. -/
def escapedChars : List Char :=
  ['\\', '"', '\n', '\r', '\t', '\x00', '\u0085', '\u2028', '\u2029']

/-- Every other character stands for itself. -/
theorem escapeChar_of_notMem {c : Char} (hplain : c ∉ escapedChars) : escapeChar c = [c] := by
  simp only [escapedChars, List.mem_cons, List.not_mem_nil, or_false, not_or] at hplain
  simp [escapeChar, hplain]

/-- What stands for a character inside a literal holds no line break. -/
theorem all_not_isLineBreak_escapeChar (c : Char) :
    (escapeChar c).all (fun d => !isLineBreak d) = true := by
  by_cases hescaped : c ∈ escapedChars
  · simp only [escapedChars, List.mem_cons, List.not_mem_nil, or_false] at hescaped
    rcases hescaped with rfl | rfl | rfl | rfl | rfl | rfl | rfl | rfl | rfl <;> decide
  · -- every line break is escaped, so a character that stands for itself is none
    rw [escapeChar_of_notMem hescaped]
    simp only [escapedChars, List.mem_cons, List.not_mem_nil, or_false, not_or] at hescaped
    simp [isLineBreak, lineBreaks, hescaped]

/-- Between the quotes of a literal there is no line break. -/
theorem isUnbroken_escapeText (value : String) : isUnbroken (escapeText value) = true := by
  refine isUnbroken_iff.2 fun d hmem => ?_
  rw [escapeText, String.toList_ofList] at hmem
  obtain ⟨c, -, hd⟩ := List.mem_flatMap.1 hmem
  simpa using List.all_eq_true.1 (all_not_isLineBreak_escapeChar c) d hd

/-- A literal stays on one line, whatever its value is. -/
theorem isUnbroken_literal (value : String) : isUnbroken (literal value) = true := by
  rw [literal, isUnbroken_append, isUnbroken_append, isUnbroken_escapeText]
  decide

/-- An indentation stays on one line. -/
theorem isUnbroken_indentation (depth : Nat) : isUnbroken (indentation depth) = true := by
  refine isUnbroken_iff.2 fun c hmem => ?_
  rw [indentation, String.toList_ofList] at hmem
  rw [List.eq_of_mem_replicate hmem]
  decide

/-! ## Lines of a text -/

/-- An unbroken line ends in no carriage return, so it is a line as it stands. -/
theorem withoutReturn_of_isUnbroken {line : String} (hline : isUnbroken line = true) :
    Text.withoutReturn line.toList = line.toList := by
  refine if_neg fun hreturn => ?_
  have hbreak := isUnbroken_iff.1 hline '\r' (List.mem_of_getLast? hreturn)
  cases hbreak

/-- Unbroken lines at the head of a text are lines of it. -/
theorem lines_textOfLines_append {lines : List String} (hlines : lines.all isUnbroken = true)
    (rest : List Char) :
    Text.lines ((textOfLines lines).toList ++ rest) =
      lines.map (·.toList) ++ Text.lines rest := by
  induction lines with
  | nil => rfl
  | cons line more ih =>
    rw [List.all_cons, Bool.and_eq_true] at hlines
    have hend : '\n' ∉ line.toList := fun hmem => by cases isUnbroken_iff.1 hlines.1 '\n' hmem
    have hchars : (textOfLines (line :: more)).toList ++ rest =
        line.toList ++ '\n' :: ((textOfLines more).toList ++ rest) := by
      simp [textOfLines]
    rw [hchars, Text.lines_append_cons hend, withoutReturn_of_isUnbroken hlines.1, ih hlines.2]
    rfl

/-- A text that is made of unbroken lines has these lines and no others. -/
theorem lines_textOfLines {lines : List String} (hlines : lines.all isUnbroken = true) :
    Text.lines (textOfLines lines).toList = lines.map (·.toList) := by
  have h := lines_textOfLines_append hlines []
  rwa [List.append_nil, show Text.lines [] = [] from rfl, List.append_nil] at h

/-- A text on one line has that line, if it is not empty. -/
theorem lines_of_isUnbroken {text : String} (htext : isUnbroken text = true)
    (hempty : text.toList ≠ []) : Text.lines text.toList = [text.toList] := by
  have hend : '\n' ∉ text.toList := fun hmem => by cases isUnbroken_iff.1 htext '\n' hmem
  simp [Text.lines, Text.splitOn_of_notMem hend, hempty]

/-- The only line break in a text that is made of unbroken lines is the line feed. -/
theorem eq_lineFeed_of_mem_textOfLines {lines : List String} (hlines : lines.all isUnbroken = true)
    {c : Char} (hmem : c ∈ (textOfLines lines).toList) (hbreak : isLineBreak c = true) : c = '\n' := by
  rw [textOfLines, String.toList_join, List.mem_flatMap] at hmem
  obtain ⟨ended, hended, hc⟩ := hmem
  obtain ⟨line, hline, rfl⟩ := List.mem_map.1 hended
  rw [String.toList_append, List.mem_append] at hc
  rcases hc with hinside | hlast
  · rw [isUnbroken_iff.1 (List.all_eq_true.1 hlines line hline) c hinside] at hbreak
    cases hbreak
  · simpa using hlast

end UxmlBindings.Code
