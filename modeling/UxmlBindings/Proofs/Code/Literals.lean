import UxmlBindings.Proofs.Code.LineBreaks
import UxmlBindings.Proofs.Json.Reading

/-!
# Literals are read back

A string literal is read from its opening quote up to the first quote that no backslash escapes. An
escape sequence stands for one character, or for a UTF-16 unit given by four hexadecimal digits, and a
line break inside a literal is an error. What `literal` writes ends at its own closing quote, whatever
follows, and its value is the text that was written.
-/

namespace UxmlBindings.Code

open Json.Token (Piece unit? withPiece joinPieces joinPieces_unit_cons length_le_of_map_withPiece)

/-- The character that a backslash and a letter stand for inside a literal. -/
def simpleEscape? : Char → Option Char
  | '\\' => some '\\'
  | '"' => some '"'
  | 'n' => some '\n'
  | 'r' => some '\r'
  | 't' => some '\t'
  | '0' => some '\x00'
  | _ => none

/-- Reads the pieces of a literal up to its closing quote, and what follows it. -/
def readLiteralPieces : List Char → Option (List Piece × List Char)
  | [] => none
  | '"' :: rest => some ([], rest)
  | '\\' :: 'u' :: first :: second :: third :: fourth :: rest =>
    match unit? first second third fourth with
    | some code => (readLiteralPieces rest).map (withPiece (.unit code))
    | none => none
  | '\\' :: letter :: rest =>
    match simpleEscape? letter with
    | some c => (readLiteralPieces rest).map (withPiece (.char c))
    | none => none
  | c :: rest =>
    if isLineBreak c || c == '\\' then none
    else (readLiteralPieces rest).map (withPiece (.char c))

/-- Reads a literal from its opening quote on: its value and what follows it. -/
def readLiteral? : List Char → Option (String × List Char)
  | '"' :: text => do
    let (pieces, rest) ← readLiteralPieces text
    let chars ← joinPieces pieces
    return (String.ofList chars, rest)
  | _ => none

/-- The pieces of a literal take up some of the text. -/
theorem length_le_of_readLiteralPieces {text rest : List Char} {pieces : List Piece}
    (h : readLiteralPieces text = some (pieces, rest)) : rest.length ≤ text.length := by
  fun_induction readLiteralPieces text generalizing pieces with
  | case1 => simp at h
  | case2 tail => simp_all
  | case3 first second third fourth tail code _ ih =>
    have := length_le_of_map_withPiece ih h
    simp only [List.length_cons]
    omega
  | case4 => simp at h
  | case5 letter tail _ c _ ih =>
    have := length_le_of_map_withPiece ih h
    simp only [List.length_cons]
    omega
  | case6 => simp at h
  | case7 => simp at h
  | case8 c tail _ _ _ _ ih =>
    have := length_le_of_map_withPiece ih h
    simp only [List.length_cons]
    omega

/-- A literal takes up some of the text. -/
theorem length_lt_of_readLiteral? {text rest : List Char} {value : String}
    (h : readLiteral? text = some (value, rest)) : rest.length < text.length := by
  unfold readLiteral? at h
  split at h
  · simp only [Option.bind_eq_bind, Option.bind_eq_some_iff, Option.pure_def, Option.some.injEq,
      Prod.mk.injEq] at h
    obtain ⟨⟨pieces, after⟩, hpieces, chars, -, -, rfl⟩ := h
    exact Nat.lt_succ_of_le (length_le_of_readLiteralPieces hpieces)
  · cases h

/-! ## One character -/

/-- A character is written by a backslash and a letter, by the digits of its number, or as it is. -/
theorem escapeChar_cases (c : Char) :
    (∃ letter, escapeChar c = ['\\', letter] ∧ letter ≠ 'u' ∧ simpleEscape? letter = some c) ∨
      (∃ first second third fourth, escapeChar c = ['\\', 'u', first, second, third, fourth] ∧
        unit? first second third fourth = some c.toNat) ∨
      escapeChar c = [c] ∧ c ∉ escapedChars := by
  by_cases hescaped : c ∈ escapedChars
  · simp only [escapedChars, List.mem_cons, List.not_mem_nil, or_false] at hescaped
    rcases hescaped with rfl | rfl | rfl | rfl | rfl | rfl | hdigits
    iterate 6 exact .inl ⟨_, rfl, by decide, rfl⟩
    rcases hdigits with rfl | rfl | rfl <;> exact .inr (.inl ⟨_, _, _, _, rfl, by decide⟩)
  · exact .inr (.inr ⟨escapeChar_of_notMem hescaped, hescaped⟩)

theorem readLiteralPieces_simpleEscape {letter c : Char} (hletter : letter ≠ 'u')
    (hescape : simpleEscape? letter = some c) (rest : List Char) :
    readLiteralPieces ('\\' :: letter :: rest) =
      (readLiteralPieces rest).map (withPiece (.char c)) := by
  rw [readLiteralPieces, hescape]
  rintro _ _ _ _ _ rfl
  exact absurd rfl hletter

theorem readLiteralPieces_plain {c : Char} (hplain : c ∉ escapedChars) (rest : List Char) :
    readLiteralPieces (c :: rest) = (readLiteralPieces rest).map (withPiece (.char c)) := by
  simp only [escapedChars, List.mem_cons, List.not_mem_nil, or_false, not_or] at hplain
  rw [readLiteralPieces, if_neg]
  · simp [isLineBreak, lineBreaks, hplain]
  · exact hplain.2.1
  · exact fun _ _ _ _ _ hc => absurd hc hplain.1
  · exact fun _ _ hc => absurd hc hplain.1

/-- What stands for a character is read as a piece that is joined as the character. -/
theorem readLiteralPieces_escapeChar (c : Char) :
    ∃ piece, (∀ rest, readLiteralPieces (escapeChar c ++ rest) =
        (readLiteralPieces rest).map (withPiece piece)) ∧
      ∀ rest, joinPieces (piece :: rest) = (joinPieces rest).map (c :: ·) := by
  rcases escapeChar_cases c with ⟨letter, hchars, hletter, hescape⟩ |
    ⟨first, second, third, fourth, hchars, hunit⟩ | ⟨hchars, hplain⟩
  · refine ⟨.char c, fun rest => ?_, fun rest => by rw [joinPieces]⟩
    rw [hchars]
    exact readLiteralPieces_simpleEscape hletter hescape rest
  · refine ⟨.unit c.toNat, fun rest => ?_, joinPieces_unit_cons c⟩
    rw [hchars]
    simp only [List.cons_append, List.nil_append, readLiteralPieces, hunit]
  · refine ⟨.char c, fun rest => ?_, fun rest => by rw [joinPieces]⟩
    rw [hchars]
    exact readLiteralPieces_plain hplain rest

/-! ## Whole literals -/

/-- An escaped text and a quote are read as pieces that are joined as the text. -/
theorem readLiteralPieces_escape (text rest : List Char) :
    ∃ pieces, readLiteralPieces (escape text ++ '"' :: rest) = some (pieces, rest) ∧
      joinPieces pieces = some text := by
  induction text with
  | nil => exact ⟨[], rfl, rfl⟩
  | cons c text ih =>
    obtain ⟨pieces, hpieces, htext⟩ := ih
    obtain ⟨piece, hread, hjoin⟩ := readLiteralPieces_escapeChar c
    refine ⟨piece :: pieces, ?_, ?_⟩
    · rw [escape_cons, List.append_assoc, hread, hpieces]
      rfl
    · rw [hjoin, htext, Option.map_some]

/-- A literal is read as its value and ends at its closing quote. -/
theorem readLiteral?_append (value : String) (rest : List Char) :
    readLiteral? ((literal value).toList ++ rest) = some (value, rest) := by
  obtain ⟨pieces, hpieces, htext⟩ := readLiteralPieces_escape value.toList rest
  have hchars : (literal value).toList ++ rest = '"' :: (escape value.toList ++ '"' :: rest) := by
    simp [literal, escapeText]
  rw [hchars, readLiteral?, hpieces]
  simp [htext]

/-- Different texts are escaped differently. -/
theorem escapeText_injective : Function.Injective escapeText := by
  intro first second hsame
  have hread := readLiteral?_append first []
  rw [literal, hsame, ← literal, readLiteral?_append] at hread
  exact (congrArg Prod.fst (Option.some.inj hread)).symm

/-! ## Quotes inside a literal -/

/-- The number of backslashes at the end of a text. -/
def slashesAtEnd (text : List Char) : Nat :=
  (text.reverse.takeWhile (· == '\\')).length

/-- Backslashes at the end of a text go on into what precedes it if nothing else stands there. -/
theorem slashesAtEnd_append (before text : List Char) :
    slashesAtEnd (before ++ text) = slashesAtEnd text ∨
      slashesAtEnd (before ++ text) = slashesAtEnd before + slashesAtEnd text := by
  simp only [slashesAtEnd, List.reverse_append, List.takeWhile_append]
  split
  · rename_i hall
    right
    rw [List.length_append, hall, Nat.add_comm]
  · exact .inl rfl

/-- What stands for a character ends in two backslashes or in none. -/
theorem slashesAtEnd_escapeChar (c : Char) : slashesAtEnd (escapeChar c) % 2 = 0 := by
  by_cases hescaped : c ∈ escapedChars
  · simp only [escapedChars, List.mem_cons, List.not_mem_nil, or_false] at hescaped
    rcases hescaped with rfl | rfl | rfl | rfl | rfl | rfl | rfl | rfl | rfl <;> decide
  · have hslash : c ≠ '\\' := fun h => hescaped (by simp [h, escapedChars])
    simp [escapeChar_of_notMem hescaped, slashesAtEnd, hslash]

/-- A quote among the characters that stand for one has a backslash of its own. -/
theorem eq_of_escapeChar_eq_append {c : Char} {before after : List Char}
    (h : escapeChar c = before ++ '"' :: after) : before = ['\\'] := by
  have hquote : '"' ∈ escapeChar c := by simp [h]
  obtain rfl : c = '"' := by
    revert hquote
    by_cases hescaped : c ∈ escapedChars
    · simp only [escapedChars, List.mem_cons, List.not_mem_nil, or_false] at hescaped
      rcases hescaped with rfl | rfl | rfl | rfl | rfl | rfl | rfl | rfl | rfl <;> decide
    · rw [escapeChar_of_notMem hescaped]
      exact fun hquote => (List.mem_singleton.1 hquote).symm
  have hpair : ['\\', '"'] = before ++ '"' :: after := h
  rcases before with _ | ⟨first, _ | ⟨second, before⟩⟩
  · simp at hpair
  · simp only [List.cons_append, List.cons.injEq] at hpair
    rw [hpair.1]
  · simp at hpair

/-- A quote inside an escaped text follows an odd number of backslashes. -/
theorem slashesAtEnd_of_escape_eq {text before after : List Char}
    (h : escape text = before ++ '"' :: after) : slashesAtEnd before % 2 = 1 := by
  induction text generalizing before with
  | nil => simp at h
  | cons c text ih =>
    rw [escape_cons, List.append_eq_append_iff] at h
    rcases h with ⟨inner, rfl, hinner⟩ | ⟨inner, hchar, hinner⟩
    · -- the quote stands behind the characters for `c`
      have hodd := ih hinner
      have heven := slashesAtEnd_escapeChar c
      have hjoined := slashesAtEnd_append (escapeChar c) inner
      omega
    · cases inner with
      | nil =>
        have hodd : slashesAtEnd [] % 2 = 1 := ih hinner.symm
        cases hodd
      | cons quote inner =>
        obtain ⟨rfl, -⟩ := List.cons.inj hinner
        rw [eq_of_escapeChar_eq_append hchar]
        decide

/-- The literal of every text is read back, whatever follows it: it ends at its own closing quote and
its value is the text. So no two texts are escaped alike. Between the quotes there is no line break,
and every quote there follows an odd number of backslashes, the last of which escapes it. -/
theorem literal_selfContained :
    (∀ (value : String) (rest : List Char),
      readLiteral? ((literal value).toList ++ rest) = some (value, rest)) ∧
    Function.Injective escapeText ∧
    (∀ (value : String), ∀ c ∈ (escapeText value).toList, isLineBreak c = false) ∧
    ∀ (value : String) (before after : List Char),
      (escapeText value).toList = before ++ '"' :: after → slashesAtEnd before % 2 = 1 := by
  refine ⟨readLiteral?_append, escapeText_injective, ?_, ?_⟩
  · intro value
    exact isUnbroken_iff.1 (isUnbroken_escapeText value)
  · intro value before after h
    rw [escapeText, String.toList_ofList] at h
    exact slashesAtEnd_of_escape_eq h

/-- A text with a quote behind backslashes, a null character before a digit and a line separator
before hexadecimal digits is read back, and its quote follows five backslashes. -/
theorem literal_selfContained_mixed :
    readLiteral? ((literal "\\\\\"\x001\u2028ab").toList ++ "\";".toList) =
        some ("\\\\\"\x001\u2028ab", "\";".toList) ∧
      (escapeText "\\\\\"\x001\u2028ab").toList =
        "\\\\\\\\\\".toList ++ '"' :: "\\01\\u2028ab".toList ∧
      slashesAtEnd "\\\\\\\\\\".toList % 2 = 1 := by
  obtain ⟨hreads, -, -, hquotes⟩ := literal_selfContained
  have hescaped : (escapeText "\\\\\"\x001\u2028ab").toList =
      "\\\\\\\\\\".toList ++ '"' :: "\\01\\u2028ab".toList := by
    decide
  exact ⟨hreads _ _, hescaped, hquotes _ _ _ hescaped⟩

example : readLiteral? "\"a\nb\"".toList = none := by decide

end UxmlBindings.Code
