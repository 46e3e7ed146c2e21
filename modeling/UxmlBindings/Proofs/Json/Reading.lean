import UxmlBindings.Json.Printer
import UxmlBindings.Json.Reader

/-!
# Printed values are read back

A printed value is read as the value that was printed. The proof goes through its tokens: scanning
the printed text yields the tokens of the value, whatever the indentation, and the machine reads
these tokens as the value. Values with numbers are left out, and so are strings that have no text;
such a string is printed as the empty one.
-/

namespace UxmlBindings.Json

mutual

/-- The tokens that write a value. -/
def Value.tokens : Value → List Token
  | .null => [.null]
  | .boolean value => [.boolean value]
  | .number written => [.number written]
  | .string text => [.string text]
  | .array [] => [.openBracket, .closeBracket]
  | .array (first :: rest) =>
    .openBracket :: first.tokens ++ Value.itemTokens rest ++ [.closeBracket]
  | .object [] => [.openBrace, .closeBrace]
  | .object ((key, value) :: rest) =>
    .openBrace :: .string key :: .colon :: value.tokens ++ Value.memberTokens rest ++ [.closeBrace]

/-- The tokens of the items after the first one. -/
def Value.itemTokens : List Value → List Token
  | [] => []
  | item :: rest => .comma :: item.tokens ++ Value.itemTokens rest

/-- The tokens of the members after the first one. -/
def Value.memberTokens : List (Option String × Value) → List Token
  | [] => []
  | (key, value) :: rest =>
    .comma :: .string key :: .colon :: value.tokens ++ Value.memberTokens rest

end

mutual

/-- A value without numbers in which every string and every key has a text. -/
def Value.IsPlain : Value → Prop
  | .null => True
  | .boolean _ => True
  | .number _ => False
  | .string text => text.isSome
  | .array items => Value.ArePlain items
  | .object members => Value.MembersPlain members

/-- Values all of which are plain. -/
def Value.ArePlain : List Value → Prop
  | [] => True
  | item :: rest => item.IsPlain ∧ Value.ArePlain rest

/-- Members all of which are plain. -/
def Value.MembersPlain : List (Option String × Value) → Prop
  | [] => True
  | (key, value) :: rest => key.isSome ∧ value.IsPlain ∧ Value.MembersPlain rest

end

namespace Machine

/-- A value is never begun by a closing bracket. -/
theorem next_firstItem_of_takeValue {token : Token} {stack : List Frame} {machine : Machine}
    (htake : takeValue stack token = some machine) :
    next (.firstItem, stack) token = some machine := by
  cases token with
  | closeBracket => cases htake
  | _ => cases stack with
    | nil => exact htake
    | cons frame rest => cases frame <;> exact htake

/-- The first item of an array is read like any other value. -/
theorem run_firstItem {tokens : List Token} {stack : List Frame} {machine : Machine}
    (hvalue : run (.value, stack) tokens = some machine) (hnonempty : tokens ≠ []) :
    run (.firstItem, stack) tokens = some machine := by
  cases tokens with
  | nil => exact absurd rfl hnonempty
  | cons token rest =>
    obtain ⟨later, htake, hrest⟩ := Option.bind_eq_some_iff.1 hvalue
    have hnext : next (.firstItem, stack) token = some later := next_firstItem_of_takeValue htake
    simp only [run, List.foldlM_cons, hnext]
    exact hrest

theorem run_cons {machine later : Machine} {token : Token} (hnext : next machine token = some later)
    (rest : List Token) : run machine (token :: rest) = run later rest := by
  simp [run, hnext]

theorem run_append_of_some {machine later : Machine} {first : List Token}
    (hfirst : run machine first = some later) (second : List Token) :
    run machine (first ++ second) = run later second := by
  rw [run_append, hfirst, Option.bind_some]

end Machine

theorem Value.tokens_ne_nil (value : Value) : value.tokens ≠ [] := by
  unfold Value.tokens
  split <;> simp

open Machine in
mutual

/-- The tokens of a value are read as the value. -/
theorem Value.run_tokens (value : Value) (stack : List Frame) :
    run (.value, stack) value.tokens = some (.continuation value, stack) := by
  cases value with
  | null => rfl
  | boolean value => rfl
  | number written => rfl
  | string text => rfl
  | array items =>
    cases items with
    | nil => rfl
    | cons first rest =>
      have hfirst := run_firstItem (first.run_tokens (.array [] :: stack)) first.tokens_ne_nil
      have hopen : next (.value, stack) .openBracket = some (.firstItem, .array [] :: stack) := rfl
      rw [Value.tokens, List.cons_append, List.cons_append, run_cons hopen, List.append_assoc,
        run_append_of_some hfirst]
      exact Value.run_itemTokens rest [] first stack
  | object members =>
    cases members with
    | nil => rfl
    | cons member rest =>
      obtain ⟨key, value⟩ := member
      have hvalue := value.run_tokens (.member [] key :: stack)
      have hopen : next (.value, stack) .openBrace = some (.firstKey, .object [] :: stack) := rfl
      have hkey : next (.firstKey, .object [] :: stack) (.string key) =
        some (.colon key, .object [] :: stack) := rfl
      have hcolon : next (.colon key, .object [] :: stack) .colon =
        some (.value, .member [] key :: stack) := rfl
      simp only [Value.tokens, List.cons_append, List.append_assoc]
      rw [run_cons hopen, run_cons hkey, run_cons hcolon, run_append_of_some hvalue]
      exact Value.run_memberTokens rest [] key value stack

/-- The tokens of the items after one that was read, and the closing bracket, are read as the rest
of the array. -/
theorem Value.run_itemTokens (rest items : List Value) (item : Value) (stack : List Frame) :
    run (.continuation item, .array items :: stack) (Value.itemTokens rest ++ [.closeBracket]) =
      some (.continuation (.array (items ++ item :: rest)), stack) := by
  cases rest with
  | nil => rfl
  | cons next' rest =>
    have hnext := next'.run_tokens (.array (items ++ [item]) :: stack)
    have hcomma : next (.continuation item, .array items :: stack) .comma =
      some (.value, .array (items ++ [item]) :: stack) := rfl
    rw [Value.itemTokens, List.cons_append, List.cons_append, run_cons hcomma, List.append_assoc,
      run_append_of_some hnext, Value.run_itemTokens rest (items ++ [item]) next' stack,
      List.append_assoc, List.singleton_append]

/-- The tokens of the members after one that was read, and the closing brace, are read as the rest
of the object. -/
theorem Value.run_memberTokens (rest members : List (Option String × Value)) (key : Option String)
    (value : Value) (stack : List Frame) :
    run (.continuation value, .member members key :: stack)
        (Value.memberTokens rest ++ [.closeBrace]) =
      some (.continuation (.object (members ++ (key, value) :: rest)), stack) := by
  cases rest with
  | nil => rfl
  | cons member rest =>
    obtain ⟨key', value'⟩ := member
    let read := members ++ [(key, value)]
    have hvalue := value'.run_tokens (.member read key' :: stack)
    have hcomma : next (.continuation value, .member members key :: stack) .comma =
      some (.key, .object read :: stack) := rfl
    have hkey : next (.key, .object read :: stack) (.string key') =
      some (.colon key', .object read :: stack) := rfl
    have hcolon : next (.colon key', .object read :: stack) .colon =
      some (.value, .member read key' :: stack) := rfl
    simp only [Value.memberTokens, List.cons_append, List.append_assoc]
    rw [run_cons hcomma, run_cons hkey, run_cons hcolon, run_append_of_some hvalue,
      Value.run_memberTokens rest read key' value' stack]
    simp [read]

end

/-- The tokens of a value write it. -/
theorem Value.ofTokens?_tokens (value : Value) : Value.ofTokens? value.tokens = some value := by
  rw [Value.ofTokens?, value.run_tokens]
  rfl

namespace Token

theorem scan_of_isBlank {c : Char} (hblank : isBlank c = true) (rest : List Char) :
    scan (c :: rest) = scan rest := by
  rw [scan, if_pos hblank]

/-- A token that is read comes before those of the rest. -/
theorem scan_of_read {first : Char} {following rest : List Char} {token : Token}
    (hblank : isBlank first = false) (hread : read first following = some (token, rest)) :
    scan (first :: following) = (scan rest).map (token :: ·) := by
  rw [scan, if_neg (by simp [hblank])]
  split
  · rename_i hnone
    rw [hread] at hnone
    cases hnone
  · rename_i other after hsome
    rw [hread] at hsome
    obtain ⟨rfl, rfl⟩ := Prod.mk.inj (Option.some.inj hsome)
    rfl

/-- A new line and its indentation have no tokens. -/
theorem scan_newLine_append (depth : Nat) (rest : List Char) :
    scan (newLine depth ++ rest) = scan rest := by
  have hspaces (count : Nat) : scan (List.replicate count ' ' ++ rest) = scan rest := by
    induction count with
    | zero => rfl
    | succ count ih => rw [List.replicate_succ, List.cons_append, scan_of_isBlank rfl, ih]
  rw [newLine, List.cons_append, scan_of_isBlank rfl, hspaces]

section Strings

/-- A backslash and a letter are read as the character that they stand for. -/
theorem readPieces_shortEscape {letter c : Char} (hletter : letter ≠ 'u')
    (hescape : shortEscape? letter = some c) (rest : List Char) :
    readPieces ('\\' :: letter :: rest) = (readPieces rest).map (withPiece (.char c)) := by
  rw [readPieces, hescape]
  rintro _ _ _ _ _ rfl
  exact absurd rfl hletter

/-- A character that needs no escape is read as itself. -/
theorem readPieces_plain {c : Char} (hquote : c ≠ '"') (hslash : c ≠ '\\') (hprint : 0x20 ≤ c.toNat)
    (rest : List Char) :
    readPieces (c :: rest) = (readPieces rest).map (withPiece (.char c)) := by
  rw [readPieces, if_neg]
  · simp [Nat.not_lt.2 hprint, hslash]
  · exact hquote
  · exact fun _ _ _ _ _ hc => absurd hc hslash
  · exact fun _ _ hc => absurd hc hslash

theorem hexDigit?_hexDigit : ∀ value < 16, hexDigit? (hexDigit value) = some value := by
  decide

/-- The number of a control character is written by two hexadecimal digits. -/
theorem unit?_hexDigits {value : Nat} (hvalue : value < 0x20) :
    unit? '0' '0' (hexDigit (value / 16)) (hexDigit (value % 16)) = some value := by
  have hzero : hexDigit? '0' = some 0 := rfl
  have hhigh := hexDigit?_hexDigit (value / 16) (by omega)
  have hlow := hexDigit?_hexDigit (value % 16) (by omega)
  simp only [unit?, hzero, hhigh, hlow, Option.bind_eq_bind, Option.bind_some, Option.pure_def,
    Option.some.injEq]
  omega

/-- The characters that have an escape of two characters. -/
def shortlyEscaped : List Char :=
  ['"', '\\', '\x08', '\x0c', '\n', '\r', '\t']

theorem escapeChar_of_mem {c : Char} (hmem : c ∈ shortlyEscaped) :
    ∃ letter, escapeChar c = ['\\', letter] ∧ letter ≠ 'u' ∧ shortEscape? letter = some c := by
  simp only [shortlyEscaped, List.mem_cons, List.not_mem_nil, or_false] at hmem
  rcases hmem with rfl | rfl | rfl | rfl | rfl | rfl | rfl <;> exact ⟨_, rfl, by decide, rfl⟩

theorem escapeChar_of_notMem {c : Char} (hmem : c ∉ shortlyEscaped) :
    escapeChar c =
      if c.toNat < 0x20 then
        ['\\', 'u', '0', '0', hexDigit (c.toNat / 16), hexDigit (c.toNat % 16)]
      else [c] := by
  simp only [shortlyEscaped, List.mem_cons, List.not_mem_nil, or_false, not_or] at hmem
  simp [escapeChar, hmem]

/-- The number of a character is joined as the character, since it is no half of a pair. -/
theorem joinPieces_unit_cons (c : Char) (rest : List Piece) :
    joinPieces (.unit c.toNat :: rest) = (joinPieces rest).map (c :: ·) := by
  have hvalid : c.toNat < 0xd800 ∨ 0xdfff < c.toNat ∧ c.toNat < 0x110000 := c.valid
  have hhigh : isHighHalf c.toNat = false := by
    simp only [isHighHalf, Bool.and_eq_false_iff, decide_eq_false_iff_not]
    omega
  have hlow : isLowHalf c.toNat = false := by
    simp only [isLowHalf, Bool.and_eq_false_iff, decide_eq_false_iff_not]
    omega
  cases rest with
  | nil => simp [joinPieces, hhigh, hlow]
  | cons piece rest => cases piece <;> simp [joinPieces, hhigh, hlow]

/-- The characters that stand for one are read as a piece that is joined as this one. -/
theorem readPieces_escapeChar (c : Char) :
    ∃ piece, (∀ rest, readPieces (escapeChar c ++ rest) =
        (readPieces rest).map (withPiece piece)) ∧
      ∀ rest, joinPieces (piece :: rest) = (joinPieces rest).map (c :: ·) := by
  by_cases hshort : c ∈ shortlyEscaped
  · obtain ⟨letter, hchars, hletter, hescape⟩ := escapeChar_of_mem hshort
    refine ⟨.char c, fun rest => ?_, fun rest => by rw [joinPieces]⟩
    rw [hchars]
    exact readPieces_shortEscape hletter hescape rest
  · rw [escapeChar_of_notMem hshort]
    by_cases hcontrol : c.toNat < 0x20
    -- A control character comes back as a unit.
    · refine ⟨.unit c.toNat, fun rest => ?_, joinPieces_unit_cons c⟩
      rw [if_pos hcontrol]
      simp only [List.cons_append, List.nil_append, readPieces, unit?_hexDigits hcontrol]
    · have hquote : c ≠ '"' := fun h => hshort (by simp [h, shortlyEscaped])
      have hslash : c ≠ '\\' := fun h => hshort (by simp [h, shortlyEscaped])
      refine ⟨.char c, fun rest => ?_, fun rest => by rw [joinPieces]⟩
      rw [if_neg hcontrol]
      exact readPieces_plain hquote hslash (by omega) rest

/-- An escaped text and a quote are read as pieces that are joined as the text. -/
theorem readPieces_flatMap_escapeChar (text rest : List Char) :
    ∃ pieces, readPieces (text.flatMap escapeChar ++ '"' :: rest) = some (pieces, rest) ∧
      joinPieces pieces = some text := by
  induction text with
  | nil => exact ⟨[], rfl, rfl⟩
  | cons c text ih =>
    obtain ⟨pieces, hpieces, htext⟩ := ih
    obtain ⟨piece, hread, hjoin⟩ := readPieces_escapeChar c
    refine ⟨piece :: pieces, ?_, ?_⟩
    · rw [List.flatMap_cons, List.append_assoc, hread, hpieces]
      rfl
    · rw [hjoin, htext, Option.map_some]

/-- A text that is written as a string is one token. -/
theorem scan_stringChars_append (text : String) (rest : List Char) :
    scan (stringChars text.toList ++ rest) = (scan rest).map (.string (some text) :: ·) := by
  obtain ⟨pieces, hpieces, htext⟩ := readPieces_flatMap_escapeChar text.toList rest
  have hread : read '"' (text.toList.flatMap escapeChar ++ '"' :: rest) =
      some (.string (some text), rest) := by
    simp [read, readString, hpieces, htext]
  rw [stringChars, List.append_assoc, List.singleton_append, List.cons_append,
    scan_of_read rfl hread]

end Strings

/-- A word is one token. -/
theorem scan_word_append {first : Char} (word : String) {token : Token}
    (hblank : isBlank first = false) (hread : ∀ rest, read first rest = readWord word token rest)
    (rest : List Char) :
    scan (first :: (word.toList ++ rest)) = (scan rest).map (token :: ·) := by
  refine scan_of_read hblank ?_
  rw [hread, readWord, if_pos (List.isPrefixOf_iff_prefix.2 (List.prefix_append _ _)),
    List.drop_left]

section Punctuation

variable (rest : List Char)

theorem scan_openBracket : scan ('[' :: rest) = (scan rest).map (.openBracket :: ·) :=
  scan_of_read rfl rfl

theorem scan_closeBracket : scan (']' :: rest) = (scan rest).map (.closeBracket :: ·) :=
  scan_of_read rfl rfl

theorem scan_openBrace : scan ('\x7b' :: rest) = (scan rest).map (.openBrace :: ·) :=
  scan_of_read rfl rfl

theorem scan_closeBrace : scan ('\x7d' :: rest) = (scan rest).map (.closeBrace :: ·) :=
  scan_of_read rfl rfl

theorem scan_comma : scan (',' :: rest) = (scan rest).map (.comma :: ·) :=
  scan_of_read rfl rfl

theorem scan_colon : scan (':' :: ' ' :: rest) = (scan rest).map (.colon :: ·) := by
  rw [scan_of_read rfl rfl, scan_of_isBlank rfl]

end Punctuation

end Token

open Token

mutual

/-- A printed value that is plain is scanned as its tokens. -/
theorem Value.scan_chars_append (value : Value) (hplain : value.IsPlain) (depth : Nat)
    (rest : List Char) :
    scan (value.chars depth ++ rest) = (scan rest).map (value.tokens ++ ·) := by
  cases value with
  | null => exact scan_word_append "ull" rfl (fun _ => rfl) rest
  | boolean value =>
    cases value with
    | true => exact scan_word_append "rue" rfl (fun _ => rfl) rest
    | false => exact scan_word_append "alse" rfl (fun _ => rfl) rest
  | number written => exact hplain.elim
  | string text =>
    obtain ⟨text, rfl⟩ := Option.isSome_iff_exists.1 hplain
    exact scan_stringChars_append text rest
  | array items =>
    cases items with
    | nil =>
      simp only [Value.chars, Value.tokens, List.cons_append, List.nil_append, scan_openBracket,
        scan_closeBracket, Option.map_map, Function.comp_def]
    | cons first items =>
      obtain ⟨hfirst, hitems⟩ := hplain
      simp only [Value.chars, Value.tokens, List.cons_append, List.append_assoc, List.nil_append,
        scan_openBracket, scan_newLine_append, first.scan_chars_append hfirst,
        Value.scan_itemChars_append items hitems, scan_closeBracket, Option.map_map,
        Function.comp_def]
  | object members =>
    cases members with
    | nil =>
      simp only [Value.chars, Value.tokens, List.cons_append, List.nil_append, scan_openBrace,
        scan_closeBrace, Option.map_map, Function.comp_def]
    | cons member members =>
      obtain ⟨key, value⟩ := member
      obtain ⟨hkey, hvalue, hmembers⟩ := hplain
      obtain ⟨key, rfl⟩ := Option.isSome_iff_exists.1 hkey
      simp only [Value.chars, Value.tokens, optionalStringChars, Option.getD_some,
        List.cons_append, List.append_assoc, List.nil_append, scan_openBrace, scan_newLine_append,
        scan_stringChars_append, scan_colon, value.scan_chars_append hvalue,
        Value.scan_memberChars_append members hmembers, scan_closeBrace, Option.map_map,
        Function.comp_def]

theorem Value.scan_itemChars_append (items : List Value) (hplain : Value.ArePlain items)
    (depth : Nat) (rest : List Char) :
    scan (Value.itemChars depth items ++ rest) = (scan rest).map (Value.itemTokens items ++ ·) := by
  cases items with
  | nil => simp [Value.itemChars, Value.itemTokens]
  | cons item items =>
    obtain ⟨hitem, hitems⟩ := hplain
    simp only [Value.itemChars, Value.itemTokens, List.cons_append, List.append_assoc, scan_comma,
      scan_newLine_append, item.scan_chars_append hitem, Value.scan_itemChars_append items hitems,
      Option.map_map, Function.comp_def]

theorem Value.scan_memberChars_append (members : List (Option String × Value))
    (hplain : Value.MembersPlain members) (depth : Nat) (rest : List Char) :
    scan (Value.memberChars depth members ++ rest) =
      (scan rest).map (Value.memberTokens members ++ ·) := by
  cases members with
  | nil => simp [Value.memberChars, Value.memberTokens]
  | cons member members =>
    obtain ⟨key, value⟩ := member
    obtain ⟨hkey, hvalue, hmembers⟩ := hplain
    obtain ⟨key, rfl⟩ := Option.isSome_iff_exists.1 hkey
    simp only [Value.memberChars, Value.memberTokens, optionalStringChars, Option.getD_some,
      List.cons_append, List.append_assoc, List.nil_append, scan_comma, scan_newLine_append,
      scan_stringChars_append, scan_colon, value.scan_chars_append hvalue,
      Value.scan_memberChars_append members hmembers, Option.map_map, Function.comp_def]

end

/-- A printed value that is plain is read back, whatever blank space follows it. -/
theorem Value.parse?_render_append {value : Value} (hplain : value.IsPlain) {ending : String}
    (hblank : ∀ c ∈ ending.toList, isBlank c = true) :
    Value.parse? (value.render ++ ending) = some value := by
  have hending : ∀ text : List Char, (∀ c ∈ text, isBlank c = true) → scan text = some [] := by
    intro text htext
    induction text with
    | nil => rw [scan]
    | cons c text ih =>
      rw [scan_of_isBlank (htext c (by simp))]
      exact ih fun other hother => htext other (List.mem_cons_of_mem c hother)
  rw [Value.parse?, Value.render, String.toList_append, String.toList_ofList,
    value.scan_chars_append hplain, hending _ hblank, Option.map_some, List.append_nil,
    Option.bind_some, value.ofTokens?_tokens]

end UxmlBindings.Json
