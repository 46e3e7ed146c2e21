/-!
# Tokens of JSON

A JSON text is cut into tokens: brackets, commas, colons, words, numbers and strings, with blank
space between them. The form of numbers and strings is checked here, and nothing else.
-/

namespace UxmlBindings.Json

/-- A token. -/
inductive Token where
  | openBracket
  | closeBracket
  | openBrace
  | closeBrace
  | comma
  | colon
  | null
  | boolean (value : Bool)
  | number (written : String)
  | string (text : Option String)
  deriving DecidableEq, Repr

namespace Token

/-- Space, tab, line feed and carriage return. -/
def isBlank (c : Char) : Bool :=
  c == ' ' || c == '\t' || c == '\n' || c == '\r'

/-- The value of a hexadecimal digit. -/
def hexDigit? (c : Char) : Option Nat :=
  if '0' ≤ c && c ≤ '9' then some (c.toNat - '0'.toNat)
  else if 'a' ≤ c && c ≤ 'f' then some (c.toNat - 'a'.toNat + 10)
  else if 'A' ≤ c && c ≤ 'F' then some (c.toNat - 'A'.toNat + 10)
  else none

/-- The number that four hexadecimal digits write. -/
def unit? (first second third fourth : Char) : Option Nat := do
  let a ← hexDigit? first
  let b ← hexDigit? second
  let c ← hexDigit? third
  let d ← hexDigit? fourth
  return ((a * 16 + b) * 16 + c) * 16 + d

/-- The character that a backslash and a letter stand for. -/
def shortEscape? : Char → Option Char
  | '"' => some '"'
  | '\\' => some '\\'
  | '/' => some '/'
  | 'b' => some '\x08'
  | 'f' => some '\x0c'
  | 'n' => some '\n'
  | 'r' => some '\r'
  | 't' => some '\t'
  | _ => none

/-- A piece of a string: a character, or a UTF-16 unit given by its number. -/
inductive Piece where
  | char (c : Char)
  | unit (code : Nat)
  deriving DecidableEq, Repr

/-- Puts a piece in front of the pieces of a string that was read. -/
def withPiece (piece : Piece) (parts : List Piece × List Char) : List Piece × List Char :=
  (piece :: parts.1, parts.2)

/-- Reads the pieces of a string up to its closing quote. -/
def readPieces : List Char → Option (List Piece × List Char)
  | [] => none
  | '"' :: rest => some ([], rest)
  | '\\' :: 'u' :: first :: second :: third :: fourth :: rest =>
    match unit? first second third fourth with
    | some code => (readPieces rest).map (withPiece (.unit code))
    | none => none
  | '\\' :: letter :: rest =>
    match shortEscape? letter with
    | some c => (readPieces rest).map (withPiece (.char c))
    | none => none
  | c :: rest =>
    if c.toNat < 0x20 || c == '\\' then none
    else (readPieces rest).map (withPiece (.char c))

/-- Whether a unit is the first half of a surrogate pair. -/
def isHighHalf (code : Nat) : Bool :=
  0xd800 ≤ code && code < 0xdc00

/-- Whether a unit is the second half of a surrogate pair. -/
def isLowHalf (code : Nat) : Bool :=
  0xdc00 ≤ code && code < 0xe000

/-- The character of a surrogate pair. -/
def pairChar (high low : Nat) : Char :=
  Char.ofNat (0x10000 + (high - 0xd800) * 0x400 + (low - 0xdc00))

/-- The characters of a string; there are none if half of a pair stands alone. -/
def joinPieces : List Piece → Option (List Char)
  | [] => some []
  | .char c :: rest => (joinPieces rest).map (c :: ·)
  | .unit high :: .unit low :: rest =>
    if isHighHalf high then
      if isLowHalf low then (joinPieces rest).map (pairChar high low :: ·) else none
    else if isLowHalf high then none
    else (joinPieces (.unit low :: rest)).map (Char.ofNat high :: ·)
  | .unit code :: rest =>
    if isHighHalf code || isLowHalf code then none
    else (joinPieces rest).map (Char.ofNat code :: ·)

/-- Reads a string after its opening quote. -/
def readString (text : List Char) : Option (Token × List Char) :=
  (readPieces text).map fun (pieces, rest) =>
    (.string ((joinPieces pieces).map String.ofList), rest)

/-- The digits at the head of a text, and the rest. -/
def digits (text : List Char) : List Char × List Char :=
  (text.takeWhile Char.isDigit, text.dropWhile Char.isDigit)

/-- The digits at the head of a text if there are any, and the rest. -/
def digits? (text : List Char) : Option (List Char × List Char) :=
  let parts := digits text
  if parts.1.isEmpty then none else some parts

/-- Reads the whole part of a number. A zero at its head is all of it. -/
def readWhole : List Char → Option (List Char × List Char)
  | '0' :: rest => some (['0'], rest)
  | text => digits? text

/-- Reads the part of a number after its point, if there is a point. -/
def readFraction : List Char → Option (List Char × List Char)
  | '.' :: rest => (digits? rest).map fun (written, rest) => ('.' :: written, rest)
  | text => some ([], text)

/-- Reads the sign of an exponent, if there is one. -/
def readSign : List Char → List Char × List Char
  | '+' :: rest => (['+'], rest)
  | '-' :: rest => (['-'], rest)
  | text => ([], text)

/-- Reads the exponent of a number, if there is one. -/
def readExponent (text : List Char) : Option (List Char × List Char) :=
  match text with
  | [] => some ([], [])
  | mark :: rest =>
    if mark = 'e' || mark = 'E' then
      let (sign, rest) := readSign rest
      (digits? rest).map fun (written, rest) => (mark :: sign ++ written, rest)
    else some ([], text)

/-- Reads a number without its sign. -/
def readUnsigned (text : List Char) : Option (List Char × List Char) := do
  let (whole, rest) ← readWhole text
  let (fraction, rest) ← readFraction rest
  let (exponent, rest) ← readExponent rest
  return (whole ++ fraction ++ exponent, rest)

/-- Reads a number. -/
def readNumber : List Char → Option (Token × List Char)
  | '-' :: rest =>
    (readUnsigned rest).map fun (written, rest) => (.number (String.ofList ('-' :: written)), rest)
  | text => (readUnsigned text).map fun (written, rest) => (.number (String.ofList written), rest)

/-- Reads a word that has to stand at the head of the text. -/
def readWord (word : String) (token : Token) (text : List Char) : Option (Token × List Char) :=
  if word.toList.isPrefixOf text then some (token, text.drop word.toList.length) else none

/-- The token at the head of a text that is neither empty nor blank there, and the rest. -/
def read (first : Char) (rest : List Char) : Option (Token × List Char) :=
  match first with
  | '[' => some (.openBracket, rest)
  | ']' => some (.closeBracket, rest)
  | '\x7b' => some (.openBrace, rest)
  | '\x7d' => some (.closeBrace, rest)
  | ',' => some (.comma, rest)
  | ':' => some (.colon, rest)
  | '"' => readString rest
  | 'n' => readWord "ull" .null rest
  | 't' => readWord "rue" (.boolean true) rest
  | 'f' => readWord "alse" (.boolean false) rest
  | _ => readNumber (first :: rest)

/-- The digits and the rest make up the text. -/
theorem append_digits (text : List Char) : (digits text).1 ++ (digits text).2 = text :=
  List.takeWhile_append_dropWhile

/-- One more piece in front leaves the rest as long as it was. -/
theorem length_le_of_map_withPiece {read : Option (List Piece × List Char)} {rest : List Char}
    {bound : Nat} {piece : Piece} {pieces : List Piece}
    (ih : ∀ {pieces : List Piece}, read = some (pieces, rest) → rest.length ≤ bound)
    (h : read.map (withPiece piece) = some (pieces, rest)) : rest.length ≤ bound := by
  obtain ⟨⟨inner, after⟩, found, eq⟩ := Option.map_eq_some_iff.1 h
  obtain ⟨_, rfl⟩ := Prod.mk.inj eq
  exact ih found

theorem length_le_of_readPieces {text rest : List Char} {pieces : List Piece}
    (h : readPieces text = some (pieces, rest)) : rest.length ≤ text.length := by
  fun_induction readPieces text generalizing pieces with
  | case1 => simp at h
  | case2 tail => simp_all
  | case3 first second third fourth tail code _ ih =>
    have := length_le_of_map_withPiece ih h
    simp only [List.length_cons]
    omega
  | case4 => simp at h
  | case5 letter tail _ c _ ih =>
    have := length_le_of_map_withPiece ih h
    simp only [List.length_cons]
    omega
  | case6 => simp at h
  | case7 => simp at h
  | case8 c tail _ _ _ _ ih =>
    have := length_le_of_map_withPiece ih h
    simp only [List.length_cons]
    omega

theorem length_le_of_readString {text rest : List Char} {token : Token}
    (h : readString text = some (token, rest)) : rest.length ≤ text.length := by
  obtain ⟨⟨pieces, after⟩, found, eq⟩ := Option.map_eq_some_iff.1 h
  obtain ⟨_, rfl⟩ := Prod.mk.inj eq
  exact length_le_of_readPieces found

theorem length_lt_of_digits? {text written rest : List Char}
    (h : digits? text = some (written, rest)) : rest.length < text.length := by
  unfold digits? at h
  dsimp only at h
  split at h
  · simp at h
  · rename_i nonempty
    have parts := congrArg List.length (append_digits text)
    have := List.length_pos_iff.2 (mt List.isEmpty_iff.2 nonempty)
    rw [Option.some.inj h] at parts this
    simp only [List.length_append] at parts this
    omega

theorem length_lt_of_readWhole {text written rest : List Char}
    (h : readWhole text = some (written, rest)) : rest.length < text.length := by
  unfold readWhole at h
  split at h
  · simp_all
  · exact length_lt_of_digits? h

theorem length_le_of_readFraction {text written rest : List Char}
    (h : readFraction text = some (written, rest)) : rest.length ≤ text.length := by
  unfold readFraction at h
  split at h
  · obtain ⟨⟨read, after⟩, found, eq⟩ := Option.map_eq_some_iff.1 h
    obtain ⟨_, rfl⟩ := Prod.mk.inj eq
    exact Nat.le_succ_of_le (Nat.le_of_lt (length_lt_of_digits? found))
  · simp_all

theorem length_readSign_le (text : List Char) : (readSign text).2.length ≤ text.length := by
  unfold readSign
  split <;> simp

theorem length_le_of_readExponent {text written rest : List Char}
    (h : readExponent text = some (written, rest)) : rest.length ≤ text.length := by
  unfold readExponent at h
  split at h
  · simp_all
  · rename_i mark tail
    split at h
    · obtain ⟨⟨read, after⟩, found, eq⟩ := Option.map_eq_some_iff.1 h
      obtain ⟨_, rfl⟩ := Prod.mk.inj eq
      exact Nat.le_succ_of_le
        (Nat.le_trans (Nat.le_of_lt (length_lt_of_digits? found)) (length_readSign_le tail))
    · simp_all

theorem length_lt_of_readUnsigned {text written rest : List Char}
    (h : readUnsigned text = some (written, rest)) : rest.length < text.length := by
  simp only [readUnsigned, Option.bind_eq_bind, Option.bind_eq_some_iff, Option.pure_def,
    Option.some.injEq, Prod.mk.injEq] at h
  obtain ⟨⟨_, afterWhole⟩, whole, ⟨_, afterFraction⟩, fraction, ⟨_, afterExponent⟩, exponent, _,
    rfl⟩ := h
  have one := length_lt_of_readWhole whole
  have two := length_le_of_readFraction fraction
  have three := length_le_of_readExponent exponent
  dsimp only at *
  omega

theorem length_lt_of_readNumber {text rest : List Char} {token : Token}
    (h : readNumber text = some (token, rest)) : rest.length < text.length := by
  unfold readNumber at h
  split at h <;> obtain ⟨⟨read, after⟩, found, eq⟩ := Option.map_eq_some_iff.1 h <;>
    obtain ⟨_, rfl⟩ := Prod.mk.inj eq
  · exact Nat.lt_succ_of_lt (length_lt_of_readUnsigned found)
  · exact length_lt_of_readUnsigned found

theorem length_le_of_readWord {word : String} {token found : Token} {text rest : List Char}
    (h : readWord word token text = some (found, rest)) : rest.length ≤ text.length := by
  unfold readWord at h
  split at h
  · obtain ⟨_, rfl⟩ := Prod.mk.inj (Option.some.inj h)
    simp
  · simp at h

/-- Every token takes up some of the text. -/
theorem length_le_of_read {first : Char} {following rest : List Char} {token : Token}
    (h : read first following = some (token, rest)) : rest.length ≤ following.length := by
  unfold read at h
  split at h
  case h_7 => exact length_le_of_readString h
  case h_8 => exact length_le_of_readWord h
  case h_9 => exact length_le_of_readWord h
  case h_10 => exact length_le_of_readWord h
  case h_11 => exact Nat.le_of_lt_succ (length_lt_of_readNumber h)
  all_goals
    obtain ⟨_, rfl⟩ := Prod.mk.inj (Option.some.inj h)
    exact Nat.le_refl _

/-- The tokens of a text. -/
def scan (text : List Char) : Option (List Token) :=
  match text with
  | [] => some []
  | first :: following =>
    if isBlank first then scan following
    else
      match _found : read first following with
      | none => none
      | some (token, rest) => (scan rest).map (token :: ·)
termination_by text.length
decreasing_by
  · simp
  · have := length_le_of_read _found
    simp only [List.length_cons]
    omega

end Token

end UxmlBindings.Json
