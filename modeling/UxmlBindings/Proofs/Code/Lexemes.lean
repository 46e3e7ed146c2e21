import UxmlBindings.Code.Identifier
import UxmlBindings.Proofs.Code.Literals
import UxmlBindings.Proofs.Code.Names

/-!
# Lexemes of expressions

The text of an expression is cut into lexemes: words, literals, dots, parentheses and commas, with
blanks between them. A word goes on as long as characters of identifiers follow. If its names are
identifiers, an expression is cut into its own lexemes, whatever its literals hold.
-/

namespace UxmlBindings.Code

/-- A lexeme. -/
inductive Lexeme where
  | word (name : String)
  | literal (value : String)
  | dot
  | guardedDot
  | opening
  | closing
  | comma
  deriving DecidableEq, Repr

/-- The dot of an access, with a question mark if the access is guarded. -/
def Lexeme.ofAccess (guarded : Bool) : Lexeme :=
  if guarded then .guardedDot else .dot

mutual

/-- The lexemes that write an expression. -/
def Expression.lexemes : Expression → List Lexeme
  | .ident name => [.word name]
  | .string value => [.literal value]
  | .member target name guarded => target.lexemes ++ [Lexeme.ofAccess guarded, .word name]
  | .call callee arguments =>
    callee.lexemes ++ .opening :: Expression.listLexemes arguments ++ [.closing]
  | .cast typeName value => .opening :: .word typeName :: .closing :: value.lexemes
  | .construct typeName arguments =>
    .word "new" :: .word typeName :: .opening :: Expression.listLexemes arguments ++ [.closing]

/-- The lexemes that write a list of arguments. -/
def Expression.listLexemes : List Expression → List Lexeme
  | [] => []
  | [only] => only.lexemes
  | first :: second :: rest => first.lexemes ++ .comma :: Expression.listLexemes (second :: rest)

end

namespace Lexeme

/-- The lexeme at the head of a text that is not blank there, and the rest. -/
def read (first : Char) (following : List Char) : Option (Lexeme × List Char) :=
  if Identifier.isHead first then
    some (.word (String.ofList (first :: following.takeWhile Identifier.isPart)),
      following.dropWhile Identifier.isPart)
  else
    match first, following with
    | '.', rest => some (.dot, rest)
    | '?', '.' :: rest => some (.guardedDot, rest)
    | '(', rest => some (.opening, rest)
    | ')', rest => some (.closing, rest)
    | ',', rest => some (.comma, rest)
    | '"', rest => (readLiteral? ('"' :: rest)).map fun (value, rest) => (.literal value, rest)
    | _, _ => none

/-- A lexeme takes up some of the text. -/
theorem length_le_of_read {first : Char} {following rest : List Char} {lexeme : Lexeme}
    (h : read first following = some (lexeme, rest)) : rest.length ≤ following.length := by
  unfold read at h
  split at h
  · obtain ⟨_, rfl⟩ := Prod.mk.inj (Option.some.inj h)
    exact (List.dropWhile_suffix _).length_le
  · split at h
    case h_6 text =>
      obtain ⟨⟨value, after⟩, hliteral, eq⟩ := Option.map_eq_some_iff.1 h
      obtain ⟨_, rfl⟩ := Prod.mk.inj eq
      exact Nat.le_of_lt_succ (length_lt_of_readLiteral? hliteral)
    case h_7 => cases h
    all_goals
      obtain ⟨_, rfl⟩ := Prod.mk.inj (Option.some.inj h)
      simp

/-- The lexemes of a text. -/
def scan (text : List Char) : Option (List Lexeme) :=
  match text with
  | [] => some []
  | first :: following =>
    if first = ' ' then scan following
    else
      match _found : read first following with
      | none => none
      | some (lexeme, rest) => (scan rest).map (lexeme :: ·)
termination_by text.length
decreasing_by
  · simp
  · have := length_le_of_read _found
    simp only [List.length_cons]
    omega

theorem scan_space (rest : List Char) : scan (' ' :: rest) = scan rest := by
  rw [scan, if_pos rfl]

/-- A lexeme that is read comes before those of the rest. -/
theorem scan_of_read {first : Char} {following rest : List Char} {lexeme : Lexeme}
    (hblank : first ≠ ' ') (hread : read first following = some (lexeme, rest)) :
    scan (first :: following) = (scan rest).map (lexeme :: ·) := by
  rw [scan, if_neg hblank]
  split
  · rename_i hnone
    rw [hread] at hnone
    cases hnone
  · rename_i other after hsome
    rw [hread] at hsome
    obtain ⟨rfl, rfl⟩ := Prod.mk.inj (Option.some.inj hsome)
    rfl

section Punctuation

variable (rest : List Char)

theorem scan_dot : scan ('.' :: rest) = (scan rest).map (.dot :: ·) :=
  scan_of_read (by decide) (if_neg (by decide))

theorem scan_guardedDot : scan ('?' :: '.' :: rest) = (scan rest).map (.guardedDot :: ·) :=
  scan_of_read (by decide) (if_neg (by decide))

theorem scan_opening : scan ('(' :: rest) = (scan rest).map (.opening :: ·) :=
  scan_of_read (by decide) (if_neg (by decide))

theorem scan_closing : scan (')' :: rest) = (scan rest).map (.closing :: ·) :=
  scan_of_read (by decide) (if_neg (by decide))

theorem scan_comma : scan (',' :: ' ' :: rest) = (scan rest).map (.comma :: ·) := by
  have hcomma : scan (',' :: ' ' :: rest) = (scan (' ' :: rest)).map (.comma :: ·) :=
    scan_of_read (by decide) (if_neg (by decide))
  rw [hcomma, scan_space]

end Punctuation

/-- A literal is one lexeme. -/
theorem scan_literal_append (value : String) (rest : List Char) :
    scan ((Code.literal value).toList ++ rest) = (scan rest).map (.literal value :: ·) := by
  have hchars : (Code.literal value).toList ++ rest =
      '"' :: (escape value.toList ++ '"' :: rest) := by
    simp [Code.literal, escapeText]
  have hliteral := readLiteral?_append value rest
  rw [hchars] at hliteral ⊢
  refine scan_of_read (by decide) ((if_neg (by decide)).trans ?_)
  simp only [hliteral, Option.map_some]

/-- Whether no word goes on into a text. -/
def EndsWord (rest : List Char) : Prop :=
  ∀ c ∈ rest.head?, Identifier.isPart c = false

theorem endsWord_cons {c : Char} (hc : Identifier.isPart c = false) (rest : List Char) :
    EndsWord (c :: rest) := by
  rintro d hd
  obtain rfl := Option.some.inj hd
  exact hc

/-- A word is one lexeme if it does not go on. -/
theorem scan_word_append {name : String} (hform : Identifier.hasForm name.toList = true)
    {rest : List Char} (hrest : EndsWord rest) :
    scan (name.toList ++ rest) = (scan rest).map (.word name :: ·) := by
  cases hchars : name.toList with
  | nil => simp [hchars, Identifier.hasForm] at hform
  | cons first following =>
    rw [hchars, Identifier.hasForm, Bool.and_eq_true] at hform
    obtain ⟨hhead, hparts⟩ := hform
    have hparts' := List.all_eq_true.1 hparts
    have hstop : rest.takeWhile Identifier.isPart = [] ∧ rest.dropWhile Identifier.isPart = rest := by
      cases rest with
      | nil => exact ⟨rfl, rfl⟩
      | cons c rest => simp [hrest c rfl]
    have hblank : first ≠ ' ' := by
      rintro rfl
      exact absurd hhead (by decide)
    rw [List.cons_append]
    refine scan_of_read hblank ((if_pos hhead).trans ?_)
    rw [List.takeWhile_append_of_pos hparts', List.dropWhile_append_of_pos hparts', hstop.1, hstop.2,
      List.append_nil, ← hchars, String.ofList_toList]

end Lexeme

open Lexeme

/-- The text of an access is cut into its lexeme. -/
theorem scan_access_append (guarded : Bool) (rest : List Char) :
    scan ((if guarded then "?." else ".").toList ++ rest) =
      (scan rest).map (Lexeme.ofAccess guarded :: ·) := by
  cases guarded with
  | false => exact scan_dot rest
  | true => exact scan_guardedDot rest

theorem endsWord_access (guarded : Bool) (rest : List Char) :
    EndsWord ((if guarded then "?." else ".").toList ++ rest) := by
  cases guarded with
  | false => exact endsWord_cons (by decide) _
  | true => exact endsWord_cons (by decide) _

theorem toList_parentheses : "(".toList = ['('] ∧ ")".toList = [')'] :=
  ⟨rfl, rfl⟩

theorem hasForm_of_isValid {name : String} (hname : Identifier.isValid name = true) :
    Identifier.hasForm name.toList = true :=
  (Bool.and_eq_true_iff.1 hname).1

mutual

/-- The text of an expression whose names are identifiers is cut into the lexemes of the expression. -/
theorem Expression.scan_render_append (expression : Expression)
    (hnames : ∀ name ∈ expression.names, Identifier.isValid name = true) {rest : List Char}
    (hrest : EndsWord rest) :
    scan (expression.render.toList ++ rest) = (scan rest).map (expression.lexemes ++ ·) := by
  cases expression with
  | ident name =>
    exact scan_word_append (hasForm_of_isValid (hnames name (List.mem_singleton_self name))) hrest
  | string value => exact scan_literal_append value rest
  | member target name guarded =>
    simp only [names, List.forall_mem_append, List.forall_mem_singleton] at hnames
    obtain ⟨htarget, hname⟩ := hnames
    simp only [render, lexemes, String.toList_append, List.append_assoc,
      target.scan_render_append htarget (endsWord_access guarded _), scan_access_append,
      scan_word_append (hasForm_of_isValid hname) hrest, Option.map_map, Function.comp_def,
      List.cons_append, List.nil_append]
  | call callee arguments =>
    rw [names, List.forall_mem_append] at hnames
    obtain ⟨hcallee, harguments⟩ := hnames
    have hopening : ∀ rest, EndsWord ('(' :: rest) := endsWord_cons (by decide)
    have hclosing : ∀ rest, EndsWord (')' :: rest) := endsWord_cons (by decide)
    simp only [render, lexemes, toList_parentheses, String.toList_append, List.append_assoc,
      List.cons_append, List.nil_append, callee.scan_render_append hcallee (hopening _),
      scan_opening, Expression.scan_renderList_append arguments harguments (hclosing _),
      scan_closing, Option.map_map, Function.comp_def]
  | cast typeName value =>
    rw [names, List.forall_mem_cons] at hnames
    obtain ⟨htype, hvalue⟩ := hnames
    have hclosing : ∀ rest, EndsWord (')' :: rest) := endsWord_cons (by decide)
    simp only [render, lexemes, toList_parentheses, String.toList_append, List.append_assoc,
      List.cons_append, List.nil_append, scan_opening,
      scan_word_append (hasForm_of_isValid htype) (hclosing _), scan_closing,
      value.scan_render_append hvalue hrest, Option.map_map, Function.comp_def]
  | construct typeName arguments =>
    rw [names, List.forall_mem_cons] at hnames
    obtain ⟨htype, harguments⟩ := hnames
    have hblank : ∀ rest, EndsWord (' ' :: rest) := endsWord_cons (by decide)
    have hopening : ∀ rest, EndsWord ('(' :: rest) := endsWord_cons (by decide)
    have hclosing : ∀ rest, EndsWord (')' :: rest) := endsWord_cons (by decide)
    have hnew : "new ".toList = "new".toList ++ [' '] := rfl
    have hform : Identifier.hasForm "new".toList = true := by decide
    simp only [render, lexemes, hnew, toList_parentheses, String.toList_append, List.append_assoc,
      List.cons_append, List.nil_append, scan_word_append hform (hblank _), scan_space,
      scan_word_append (hasForm_of_isValid htype) (hopening _), scan_opening,
      Expression.scan_renderList_append arguments harguments (hclosing _), scan_closing,
      Option.map_map, Function.comp_def]

/-- The text of arguments whose names are identifiers is cut into the lexemes of the arguments. -/
theorem Expression.scan_renderList_append (arguments : List Expression)
    (hnames : ∀ name ∈ Expression.listNames arguments, Identifier.isValid name = true)
    {rest : List Char} (hrest : EndsWord rest) :
    scan ((Expression.renderList arguments).toList ++ rest) =
      (scan rest).map (Expression.listLexemes arguments ++ ·) := by
  cases arguments with
  | nil => simp [renderList, listLexemes]
  | cons first others =>
    rw [listNames, List.forall_mem_append] at hnames
    obtain ⟨hfirst, hothers⟩ := hnames
    cases others with
    | nil => exact first.scan_render_append hfirst hrest
    | cons second others =>
      have hcomma : ∀ rest, EndsWord (',' :: rest) := endsWord_cons (by decide)
      have hjoiner : ", ".toList = [',', ' '] := rfl
      simp only [renderList, listLexemes, hjoiner, String.toList_append, List.append_assoc,
        List.cons_append, List.nil_append, first.scan_render_append hfirst (hcomma _), scan_comma,
        Expression.scan_renderList_append (second :: others) hothers hrest, Option.map_map,
        Function.comp_def]

end

end UxmlBindings.Code
