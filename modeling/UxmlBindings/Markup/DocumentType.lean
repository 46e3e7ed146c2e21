/-!
# Document type declarations

A document type declaration may hold an internal subset in square brackets, with markup of its own.
Nothing in it matters here but where it ends. Before the subset quotes hide everything; inside it,
instructions and comments are skipped as a whole, declarations of entities, attributes and notations
hide what is quoted, and any other markup runs up to its bracket.
-/

namespace UxmlBindings.Markup.DocumentType

/-- Where in a declaration a character stands. -/
inductive Place where
  /-- Before the internal subset, perhaps inside a quote. -/
  | head (quote : Option Char)
  | subset
  | instruction
  | comment
  /-- Inside a declaration that may hold quotes. -/
  | declaration (quote : Option Char)
  | otherMarkup
  | tail
  deriving DecidableEq, Repr

/-- Puts a character in front of the first part of a cut text. -/
def withFirst (c : Char) (parts : List Char × List Char) : List Char × List Char :=
  (c :: parts.1, parts.2)

/-- The quote that is open after a character. -/
def quoteAfter (quote : Option Char) (c : Char) : Option Char :=
  match quote with
  | some open' => if c = open' then none else quote
  | none => if c = '"' || c = '\x27' then some c else none

/-- The place that the text after an opening bracket of the internal subset leads to. -/
def placeOfMarkup (text : List Char) : Place :=
  if "!ENTITY".toList.isPrefixOf text || "!ATTLIST".toList.isPrefixOf text ||
      "!NOTATION".toList.isPrefixOf text then .declaration none
  else .otherMarkup

/-- Cuts a text at the bracket that ends the declaration. -/
def cut : Place → List Char → Option (List Char × List Char)
  | _, [] => none
  | .head none, '>' :: rest => some ([], rest)
  | .head none, '[' :: rest => (cut .subset rest).map (withFirst '[')
  | .head quote, c :: rest => (cut (.head (quoteAfter quote c)) rest).map (withFirst c)
  | .subset, ']' :: rest => (cut .tail rest).map (withFirst ']')
  | .subset, '<' :: '?' :: rest =>
    (cut .instruction rest).map fun parts => withFirst '<' (withFirst '?' parts)
  | .subset, '<' :: '!' :: '-' :: '-' :: rest =>
    (cut .comment rest).map fun parts =>
      withFirst '<' (withFirst '!' (withFirst '-' (withFirst '-' parts)))
  | .subset, '<' :: rest => (cut (placeOfMarkup rest) rest).map (withFirst '<')
  | .subset, c :: rest => (cut .subset rest).map (withFirst c)
  | .instruction, '?' :: '>' :: rest =>
    (cut .subset rest).map fun parts => withFirst '?' (withFirst '>' parts)
  | .instruction, c :: rest => (cut .instruction rest).map (withFirst c)
  | .comment, '-' :: '-' :: '>' :: rest =>
    (cut .subset rest).map fun parts => withFirst '-' (withFirst '-' (withFirst '>' parts))
  | .comment, c :: rest => (cut .comment rest).map (withFirst c)
  | .declaration none, '>' :: rest => (cut .subset rest).map (withFirst '>')
  | .declaration quote, c :: rest =>
    (cut (.declaration (quoteAfter quote c)) rest).map (withFirst c)
  | .otherMarkup, '>' :: rest => (cut .subset rest).map (withFirst '>')
  | .otherMarkup, c :: rest => (cut .otherMarkup rest).map (withFirst c)
  | .tail, '>' :: rest => some ([], rest)
  | .tail, c :: rest => (cut .tail rest).map (withFirst c)

/-- What follows the declaration is shorter than the text in which its end was found. -/
theorem length_lt_of_cut {place : Place} {text inside rest : List Char}
    (h : cut place text = some (inside, rest)) : rest.length < text.length := by
  fun_induction cut place text generalizing inside rest <;>
    simp_all [Option.map_eq_some_iff, withFirst] <;> grind

end UxmlBindings.Markup.DocumentType
