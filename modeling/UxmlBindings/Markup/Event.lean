import UxmlBindings.Markup.DocumentType
import UxmlBindings.Markup.Tag

/-!
# Events of a document

A text is read as a sequence of events: opening tags, self-closing tags, closing tags, and stretches
that carry no element (text, comments, instructions, character data and document type
declarations). The reader checks that a closing tag names the innermost open element; the first
fault ends the sequence. `Event.read` yields the events up to the first fault, and the fault.

The reader stands for one that does not validate. What it follows of such a reader is where each event
ends, that closing tags match up to the blank space after their names, that references outside of tags
are closed, and that a document type has a name. Names, comments, instructions and what a reference
names outside of values are not checked, declared entities are not known, and attributes are taken apart
when the tag is used. Left out are other encodings than UTF-8, positions in the text, and the contents
of events that carry no element.
-/

namespace UxmlBindings.Markup

/-- What a piece of a document means for its tree. -/
inductive Event where
  | opening (tag : Tag)
  | selfClosing (tag : Tag)
  | closing (name : List Char)
  | other
  deriving DecidableEq, Repr

namespace Event

/-- Whether every `&` of a text is followed by a `;` before the next `&` and before the end. -/
def referencesClosed : List Char → Bool
  | [] => true
  | c :: rest =>
    if c = '&' then
      ((rest.dropWhile fun c => !endsReference c).head? == some ';') && referencesClosed rest
    else referencesClosed rest

/-- Cuts the contents of a tag from what follows it. A bracket inside quotes, which are looked at
everywhere, does not end the tag. -/
def cutTag : Option Char → List Char → Except MarkupFault (List Char × List Char)
  | none, [] => .error (.unclosed .tag)
  | some quote, [] => .error (.unclosed (.value quote))
  | none, c :: rest =>
    if c = '>' then .ok ([], rest)
    else (cutTag (if isQuote c then some c else none) rest).map (DocumentType.withFirst c)
  | some quote, c :: rest =>
    (cutTag (if c = quote then none else some quote) rest).map (DocumentType.withFirst c)

/-- The name in a closing tag, without the blank space after it. A name that is all blank is kept.
-/
def closingName (contents : List Char) : List Char :=
  if contents.all isBlank then contents else Text.dropWhileEnd isBlank contents

/-- Whether the text after `<?` begins an XML declaration. -/
def isDeclaration (text : List Char) : Bool :=
  "xml".toList.isPrefixOf text &&
    match text.drop 3 with
    | [] => true
    | c :: _ => isBlank c || c == '?'

/-- The text after an instruction that begins after the opening bracket of `text`. The question mark
that opens an instruction cannot also close it. -/
def afterInstruction (text : List Char) : Except MarkupFault (List Char) :=
  match Text.cutAt ['?', '>'] text with
  | some ([], _) => .error (.unclosed .instruction)
  | some (_, rest) => .ok rest
  | none => .error (.unclosed (if isDeclaration (text.drop 1) then .declaration else .instruction))

/-- The text after a stretch that is introduced by `opening` and closed by `mark`. -/
def afterStretch (construct : Construct) (opening mark text : List Char) :
    Except MarkupFault (List Char) :=
  if opening.isPrefixOf text then
    match Text.cutAt mark (text.drop opening.length) with
    | some (_, rest) => .ok rest
    | none => .error (.unclosed construct)
  else .error (.unclosed construct)

/-- The text after a document type declaration; `text` is what follows `<!`. -/
def afterDocumentType (text : List Char) : Except MarkupFault (List Char) :=
  match DocumentType.cut (.head none) text with
  | none => .error (.unclosed .documentType)
  | some (inside, rest) =>
    if Element.sameIgnoringCase (inside.take 7) "DOCTYPE".toList then
      if (inside.drop 7).all isBlank then .error .documentTypeWithoutName else .ok rest
    else .error (.unclosed .documentType)

/-- The text after a declaration of any kind; `text` is what follows `<!`. -/
def afterDeclaration (text : List Char) : Except MarkupFault (List Char) :=
  match text with
  | '-' :: _ => afterStretch .comment ['-', '-'] ['-', '-', '>'] text
  | '[' :: _ => afterStretch .characterData "[CDATA[".toList [']', ']', '>'] text
  | 'D' :: _ => afterDocumentType text
  | 'd' :: _ => afterDocumentType text
  | _ => .error .unknownMarkup

/-- The event of a tag with the given contents, and the names of the elements open after it. -/
def ofContents (openNames : List (List Char)) (contents : List Char) :
    Except MarkupFault (Event × List (List Char)) :=
  match contents with
  | '/' :: written =>
    let name := closingName written
    match openNames with
    | [] => .error (.strayClosing (String.ofList name))
    | innermost :: outer =>
      if name = innermost then .ok (.closing name, outer)
      else .error (.wrongClosing (String.ofList innermost) (String.ofList name))
  | _ =>
    if contents.getLast? = some '/' then
      .ok (.selfClosing (Tag.ofContents contents.dropLast), openNames)
    else
      let tag := Tag.ofContents contents
      .ok (.opening tag, tag.name :: openNames)

/-- The next event of a text that is not empty, the names open after it and the rest. -/
def next (openNames : List (List Char)) (first : Char) (text : List Char) :
    Except MarkupFault (Event × List (List Char) × List Char) :=
  if first = '<' then
    match text with
    | '!' :: inside => do
      let rest ← afterDeclaration inside
      return (.other, openNames, rest)
    | '?' :: _ => do
      let rest ← afterInstruction text
      return (.other, openNames, rest)
    | _ => do
      let (contents, rest) ← cutTag none text
      let (event, openNames) ← ofContents openNames contents
      return (event, openNames, rest)
  else if referencesClosed ((first :: text).takeWhile (· != '<')) then
    .ok (.other, openNames, text.dropWhile (· != '<'))
  else .error .unclosedReference

/-- What follows a tag is shorter than the text in which its end was found. -/
theorem length_lt_of_cutTag {quote : Option Char} {text contents rest : List Char}
    (h : cutTag quote text = .ok (contents, rest)) : rest.length < text.length := by
  induction text generalizing quote contents with
  | nil => cases quote <;> simp [cutTag] at h
  | cons c tail ih =>
    have step {inner : Option Char}
        (found : (cutTag inner tail).map (DocumentType.withFirst c) = .ok (contents, rest)) :
        rest.length < tail.length := by
      cases cut : cutTag inner tail with
      | error fault => simp [cut, Except.map] at found
      | ok parts =>
        simp only [cut, Except.map, DocumentType.withFirst, Except.ok.injEq, Prod.mk.injEq] at found
        exact ih (cut.trans (congrArg Except.ok (Prod.ext rfl found.2)))
    cases quote with
    | none =>
      simp only [cutTag] at h
      split at h
      · simp only [Except.ok.injEq, Prod.mk.injEq] at h
        simp [h.2]
      · exact Nat.lt_succ_of_lt (step h)
    | some quote =>
      simp only [cutTag] at h
      exact Nat.lt_succ_of_lt (step h)

theorem length_lt_of_afterInstruction {text rest : List Char}
    (h : afterInstruction text = .ok rest) : rest.length < text.length := by
  unfold afterInstruction at h
  split at h
  · simp at h
  · rename_i before after _ found
    rw [← Except.ok.inj h]
    exact Text.length_lt_of_cutAt (by simp) found
  · simp at h

theorem length_lt_of_afterStretch {construct : Construct} {opening mark text rest : List Char}
    (nonempty : mark ≠ []) (h : afterStretch construct opening mark text = .ok rest) :
    rest.length < text.length := by
  unfold afterStretch at h
  split at h
  · split at h
    · rename_i before after found
      rw [← Except.ok.inj h]
      have := Text.length_lt_of_cutAt nonempty found
      simp only [List.length_drop] at this
      omega
    · simp at h
  · simp at h

theorem length_lt_of_afterDocumentType {text rest : List Char}
    (h : afterDocumentType text = .ok rest) : rest.length < text.length := by
  unfold afterDocumentType at h
  split at h
  · simp at h
  · rename_i inside after found
    split at h
    · split at h
      · simp at h
      · rw [← Except.ok.inj h]
        exact DocumentType.length_lt_of_cut found
    · simp at h

theorem length_lt_of_afterDeclaration {text rest : List Char}
    (h : afterDeclaration text = .ok rest) : rest.length < text.length := by
  unfold afterDeclaration at h
  split at h
  · exact length_lt_of_afterStretch (by simp) h
  · exact length_lt_of_afterStretch (by simp) h
  · exact length_lt_of_afterDocumentType h
  · exact length_lt_of_afterDocumentType h
  · simp at h

/-- Every event takes up some of the text. -/
theorem length_le_of_next {openNames after : List (List Char)} {first : Char}
    {text rest : List Char} {event : Event}
    (h : next openNames first text = .ok (event, after, rest)) : rest.length ≤ text.length := by
  unfold next at h
  split at h
  · split at h
    · rename_i inside
      cases found : afterDeclaration inside with
      | error fault => simp [found, bind, Except.bind] at h
      | ok tail =>
        simp only [found, bind, Except.bind, pure, Except.pure, Except.ok.injEq,
          Prod.mk.injEq] at h
        have := length_lt_of_afterDeclaration found
        simp only [← h.2.2, List.length_cons]
        omega
    · rename_i inside
      cases found : afterInstruction ('?' :: inside) with
      | error fault => simp [found, bind, Except.bind] at h
      | ok tail =>
        simp only [found, bind, Except.bind, pure, Except.pure, Except.ok.injEq,
          Prod.mk.injEq] at h
        rw [← h.2.2]
        exact Nat.le_of_lt (length_lt_of_afterInstruction found)
    · cases found : cutTag none text with
      | error fault => simp [found, bind, Except.bind] at h
      | ok parts =>
        cases tag : ofContents openNames parts.1 with
        | error fault => simp [found, tag, bind, Except.bind] at h
        | ok pair =>
          simp only [found, tag, bind, Except.bind, pure, Except.pure, Except.ok.injEq,
            Prod.mk.injEq] at h
          rw [← h.2.2]
          exact Nat.le_of_lt (length_lt_of_cutTag found)
  · split at h
    · simp only [Except.ok.injEq, Prod.mk.injEq] at h
      rw [← h.2.2]
      exact length_dropWhile_le _ _
    · simp at h

/-- The events of a text up to its first fault, inside the given open elements. -/
def readFrom (openNames : List (List Char)) (text : List Char) :
    List Event × Option MarkupFault :=
  match text with
  | [] => ([], none)
  | first :: following =>
    match _step : next openNames first following with
    | .error fault => ([], some fault)
    | .ok (event, openNames, rest) =>
      let (events, fault) := readFrom openNames rest
      (event :: events, fault)
termination_by text.length
decreasing_by
  have := length_le_of_next _step
  simp only [List.length_cons]
  omega

/-- The events of a whole document up to its first fault. A byte order mark at the start is no part
of the text. -/
def read (text : List Char) : List Event × Option MarkupFault :=
  match text with
  | '\uFEFF' :: rest => readFrom [] rest
  | _ => readFrom [] text

end Event

end UxmlBindings.Markup
