import UxmlBindings.Proofs.Binding.ClassNames
import UxmlBindings.Proofs.Text.Letters

/-!
# Members named by identifiers

Which declared names give identifiers. Both names of an element are made of characters of identifiers
and are never reserved, but the case of a letter is changed after the characters have been looked at.
The field has an identifier for a name unless the declared name starts with the dotted capital I,
whose lower case has a mark. The property has one unless a word of the declared name starts with a
letter whose upper case has a mark, or the first word starts with a digit that is not an ASCII one.
-/

namespace UxmlBindings.Code

/-- An underscore may start an identifier. -/
theorem Identifier.isHead_underscore : Identifier.isHead '_' = true := by
  rw [Identifier.isHead, beq_self_eq_true, Bool.or_true]

/-- An underscore may stand inside an identifier. -/
theorem Identifier.isPart_underscore : Identifier.isPart '_' = true :=
  Identifier.isPart_of_isHead Identifier.isHead_underscore

/-- A text that starts with an underscore has the form of an identifier if the rest may stand inside
one. -/
theorem Identifier.hasForm_underscore (rest : List Char) :
    Identifier.hasForm ('_' :: rest) = rest.all Identifier.isPart := by
  rw [Identifier.hasForm, Identifier.isHead_underscore, Bool.true_and]

/-- A text that starts like an identifier has the form of one if all of it may stand inside one. -/
theorem Identifier.hasForm_of_isHead {first : Char} (hfirst : Identifier.isHead first = true)
    (rest : List Char) : Identifier.hasForm (first :: rest) = (first :: rest).all Identifier.isPart := by
  rw [Identifier.hasForm, List.all_cons, hfirst, Identifier.isPart_of_isHead hfirst]

end UxmlBindings.Code

namespace UxmlBindings.Binding

open Code Text

/-! ## Fields -/

/-- A later character of a field name may stand inside an identifier. -/
theorem isPart_fieldPart (c : Char) : Identifier.isPart (fieldPart c) = true := by
  unfold fieldPart
  split
  · rename_i hpart
    exact hpart
  · exact Identifier.isPart_underscore

/-- The head of a field name may stand inside an identifier, except for the dotted capital I. -/
theorem all_isPart_fieldHead {c : Char} (hdotted : c ≠ 'İ') :
    (fieldHead c).all Identifier.isPart = true := by
  unfold fieldHead
  split
  · rename_i hpart
    rcases lowercase_cases hdotted with hsame | ⟨d, hletter, hlower⟩
    · rw [hsame, List.all_cons, hpart, List.all_nil, Bool.and_self]
    · rw [hlower]
      simp [Identifier.isPart, isAlphanumeric, hletter]
  · rw [List.all_cons, Identifier.isPart_underscore, List.all_nil, Bool.and_self]

/-- The field of an element has an identifier for a name exactly if the declared name does not start
with the dotted capital I: the lower case of this letter is an i and a mark, which no identifier
holds. -/
theorem isValid_field_iff (declared : String) :
    Identifier.isValid (MemberName.field declared) = true ↔ declared.toList.head? ≠ some 'İ' := by
  have hreserved : Identifier.isReserved (MemberName.field declared) = false := by
    obtain ⟨rest, hchars⟩ := List.head?_eq_some_iff.1 (head?_fieldChars declared.toList)
    refine Identifier.isReserved_of_not_isLower (c := '_') ?_ (by decide)
    rw [MemberName.field, String.toList_ofList, hchars]
    exact List.mem_cons_self
  rw [Identifier.isValid, hreserved, Bool.not_false, Bool.and_true, MemberName.field,
    String.toList_ofList]
  cases declared.toList with
  | nil => exact iff_of_true (Identifier.hasForm_underscore []) (Option.some_ne_none _).symm
  | cons first rest =>
    have hrest : (rest.map fieldPart).all Identifier.isPart = true := by
      rw [List.all_map]
      exact List.all_eq_true.2 fun c _ => isPart_fieldPart c
    rw [fieldChars, List.cons_append, Identifier.hasForm_underscore, List.all_append, hrest,
      Bool.and_true, List.head?_cons, Ne, Option.some_inj]
    refine ⟨?_, all_isPart_fieldHead⟩
    rintro hparts rfl
    exact absurd hparts (by decide +kernel)

/-- The field for this declared name has a mark in its name. -/
theorem not_isValid_field_dotted :
    ¬ ∀ declared : String, Identifier.isValid (MemberName.field declared) = true := by
  intro hclaim
  exact absurd (hclaim "İstanbul") (by decide +kernel)

/-! ## Words of a property -/

/-- The words of a declared name: the stretches between its separators. -/
def wordsOf (declared : List Char) : List (List Char) :=
  declared.splitOnP isSeparator

/-- A word with a capital first letter. -/
def capitalised : List Char → List Char
  | [] => []
  | first :: rest => uppercase first ++ rest

/-- The characters with which the words of a declared name start. -/
def wordHeads (declared : List Char) : List Char :=
  (wordsOf declared).filterMap List.head?

/-- A property name is made of the capitalised words, but a word that has started goes on as it is. -/
theorem joinWords_eq (declared : List Char) :
    joinWords true declared = (wordsOf declared).flatMap capitalised ∧
      joinWords false declared =
        (wordsOf declared).headD [] ++ (wordsOf declared).tail.flatMap capitalised := by
  induction declared with
  | nil => exact ⟨rfl, rfl⟩
  | cons c rest ih =>
    obtain ⟨word, words, hwords⟩ := List.exists_cons_of_ne_nil (List.splitOnP_ne_nil isSeparator rest)
    rw [wordsOf, hwords] at ih
    rw [joinWords, joinWords, wordsOf, List.splitOnP_cons_eq_if_modifyHead, hwords]
    by_cases hseparator : isSeparator c = true
    · rw [if_pos hseparator, if_pos hseparator, if_pos hseparator, ih.1]
      exact ⟨rfl, rfl⟩
    · rw [if_neg hseparator, if_neg hseparator, if_neg hseparator, ih.2]
      simp [capitalised]

/-- No separator is inside a word. -/
theorem not_isSeparator_of_mem_word {declared word : List Char} (hword : word ∈ wordsOf declared)
    {c : Char} (hc : c ∈ word) : isSeparator c = false := by
  induction declared generalizing word with
  | nil =>
    rw [wordsOf, List.splitOnP_nil, List.mem_singleton] at hword
    rw [hword] at hc
    cases hc
  | cons first rest ih =>
    obtain ⟨next, words, hwords⟩ := List.exists_cons_of_ne_nil (List.splitOnP_ne_nil isSeparator rest)
    rw [wordsOf, hwords] at ih
    rw [wordsOf, List.splitOnP_cons_eq_if_modifyHead, hwords] at hword
    split at hword
    · rcases List.mem_cons.1 hword with rfl | hlater
      · cases hc
      · exact ih hlater hc
    · rename_i hfirst
      rcases List.mem_cons.1 hword with rfl | hlater
      · rcases List.mem_cons.1 hc with rfl | hinside
        · exact Bool.eq_false_iff.2 hfirst
        · exact ih List.mem_cons_self hinside
      · exact ih (List.mem_cons_of_mem _ hlater) hc

/-- What is no separator may stand inside an identifier, and is no underscore. -/
theorem isPart_of_not_isSeparator {c : Char} (hc : isSeparator c = false) :
    Identifier.isPart c = true ∧ c ≠ '_' := by
  simpa [isSeparator] using hc

/-! ## Capitals with marks -/

/-- The letters whose upper case is several characters with a mark among them, which no identifier
holds. They are Latin and Greek letters for whose capital there is no single character. -/
def markedCapitals : List Nat :=
  [0x1f0, 0x390, 0x3b0, 0x1e96, 0x1e97, 0x1e98, 0x1e99, 0x1f50, 0x1f52, 0x1f54, 0x1f56, 0x1fb6,
   0x1fb7, 0x1fc6, 0x1fc7, 0x1fd2, 0x1fd3, 0x1fd6, 0x1fd7, 0x1fe2, 0x1fe3, 0x1fe4, 0x1fe6, 0x1fe7,
   0x1ff6, 0x1ff7]

/-- These have a mark in their upper case, and all others with several characters for an upper case
have letters only. -/
theorem markedCapitals_form :
    markedCapitals.all (fun code =>
      !(uppercase (Char.ofNat code)).all Identifier.isPart) = true ∧
      uppercaseTable.several.all (fun entry => markedCapitals.contains entry.1 ||
        entry.2.all fun code => alphabeticRanges.covers code code) = true := by
  decide +kernel

/-- A letter may stand inside an identifier. -/
theorem isPart_of_isAlphabetic {c : Char} (hc : isAlphabetic c = true) :
    Identifier.isPart c = true := by
  rw [Identifier.isPart, isAlphanumeric, hc, Bool.true_or, Bool.true_or]

/-- The upper case of a part of an identifier is made of such parts, unless it has a mark. -/
theorem all_isPart_uppercase_iff {c : Char} (hc : Identifier.isPart c = true) :
    (uppercase c).all Identifier.isPart = true ↔ c.toNat ∉ markedCapitals := by
  constructor
  · intro hparts hmarked
    have hmark := List.all_eq_true.1 markedCapitals_form.1 _ hmarked
    rw [Char.ofNat_toNat, hparts] at hmark
    cases hmark
  · intro hunmarked
    rcases uppercaseTable.image_cases c with hsame | ⟨codes, hlisted, himage⟩ |
        ⟨run, hrun, hmoves, himage⟩
    · rw [uppercase, hsame, List.all_cons, hc, List.all_nil, Bool.and_self]
    · have hentry := List.all_eq_true.1 markedCapitals_form.2 _ hlisted
      rw [Bool.or_eq_true, List.contains_iff_mem] at hentry
      rw [uppercase, himage, List.all_map]
      refine List.all_eq_true.2 fun code hcode => isPart_of_isAlphabetic (isAlphabetic_ofNat ?_)
      exact containsCode_of_covers
        (List.all_eq_true.1 (hentry.resolve_left hunmarked) code hcode) le_rfl le_rfl
    · have hletter := CaseRun.containsCode_of_moves
        (List.all_eq_true.1 caseTables_form.2.1 run hrun) hmoves
      rw [uppercase, himage, List.all_cons, isPart_of_isAlphabetic (isAlphabetic_ofNat hletter),
        List.all_nil, Bool.and_self]

/-! ## Properties -/

/-- A capitalised word is made of parts of identifiers unless the capital of its head has a mark. -/
theorem all_isPart_capitalised_iff {word : List Char}
    (hword : ∀ c ∈ word, isSeparator c = false) :
    (capitalised word).all Identifier.isPart = true ↔ ∀ c ∈ word.head?, c.toNat ∉ markedCapitals := by
  cases word with
  | nil => simp [capitalised]
  | cons first rest =>
    obtain ⟨hfirst, hrest⟩ := List.forall_mem_cons.1 hword
    have hparts : rest.all Identifier.isPart = true :=
      List.all_eq_true.2 fun c hc => (isPart_of_not_isSeparator (hrest c hc)).1
    rw [capitalised, List.all_append, hparts, Bool.and_true,
      all_isPart_uppercase_iff (isPart_of_not_isSeparator hfirst).1]
    simp

/-- The joined words are made of parts of identifiers unless the capital of some head has a mark. -/
theorem all_isPart_joinWords_iff (declared : List Char) :
    (joinWords true declared).all Identifier.isPart = true ↔
      ∀ c ∈ wordHeads declared, c.toNat ∉ markedCapitals := by
  rw [(joinWords_eq declared).1, List.all_flatMap, List.all_eq_true, wordHeads]
  simp only [List.mem_filterMap]
  constructor
  · rintro hwords c ⟨word, hword, hhead⟩
    exact (all_isPart_capitalised_iff fun _ => not_isSeparator_of_mem_word hword).1
      (hwords word hword) c hhead
  · intro hheads word hword
    exact (all_isPart_capitalised_iff fun _ => not_isSeparator_of_mem_word hword).2
      fun c hhead => hheads c ⟨word, hword, hhead⟩

/-- The joined words start with the capital of the first head, if there is one. -/
theorem flatMap_capitalised (words : List (List Char)) :
    (words.filterMap List.head? = [] ∧ words.flatMap capitalised = []) ∨
      ∃ head heads rest, words.filterMap List.head? = head :: heads ∧
        words.flatMap capitalised = uppercase head ++ rest := by
  induction words with
  | nil => exact .inl ⟨rfl, rfl⟩
  | cons word words ih =>
    cases word with
    | nil => exact ih
    | cons head tail =>
      refine .inr ⟨head, _, tail ++ words.flatMap capitalised, rfl, ?_⟩
      rw [List.flatMap_cons, capitalised, List.append_assoc]

/-- The head of a word is no separator. -/
theorem not_isSeparator_of_mem_wordHeads {declared : List Char} {c : Char}
    (hc : c ∈ wordHeads declared) : isSeparator c = false := by
  obtain ⟨word, hword, hhead⟩ := List.mem_filterMap.1 hc
  exact not_isSeparator_of_mem_word hword (List.mem_of_head? hhead)

/-- The head of a word that starts with no letter is a digit, which is its own capital. -/
theorem uppercase_of_mem_wordHeads {declared : List Char} {c : Char} (hc : c ∈ wordHeads declared)
    (hletter : isAlphabetic c = false) : uppercase c = [c] ∧ Identifier.isHead c = false := by
  have hunderscore := (isPart_of_not_isSeparator (not_isSeparator_of_mem_wordHeads hc)).2
  exact ⟨uppercase_of_not_isAlphabetic hletter, by simp [Identifier.isHead, hletter, hunderscore]⟩

/-- The first character of a property name is no small letter of the Latin alphabet. -/
theorem exists_propertyChars_eq_cons (declared : List Char) :
    ∃ first rest, propertyChars declared = first :: rest ∧ first.isLower = false := by
  unfold propertyChars
  dsimp only
  split
  · exact ⟨'_', _, rfl, by decide⟩
  · rename_i hhead
    rw [(joinWords_eq declared).1] at hhead ⊢
    rcases flatMap_capitalised (wordsOf declared) with ⟨-, hjoined⟩ | ⟨head, heads, rest, -, hjoined⟩
    · rw [hjoined] at hhead
      exact absurd rfl hhead
    · obtain ⟨first, more, hcapital, hsmall, -⟩ := exists_uppercase_eq_cons head
      exact ⟨first, more ++ rest, by rw [hjoined, hcapital, List.cons_append], hsmall⟩

/-- The characters of a property name have the form of an identifier if all may stand inside one and
the first word does not start with a digit beyond the ASCII ones. -/
theorem hasForm_propertyChars_iff (declared : List Char) :
    Identifier.hasForm (propertyChars declared) = true ↔
      (∀ c ∈ (wordHeads declared).head?, isAlphabetic c = true ∨ c.isDigit = true) ∧
        (joinWords true declared).all Identifier.isPart = true := by
  unfold propertyChars
  dsimp only
  have hjoin := (joinWords_eq declared).1
  rcases flatMap_capitalised (wordsOf declared) with ⟨hheads, hjoined⟩ |
      ⟨head, heads, rest, hheads, hjoined⟩
  · rw [hjoin, hjoined, wordHeads, hheads]
    refine iff_of_true (Identifier.hasForm_underscore []) ⟨fun c hc => ?_, rfl⟩
    exact absurd hc (Option.not_mem_none c)
  · rw [← hjoin] at hjoined
    have hmem : head ∈ wordHeads declared := by
      rw [wordHeads, hheads]
      exact List.mem_cons_self
    have hfirst : (∀ c ∈ (wordHeads declared).head?, isAlphabetic c = true ∨ c.isDigit = true) ↔
        (isAlphabetic head = true ∨ head.isDigit = true) := by
      rw [wordHeads, hheads]
      simp
    rw [hfirst]
    by_cases hletter : isAlphabetic head = true
    · -- the capital is a letter, so an underscore before it would change nothing
      rw [and_iff_right (Or.inl hletter)]
      obtain ⟨first, more, hcapital, -, hcapitalLetter⟩ := exists_uppercase_eq_cons head
      split
      · rw [Identifier.hasForm_underscore]
      · rw [hjoined, hcapital, List.cons_append, Identifier.hasForm_of_isHead]
        rw [Identifier.isHead, hcapitalLetter hletter, Bool.true_or]
    · obtain ⟨hsame, hhead⟩ :=
        uppercase_of_mem_wordHeads hmem (Bool.eq_false_iff.2 hletter)
      have hunderscore : needsUnderscore (joinWords true declared) = head.isDigit := by
        rw [hjoined, hsame]
        rfl
      rw [hunderscore, or_iff_right hletter]
      split
      · rename_i hdigit
        rw [Identifier.hasForm_underscore, and_iff_right hdigit]
      · rename_i hdigit
        rw [hjoined, hsame, List.singleton_append, Identifier.hasForm, hhead, Bool.false_and]
        exact iff_of_false Bool.false_ne_true fun h => hdigit h.1

/-- The property of an element has an identifier for a name exactly if the first word of the declared
name starts with a letter or an ASCII digit, and no word starts with a letter whose capital has a
mark. Where the name is no identifier it is still neither empty nor reserved. -/
theorem isValid_property_iff (declared : String) :
    (MemberName.property declared ≠ "" ∧
        Identifier.isReserved (MemberName.property declared) = false) ∧
      (Identifier.isValid (MemberName.property declared) = true ↔
        (∀ c ∈ (wordHeads declared.toList).head?, isAlphabetic c = true ∨ c.isDigit = true) ∧
          ∀ c ∈ wordHeads declared.toList, c.toNat ∉ markedCapitals) := by
  have hreserved : Identifier.isReserved (MemberName.property declared) = false := by
    obtain ⟨first, rest, hchars, hfirst⟩ := exists_propertyChars_eq_cons declared.toList
    refine Identifier.isReserved_of_not_isLower (c := first) ?_ hfirst
    rw [MemberName.property, String.toList_ofList, hchars]
    exact List.mem_cons_self
  refine ⟨⟨?_, hreserved⟩, ?_⟩
  · rw [MemberName.property, Ne, ← String.toList_inj, String.toList_ofList]
    exact propertyChars_ne_nil _
  · rw [Identifier.isValid, hreserved, Bool.not_false, Bool.and_true, MemberName.property,
      String.toList_ofList, hasForm_propertyChars_iff, all_isPart_joinWords_iff]

/-- The property for this declared name starts with a digit that is not an ASCII one. -/
theorem not_isValid_property_arabicDigit :
    ¬ ∀ declared : String, Identifier.isValid (MemberName.property declared) = true := by
  intro hclaim
  exact absurd (hclaim "٣rd") (by decide +kernel)

end UxmlBindings.Binding
