import UxmlBindings.Markup.Tag

/-!
# Written attributes

An attribute is written as its key, an equals sign and its value between double quotes. In the value
the five characters that have a name are written by reference. Such a value is read back whatever it
holds, and so are the attributes of a tag, in the order in which they were written.
-/

namespace UxmlBindings.Markup

/-- What is written for a character of an attribute value. -/
def writtenChar (c : Char) : List Char :=
  if c = '&' then "&amp;".toList
  else if c = '<' then "&lt;".toList
  else if c = '>' then "&gt;".toList
  else if c = '"' then "&quot;".toList
  else if c = '\x27' then "&apos;".toList
  else [c]

/-- What is written for an attribute value. -/
def writtenValue (value : String) : List Char :=
  value.toList.flatMap writtenChar

/-- The characters that may stand inside a plain name. -/
def isNamePart (c : Char) : Bool :=
  c.isAlphanum || c == '_' || c == '-' || c == '.'

/-- The characters of a tag with plain names. -/
def isTagPart (c : Char) : Bool :=
  isNamePart c || c == ':'

/-- Whether a name is plain: it starts with an ASCII letter and goes on with letters, digits,
underscores, hyphens and dots. -/
def isPlainName : List Char → Bool
  | [] => false
  | first :: rest => first.isAlpha && rest.all isNamePart

/-- The text writes attributes, each after some blank space. -/
inductive WritesAttributes : List Char → List (String × String) → Prop
  | nil : WritesAttributes [] []
  | cons {blank rest : List Char} {key value : String} {more : List (String × String)}
      (apart : blank ≠ []) (isBlank : ∀ c ∈ blank, isBlank c)
      (following : WritesAttributes rest more) :
      WritesAttributes (blank ++ key.toList ++ '=' :: '"' :: (writtenValue value ++ '"' :: rest))
        ((key, value) :: more)

section Values

/-- A character is written as itself, or as a reference that names it. -/
theorem writtenChar_cases (c : Char) :
    (writtenChar c = [c] ∧ c ≠ '&' ∧ c ≠ '"') ∨
      ∃ name, writtenChar c = '&' :: (name ++ [';']) ∧ name.all (fun c => !endsReference c) ∧
        '"' ∉ name ∧ ∀ start, referredCharacter start name = .ok c := by
  unfold writtenChar
  split
  · rename_i hc
    subst hc
    exact .inr ⟨"amp".toList, rfl, by decide, by decide, fun start => rfl⟩
  split
  · rename_i hc
    subst hc
    exact .inr ⟨"lt".toList, rfl, by decide, by decide, fun start => rfl⟩
  split
  · rename_i hc
    subst hc
    exact .inr ⟨"gt".toList, rfl, by decide, by decide, fun start => rfl⟩
  split
  · rename_i hc
    subst hc
    exact .inr ⟨"quot".toList, rfl, by decide, by decide, fun start => rfl⟩
  split
  · rename_i hc
    subst hc
    exact .inr ⟨"apos".toList, rfl, by decide, by decide, fun start => rfl⟩
  · rename_i hampersand _ _ hquote _
    exact .inl ⟨rfl, hampersand, hquote⟩

/-- A reference is replaced by the character that it names. -/
theorem unescapeFrom_reference (total position : Nat) {name : List Char} {referred : Char}
    (hname : name.all fun c => !endsReference c)
    (hreferred : ∀ start, referredCharacter start name = .ok referred) (rest : List Char) :
    unescapeFrom total position ('&' :: (name ++ ';' :: rest)) =
      (unescapeFrom total (position + byteLength name + 2) rest).map (referred :: ·) := by
  have hpass := List.all_eq_true.1 hname
  have htake : (name ++ ';' :: rest).takeWhile (fun c => !endsReference c) = name := by
    rw [List.takeWhile_append_of_pos hpass]
    simp [endsReference]
  have hdrop : (name ++ ';' :: rest).dropWhile (fun c => !endsReference c) = ';' :: rest := by
    rw [List.dropWhile_append_of_pos hpass]
    simp [endsReference]
  rw [unescapeFrom, if_pos rfl]
  split
  · rename_i after hafter
    rw [hdrop] at hafter
    obtain rfl := (List.cons.inj hafter).2
    dsimp only
    rw [htake, hreferred]
    cases unescapeFrom total (position + byteLength name + 2) rest <;> rfl
  · rename_i hother
    exact absurd hdrop (hother rest)

/-- Written characters are read back, wherever they stand in a value. -/
theorem unescapeFrom_writtenChars (total position : Nat) (value : List Char) :
    unescapeFrom total position (value.flatMap writtenChar) = .ok value := by
  induction value generalizing position with
  | nil => simp [unescapeFrom]
  | cons c rest ih =>
    rw [List.flatMap_cons]
    rcases writtenChar_cases c with ⟨hself, hampersand, -⟩ | ⟨name, hname, hpass, -, hreferred⟩
    · rw [hself, List.singleton_append, unescapeFrom, if_neg hampersand, ih]
      rfl
    · rw [hname, List.cons_append, List.append_assoc, List.singleton_append,
        unescapeFrom_reference total position hpass hreferred, ih]
      rfl

/-- A written value is read back. -/
theorem unescape_writtenValue (value : String) :
    unescape (writtenValue value) = .ok value.toList :=
  unescapeFrom_writtenChars _ 0 value.toList

/-- A written value holds no double quote. -/
theorem notMem_writtenValue (value : String) : '"' ∉ writtenValue value := by
  intro hmem
  obtain ⟨c, -, hc⟩ := List.mem_flatMap.1 hmem
  rcases writtenChar_cases c with ⟨hself, -, hquote⟩ | ⟨name, hname, -, habsent, -⟩
  · rw [hself, List.mem_singleton] at hc
    exact hquote hc.symm
  · rw [hname] at hc
    simp [habsent] at hc

end Values

section Attributes

/-- A character that passes a test is none that fails it. -/
theorem ne_of_test {test : Char → Bool} {c : Char} (h : test c = true) (other : Char)
    (hother : test other = false) : c ≠ other := by
  rintro rfl
  rw [h] at hother
  cases hother

theorem isBlank_of_isTagPart {c : Char} (h : isTagPart c = true) : isBlank c = false := by
  simp [isBlank, ne_of_test h ' ' (by decide), ne_of_test h '\t' (by decide),
    ne_of_test h '\r' (by decide), ne_of_test h '\n' (by decide)]

theorem isTagPart_of_isNamePart {c : Char} (h : isNamePart c = true) : isTagPart c = true := by
  rw [isTagPart, h, Bool.true_or]

theorem isKeyPart_of_isNamePart {c : Char} (h : isNamePart c = true) : Tag.isKeyPart c = true := by
  simp [Tag.isKeyPart, isBlank_of_isTagPart (isTagPart_of_isNamePart h),
    ne_of_test h '=' (by decide)]

/-- The first part of a plain name, too, may stand inside one. -/
theorem isNamePart_of_mem {name : List Char} (h : isPlainName name = true) {c : Char}
    (hmem : c ∈ name) : isNamePart c = true := by
  cases name with
  | nil => cases hmem
  | cons first rest =>
    obtain ⟨hfirst, hrest⟩ := Bool.and_eq_true_iff.1 h
    rcases List.mem_cons.1 hmem with rfl | hmem
    · simp [isNamePart, Char.isAlphanum, hfirst]
    · exact List.all_eq_true.1 hrest c hmem

/-- A value between double quotes is read up to its closing quote. -/
theorem readValue_written (total : Nat) {raw : List Char} (hraw : '"' ∉ raw) (rest : List Char) :
    Tag.readValue total ('"' :: (raw ++ '"' :: rest)) = .ok (raw, rest) := by
  have hstart : ('"' :: (raw ++ '"' :: rest)).dropWhile isBlank = '"' :: (raw ++ '"' :: rest) := rfl
  have hquote : isQuote '"' = true := rfl
  simp only [Tag.readValue, hstart, hquote, if_true, Text.cutAt_singleton_append hraw]

/-- The next attribute is read as it was written. -/
theorem readAttribute_written (total : Nat) {blank name : List Char}
    (hblank : ∀ c ∈ blank, isBlank c) (hname : isPlainName name = true) {raw : List Char}
    (hraw : '"' ∉ raw) (rest : List Char) :
    ∃ shorter, Tag.readAttribute total (blank ++ name ++ '=' :: '"' :: (raw ++ '"' :: rest)) =
      .ok (.attribute name raw rest shorter) := by
  obtain ⟨first, following, rfl⟩ : ∃ first following, name = first :: following := by
    cases name with
    | nil => cases hname
    | cons first following => exact ⟨first, following, rfl⟩
  have hfirst : isBlank first = false :=
    isBlank_of_isTagPart (isTagPart_of_isNamePart (isNamePart_of_mem hname List.mem_cons_self))
  have hpass : ∀ c ∈ following, Tag.isKeyPart c = true := fun c h =>
    isKeyPart_of_isNamePart (isNamePart_of_mem hname (List.mem_cons_of_mem _ h))
  let value := '"' :: (raw ++ '"' :: rest)
  have hstart : (blank ++ first :: following ++ '=' :: value).dropWhile isBlank =
      first :: (following ++ '=' :: value) := by
    rw [List.append_assoc, List.dropWhile_append_of_pos hblank, List.cons_append,
      List.dropWhile_cons_of_neg (by simp [hfirst])]
  have hkey : (following ++ '=' :: value).takeWhile Tag.isKeyPart = following := by
    rw [List.takeWhile_append_of_pos hpass]
    simp [Tag.isKeyPart]
  have hequals : ((following ++ '=' :: value).dropWhile Tag.isKeyPart).dropWhile isBlank =
      '=' :: value := by
    rw [List.dropWhile_append_of_pos hpass]
    rfl
  have hvalue : Tag.readValue total value = .ok (raw, rest) := readValue_written total hraw rest
  have hshorter : rest.length < (blank ++ first :: following ++ '=' :: value).length := by
    simp only [value, List.length_append, List.length_cons]
    omega
  unfold Tag.readAttribute
  split
  · rename_i hnone
    rw [hstart] at hnone
    cases hnone
  · rename_i first' following' hcons
    rw [hstart] at hcons
    obtain ⟨rfl, rfl⟩ := List.cons.inj hcons
    split
    · rename_i afterEquals hafter
      rw [hequals] at hafter
      obtain rfl := (List.cons.inj hafter).2
      split
      · rename_i raw' rest' hread
        rw [hvalue] at hread
        cases hread
        rw [hkey]
        exact ⟨hshorter, rfl⟩
      · rename_i fault hread
        rw [hvalue] at hread
        cases hread
    · rename_i hother
      exact absurd hequals (hother value)

/-- Written attributes are read back, in order. -/
theorem readAttributes_written (total : Nat) {text : List Char} {written : List (String × String)}
    (writes : WritesAttributes text written)
    (hplain : ∀ entry ∈ written, isPlainName entry.1.toList = true) {blank : List Char}
    (hblank : ∀ c ∈ blank, isBlank c) :
    Tag.readAttributes total (text ++ blank) = .ok written := by
  induction writes with
  | nil =>
    have hend : Tag.readAttribute total blank = .ok .finished := by
      have hdrop : blank.dropWhile isBlank = [] := by
        have h : (blank ++ []).dropWhile isBlank = [] := by
          rw [List.dropWhile_append_of_pos hblank]
          rfl
        rwa [List.append_nil] at h
      unfold Tag.readAttribute
      split
      · rfl
      · rename_i hcons
        rw [hdrop] at hcons
        cases hcons
    rw [List.nil_append, Tag.readAttributes, hend]
  | @cons before rest key value more apart hbefore following ih =>
    obtain ⟨shorter, hread⟩ := readAttribute_written total hbefore
      (hplain (key, value) List.mem_cons_self) (notMem_writtenValue value) (rest ++ blank)
    have hrest := ih fun entry h => hplain entry (List.mem_cons_of_mem _ h)
    have htext : before ++ key.toList ++ '=' :: '"' :: (writtenValue value ++ '"' :: rest) ++ blank =
        before ++ key.toList ++ '=' :: '"' :: (writtenValue value ++ '"' :: (rest ++ blank)) := by
      simp
    rw [htext, Tag.readAttributes, hread]
    simp only [unescape_writtenValue, hrest, String.ofList_toList]
    rfl

end Attributes

end UxmlBindings.Markup
