import UxmlBindings.Markup.Event
import UxmlBindings.Proofs.Markup.Description
import UxmlBindings.Proofs.Markup.WrittenAttributes

/-!
# Written tags

A tag of an element is written as its name and its attributes, in any order. If the names are plain,
the tag describes the element, and the search for the bracket that ends the tag passes over all that
stands in it, since a bracket in a value is between quotes or written by reference.
-/

namespace UxmlBindings.Markup

/-- The text writes the contents of a tag for the element: its name, its attributes in some order
and perhaps blank space. -/
inductive WritesTag : List Char → Element → Prop
  | mk {node : Element} {attributes blank : List Char} {written : List (String × String)}
      (writes : WritesAttributes attributes written) (order : written.Perm node.attributes.toList)
      (isBlank : ∀ c ∈ blank, isBlank c) :
      WritesTag (node.writtenTag.toList ++ (attributes ++ blank)) node

/-- The names of an element are plain: its tag, its scope and the keys of its attributes. -/
structure Element.HasPlainNames (node : Element) : Prop where
  tag : isPlainName node.tag.toList = true
  scope : ∀ scope, node.scope = some scope → isPlainName scope.toList = true
  keys : ∀ key, key ∈ node.attributes → isPlainName key.toList = true

section Cutting

/-- The search for the end of a tag passes over a stretch. -/
def PassedOver (stretch : List Char) : Prop :=
  ∀ text, Event.cutTag none (stretch ++ text) =
    (Event.cutTag none text).map fun parts => (stretch ++ parts.1, parts.2)

theorem passedOver_append {first second : List Char} (hfirst : PassedOver first)
    (hsecond : PassedOver second) : PassedOver (first ++ second) := by
  intro text
  rw [List.append_assoc, hfirst, hsecond]
  cases Event.cutTag none text with
  | error fault => rfl
  | ok parts => simp [Except.map]

/-- Whatever passes a test that brackets and quotes fail is neither of them. -/
theorem plain_of_test {test : Char → Bool} {c : Char} (h : test c = true) (hbracket : test '>' = false)
    (hdouble : test '"' = false) (hsingle : test '\x27' = false) : c ≠ '>' ∧ isQuote c = false :=
  ⟨ne_of_test h '>' hbracket, by simp [isQuote, ne_of_test h '"' hdouble, ne_of_test h '\x27' hsingle]⟩

/-- Characters that are neither the bracket nor a quote are passed over. -/
theorem passedOver_of_forall {stretch : List Char}
    (h : ∀ c ∈ stretch, c ≠ '>' ∧ isQuote c = false) : PassedOver stretch := by
  induction stretch with
  | nil =>
    intro text
    cases hcut : Event.cutTag none text <;> simp [hcut, Except.map]
  | cons c rest ih =>
    obtain ⟨hbracket, hquote⟩ := h c List.mem_cons_self
    have hrest := ih fun c h' => h c (List.mem_cons_of_mem _ h')
    intro text
    rw [List.cons_append, Event.cutTag, if_neg hbracket, hquote]
    simp only [Bool.false_eq_true, if_false, hrest text]
    cases Event.cutTag none text <;> rfl

/-- A value is passed over up to its closing quote. -/
theorem cutTag_quoted {raw : List Char} (hraw : '"' ∉ raw) (text : List Char) :
    Event.cutTag (some '"') (raw ++ '"' :: text) =
      (Event.cutTag none text).map fun parts => (raw ++ '"' :: parts.1, parts.2) := by
  induction raw with
  | nil => rw [List.nil_append, Event.cutTag, if_pos rfl]; rfl
  | cons c rest ih =>
    obtain ⟨hc, hrest⟩ := List.ne_and_not_mem_of_not_mem_cons hraw
    rw [List.cons_append, Event.cutTag, if_neg (Ne.symm hc), ih hrest]
    cases Event.cutTag none text <;> rfl

/-- A value between double quotes is passed over. -/
theorem passedOver_quoted {raw : List Char} (hraw : '"' ∉ raw) :
    PassedOver ('"' :: (raw ++ ['"'])) := by
  intro text
  rw [List.cons_append, List.append_assoc, List.singleton_append, Event.cutTag, if_neg (by decide)]
  change (Event.cutTag (some '"') (raw ++ '"' :: text)).map (DocumentType.withFirst '"') = _
  rw [cutTag_quoted hraw]
  cases Event.cutTag none text with
  | error fault => rfl
  | ok parts => simp [Except.map, DocumentType.withFirst]

/-- Written attributes are passed over. -/
theorem passedOver_of_writesAttributes {text : List Char} {written : List (String × String)}
    (writes : WritesAttributes text written)
    (hplain : ∀ entry ∈ written, isPlainName entry.1.toList = true) : PassedOver text := by
  induction writes with
  | nil => exact passedOver_of_forall fun c h => absurd h List.not_mem_nil
  | @cons blank rest key value more apart hblank following ih =>
    have hkey := hplain (key, value) List.mem_cons_self
    have hbefore : PassedOver (blank ++ key.toList ++ ['=']) := by
      refine passedOver_of_forall fun c hc => ?_
      simp only [List.mem_append, List.mem_singleton] at hc
      rcases hc with (hc | hc) | rfl
      · exact plain_of_test (hblank c hc) (by decide) (by decide) (by decide)
      · exact plain_of_test (isNamePart_of_mem hkey hc) (by decide) (by decide) (by decide)
      · decide
    have hrest := ih fun entry h => hplain entry (List.mem_cons_of_mem _ h)
    have hall := passedOver_append (passedOver_append hbefore
      (passedOver_quoted (notMem_writtenValue value))) hrest
    simpa using hall

/-- A tag whose contents are passed over ends at the bracket that follows. -/
theorem cutTag_of_passedOver {contents : List Char} (h : PassedOver contents) (rest : List Char) :
    Event.cutTag none (contents ++ '>' :: rest) = .ok (contents, rest) := by
  rw [h, Event.cutTag, if_pos rfl]
  simp [Except.map]

end Cutting

section Tags

variable {node : Element}

/-- The name in a tag starts with a letter. -/
theorem Element.HasPlainNames.exists_head (plain : node.HasPlainNames) :
    ∃ first following, node.writtenTag.toList = first :: following ∧ first.isAlpha = true := by
  have hstart {name : List Char} (h : isPlainName name = true) (rest : List Char) :
      ∃ first following, name ++ rest = first :: following ∧ first.isAlpha = true := by
    cases name with
    | nil => cases h
    | cons first following => exact ⟨first, _, rfl, (Bool.and_eq_true_iff.1 h).1⟩
  cases hscope : node.scope with
  | none =>
    have h := hstart plain.tag []
    rw [List.append_nil] at h
    simpa [Element.writtenTag, hscope] using h
  | some scope =>
    simpa [Element.writtenTag, hscope] using hstart (plain.scope scope hscope) _

/-- The name in a tag consists of plain names and colons. -/
theorem Element.HasPlainNames.isTagPart (plain : node.HasPlainNames) {c : Char}
    (hmem : c ∈ node.writtenTag.toList) : isTagPart c = true := by
  have hname {name : List Char} (h : isPlainName name = true) (hmem : c ∈ name) :
      Markup.isTagPart c = true :=
    isTagPart_of_isNamePart (isNamePart_of_mem h hmem)
  cases hscope : node.scope with
  | none =>
    simp only [Element.writtenTag, hscope] at hmem
    exact hname plain.tag hmem
  | some scope =>
    simp only [Element.writtenTag, hscope, String.toList_append, List.mem_append] at hmem
    rcases hmem with (hmem | hmem) | hmem
    · exact hname (plain.scope scope hscope) hmem
    · obtain rfl : c = ':' := by simpa using hmem
      rfl
    · exact hname plain.tag hmem

/-- Attributes that were written in some order have the values of the element. -/
theorem lookup_reverse_of_perm {written : List (String × String)} {attributes : Attributes}
    (order : written.Perm attributes.toList) (key : String) :
    attributes[key]? = written.reverse.lookup key := by
  cases hlookup : written.reverse.lookup key with
  | some value =>
    obtain ⟨before, after, hsplit, -⟩ := List.lookup_eq_some_iff.1 hlookup
    have hmem : (key, value) ∈ written := by
      rw [← List.mem_reverse, hsplit]
      simp
    exact Std.ExtTreeMap.mem_toList_iff_getElem?_eq_some.1 (order.mem_iff.1 hmem)
  | none =>
    refine Option.eq_none_iff_forall_ne_some.2 fun value hvalue => ?_
    have hmem := order.mem_iff.2 (Std.ExtTreeMap.mem_toList_iff_getElem?_eq_some.2 hvalue)
    have habsent := List.lookup_eq_none_iff.1 hlookup (key, value) (List.mem_reverse.2 hmem)
    simp at habsent

/-- The keys of written attributes are keys of the element. -/
theorem Element.HasPlainNames.keys_of_perm (plain : node.HasPlainNames)
    {written : List (String × String)} (order : written.Perm node.attributes.toList) :
    ∀ entry ∈ written, isPlainName entry.1.toList = true := by
  intro entry hmem
  have hvalue := Std.ExtTreeMap.mem_toList_iff_getElem?_eq_some.1 (order.mem_iff.1 hmem)
  exact plain.keys entry.1 (Std.ExtTreeMap.mem_iff_isSome_getElem?.2 (by rw [hvalue]; rfl))

/-- What is written after the name in a tag starts with blank space, if there is anything. -/
theorem isBlank_of_head? {attributes blank : List Char} {written : List (String × String)}
    (writes : WritesAttributes attributes written) (hblank : ∀ c ∈ blank, isBlank c) {c : Char}
    (hc : (attributes ++ blank).head? = some c) : isBlank c = true := by
  cases writes with
  | nil => exact hblank c (List.mem_of_mem_head? hc)
  | @cons before _ key value _ apart hbefore _ =>
    cases before with
    | nil => exact absurd rfl apart
    | cons first rest =>
      obtain rfl : first = c := Option.some.inj hc
      exact hbefore first List.mem_cons_self

/-- A written tag says what the element is. -/
theorem WritesTag.describes {contents : List Char} (writes : WritesTag contents node)
    (plain : node.HasPlainNames) :
    (Tag.ofContents contents).name = node.writtenTag.toList ∧
      (Tag.ofContents contents).Describes node := by
  obtain @⟨node, attributes, blank, written, hattributes, order, hblank⟩ := writes
  have hname : ∀ c ∈ node.writtenTag.toList, (!isBlank c) = true := fun c h => by
    rw [isBlank_of_isTagPart (plain.isTagPart h)]
    rfl
  have hcut : (Tag.ofContents (node.writtenTag.toList ++ (attributes ++ blank))) =
      ⟨node.writtenTag.toList, attributes ++ blank⟩ := by
    rw [Tag.ofContents, List.takeWhile_append_of_pos hname, List.dropWhile_append_of_pos hname]
    cases hrest : attributes ++ blank with
    | nil => simp
    | cons c rest =>
      have hc := isBlank_of_head? hattributes hblank (by rw [hrest]; rfl)
      rw [List.takeWhile_cons_of_neg (by simp [hc]), List.dropWhile_cons_of_neg (by simp [hc]),
        List.append_nil]
  have hkeys := plain.keys_of_perm order
  rw [hcut]
  refine ⟨rfl, ⟨by rw [String.ofList_toList], ?_, written,
    readAttributes_written _ hattributes hkeys hblank, lookup_reverse_of_perm order⟩⟩
  cases hscope : node.scope with
  | none => exact fun h => ne_of_test (isNamePart_of_mem plain.tag h) ':' (by decide) rfl
  | some scope =>
    exact fun h => ne_of_test (isNamePart_of_mem (plain.scope scope hscope) h) ':' (by decide) rfl

/-- A written tag starts with a letter. -/
theorem WritesTag.exists_head {contents : List Char} (writes : WritesTag contents node)
    (plain : node.HasPlainNames) :
    ∃ first following, contents = first :: following ∧ first.isAlpha = true := by
  obtain @⟨node, attributes, blank, _, _, _, _⟩ := writes
  obtain ⟨first, following, hname, hfirst⟩ := plain.exists_head
  exact ⟨first, following ++ (attributes ++ blank), by rw [hname, List.cons_append], hfirst⟩

/-- The search for the end of a written tag passes over its contents. -/
theorem WritesTag.passedOver {contents : List Char} (writes : WritesTag contents node)
    (plain : node.HasPlainNames) : PassedOver contents := by
  obtain @⟨node, attributes, blank, written, hattributes, order, hblank⟩ := writes
  have hname : PassedOver node.writtenTag.toList := passedOver_of_forall fun c h =>
    plain_of_test (plain.isTagPart h) (by decide) (by decide) (by decide)
  have hafter : PassedOver blank := passedOver_of_forall fun c h =>
    plain_of_test (hblank c h) (by decide) (by decide) (by decide)
  exact passedOver_append hname (passedOver_append
    (passedOver_of_writesAttributes hattributes (plain.keys_of_perm order)) hafter)

/-- A text ends with a character only if its second part does, or is empty and the first part does. -/
theorem getLast?_append_ne {first second : List Char} {c : Char} (hfirst : first.getLast? ≠ some c)
    (hsecond : second.getLast? ≠ some c) : (first ++ second).getLast? ≠ some c := by
  rw [List.getLast?_append]
  cases hlast : second.getLast? with
  | none => rwa [Option.none_or]
  | some last => rwa [Option.some_or, ← hlast]

/-- Written attributes end with a quote. -/
theorem WritesAttributes.getLast?_ne {text : List Char} {written : List (String × String)}
    (writes : WritesAttributes text written) : text.getLast? ≠ some '/' := by
  induction writes with
  | nil => simp
  | @cons blank rest key value more _ _ _ ih =>
    have hsplit : blank ++ key.toList ++ '=' :: '"' :: (writtenValue value ++ '"' :: rest) =
        blank ++ key.toList ++ '=' :: '"' :: writtenValue value ++ ['"'] ++ rest := by
      simp
    rw [hsplit]
    exact getLast?_append_ne (by rw [List.getLast?_concat]; decide) ih

/-- The contents of a written tag do not end with a slash. -/
theorem WritesTag.getLast?_ne {contents : List Char} (writes : WritesTag contents node)
    (plain : node.HasPlainNames) : contents.getLast? ≠ some '/' := by
  obtain @⟨node, attributes, blank, written, hattributes, order, hblank⟩ := writes
  refine getLast?_append_ne (fun h => ?_) (getLast?_append_ne hattributes.getLast?_ne fun h => ?_)
  · exact ne_of_test (plain.isTagPart (List.mem_of_getLast? h)) '/' (by decide) rfl
  · exact ne_of_test (hblank _ (List.mem_of_getLast? h)) '/' (by decide) rfl

end Tags

end UxmlBindings.Markup
