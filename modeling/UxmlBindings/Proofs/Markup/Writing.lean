import UxmlBindings.Proofs.Markup.Linear
import UxmlBindings.Proofs.Markup.WrittenTag

/-!
# Written documents are read back

A tree can be written in many ways: its attributes in any order, an element without children with
one tag or with two, and space and comments before, between and after the tags. `parse_of_writes`
says that each of these texts is read as the tree, provided that its names are plain. The tags of
the text are followed one by one: reading a written forest yields a linear form of it and goes on
with what follows.
-/

namespace UxmlBindings.Markup

/-- Space and comments, in which no two hyphens stand together. -/
inductive IsGap : List Char → Prop
  | nil : IsGap []
  | space {c : Char} {rest : List Char} (isSpace : Text.isWhiteSpace c) (following : IsGap rest) :
      IsGap (c :: rest)
  | comment {inside rest : List Char} (apart : ¬ ['-', '-'] <:+: inside) (following : IsGap rest) :
      IsGap ("<!--".toList ++ inside ++ "-->".toList ++ rest)

/-- The text writes trees that follow each other, with gaps around them. -/
inductive Writes : List Char → List Element → Prop
  | nil {gap : List Char} (isGap : IsGap gap) : Writes gap []
  | selfClosing {gap contents after : List Char} {node : Element} {rest : List Element}
      (isGap : IsGap gap) (tag : WritesTag contents node) (childless : node.children = [])
      (following : Writes after rest) :
      Writes (gap ++ '<' :: (contents ++ '/' :: '>' :: after)) (node :: rest)
  | enclosing {gap contents inside blank after : List Char} {node : Element} {rest : List Element}
      (isGap : IsGap gap) (tag : WritesTag contents node) (below : Writes inside node.children)
      (isBlank : ∀ c ∈ blank, isBlank c) (following : Writes after rest) :
      Writes (gap ++ '<' :: (contents ++ '>' :: (inside ++
        '<' :: '/' :: (node.writtenTag.toList ++ blank ++ '>' :: after)))) (node :: rest)

section Events

/-- The tags of a text up to its first fault, inside the given open elements. -/
def readTags (openNames : List (List Char)) (text : List Char) : List Event × Option MarkupFault :=
  ((Event.readFrom openNames text).1.filter Event.isTag, (Event.readFrom openNames text).2)

theorem readTags_nil (openNames : List (List Char)) : readTags openNames [] = ([], none) := by
  rw [readTags, Event.readFrom]
  rfl

/-- After its first event a text is read on. -/
theorem readTags_of_next {openNames later : List (List Char)} {first : Char} {text rest : List Char}
    {event : Event} (h : Event.next openNames first text = .ok (event, later, rest)) :
    readTags openNames (first :: text) =
      ([event].filter Event.isTag ++ (readTags later rest).1, (readTags later rest).2) := by
  have hread : Event.readFrom openNames (first :: text) =
      (event :: (Event.readFrom later rest).1, (Event.readFrom later rest).2) := by
    rw [Event.readFrom]
    split
    · rename_i hstep
      rw [h] at hstep
      cases hstep
    · rename_i hstep
      rw [h] at hstep
      cases hstep
      rfl
  rw [readTags, hread]
  cases event <;> rfl

/-- Text outside tags is skipped up to the next tag if its references are closed. -/
theorem readTags_run (openNames : List (List Char)) {c : Char} (htag : c ≠ '<')
    (text : List Char) :
    readTags openNames (c :: text) =
      if Event.referencesClosed ((c :: text).takeWhile (· != '<')) then
        readTags openNames (text.dropWhile (· != '<'))
      else ([], some .unclosedReference) := by
  split
  · rename_i hclosed
    have hnext : Event.next openNames c text =
        .ok (.other, openNames, text.dropWhile (· != '<')) := by
      unfold Event.next
      rw [if_neg htag, if_pos hclosed]
    rw [readTags_of_next hnext]
    rfl
  · rename_i hopen
    have hnext : Event.next openNames c text = .error .unclosedReference := by
      unfold Event.next
      rw [if_neg htag, if_neg hopen]
    rw [readTags, Event.readFrom]
    split
    · rename_i hstep
      rw [hnext] at hstep
      cases hstep
      rfl
    · rename_i hstep
      rw [hnext] at hstep
      cases hstep

/-- Outside tags a character that opens neither a tag nor a reference is skipped. -/
theorem readTags_text (openNames : List (List Char)) {c : Char} (htag : c ≠ '<')
    (hreference : c ≠ '&') (text : List Char) :
    readTags openNames (c :: text) = readTags openNames text := by
  have hclosed (more : List Char) :
      Event.referencesClosed (c :: more) = Event.referencesClosed more := by
    rw [Event.referencesClosed, if_neg hreference]
  rw [readTags_run openNames htag, List.takeWhile_cons_of_pos (by simpa using htag), hclosed]
  cases text with
  | nil => rfl
  | cons d more =>
    by_cases hd : d = '<'
    · subst hd
      rfl
    · rw [readTags_run openNames hd, List.dropWhile_cons_of_pos (by simpa using hd)]

/-- A comment ends at the mark that follows what is inside it. -/
theorem cutAt_comment {inside : List Char} (apart : ¬ ['-', '-'] <:+: inside) (rest : List Char) :
    Text.cutAt ['-', '-', '>'] (inside ++ '-' :: '-' :: '>' :: rest) = some (inside, rest) := by
  induction inside with
  | nil => rfl
  | cons c tail ih =>
    have hnext := ih fun h => apart (h.trans (List.suffix_cons c tail).isInfix)
    have hmark : ¬ ['-', '-', '>'].isPrefixOf (c :: (tail ++ '-' :: '-' :: '>' :: rest)) := by
      intro h
      cases tail with
      | nil => simp at h
      | cons d more =>
        simp only [List.cons_append, List.isPrefixOf, Bool.and_eq_true, beq_iff_eq] at h
        obtain ⟨rfl, rfl, -⟩ := h
        exact apart ⟨[], more, rfl⟩
    rw [List.cons_append, Text.cutAt, if_neg hmark, hnext]
    rfl

/-- A comment is skipped. -/
theorem readTags_comment (openNames : List (List Char)) {inside : List Char}
    (apart : ¬ ['-', '-'] <:+: inside) (rest : List Char) :
    readTags openNames ("<!--".toList ++ inside ++ "-->".toList ++ rest) =
      readTags openNames rest := by
  have hdeclaration : Event.afterDeclaration ('-' :: '-' :: (inside ++ '-' :: '-' :: '>' :: rest)) =
      .ok rest := by
    simp [Event.afterDeclaration, Event.afterStretch, cutAt_comment apart]
  have hnext : Event.next openNames '<' ('!' :: '-' :: '-' ::
      (inside ++ '-' :: '-' :: '>' :: rest)) = .ok (.other, openNames, rest) := by
    rw [Event.next, if_pos rfl, hdeclaration]
    rfl
  have htext : "<!--".toList ++ inside ++ "-->".toList ++ rest =
      '<' :: '!' :: '-' :: '-' :: (inside ++ '-' :: '-' :: '>' :: rest) := by
    simp
  rw [htext, readTags_of_next hnext]
  rfl

/-- Gaps are skipped. -/
theorem readTags_gap (openNames : List (List Char)) {gap : List Char} (isGap : IsGap gap)
    (rest : List Char) : readTags openNames (gap ++ rest) = readTags openNames rest := by
  induction isGap with
  | nil => rfl
  | space isSpace _ ih =>
    rw [List.cons_append, readTags_text openNames (ne_of_test isSpace '<' (by decide))
      (ne_of_test isSpace '&' (by decide)), ih]
  | comment apart _ ih => rw [List.append_assoc, readTags_comment openNames apart, ih]

/-- A tag is what stands between the brackets. -/
theorem next_tag (openNames : List (List Char)) {first : Char} {following : List Char}
    (hdeclaration : first ≠ '!') (hinstruction : first ≠ '?')
    (hpassed : PassedOver (first :: following)) (rest : List Char) :
    Event.next openNames '<' (first :: following ++ '>' :: rest) =
      (Event.ofContents openNames (first :: following)).map fun (event, later) =>
        (event, later, rest) := by
  unfold Event.next
  rw [if_pos rfl]
  split
  · rename_i h
    exact absurd (List.cons.inj h).1 hdeclaration
  · rename_i h
    exact absurd (List.cons.inj h).1 hinstruction
  · rw [cutTag_of_passedOver hpassed]
    simp only [bind, Except.bind]
    cases Event.ofContents openNames (first :: following) <;> rfl

/-- Contents that begin with a letter are those of an opening or a self-closing tag. -/
theorem ofContents_of_isAlpha (openNames : List (List Char)) {first : Char}
    (hfirst : first.isAlpha = true) (following : List Char) :
    Event.ofContents openNames (first :: following) =
      if (first :: following).getLast? = some '/' then
        .ok (.selfClosing (Tag.ofContents (first :: following).dropLast), openNames)
      else
        .ok (.opening (Tag.ofContents (first :: following)),
          (Tag.ofContents (first :: following)).name :: openNames) := by
  unfold Event.ofContents
  split
  · rename_i h
    exact absurd (List.cons.inj h).1 (ne_of_test hfirst '/' (by decide))
  · rfl

/-- A closing tag with a plain name closes the element of this name. -/
theorem ofContents_closing (outer : List (List Char)) {node : Element}
    (plain : node.HasPlainNames) {blank : List Char} (hblank : ∀ c ∈ blank, isBlank c) :
    Event.ofContents (node.writtenTag.toList :: outer)
        ('/' :: (node.writtenTag.toList ++ blank)) =
      .ok (.closing node.writtenTag.toList, outer) := by
  have hname : Event.closingName (node.writtenTag.toList ++ blank) = node.writtenTag.toList := by
    obtain ⟨first, following, hstart, hfirst⟩ := plain.exists_head
    have hsome : ¬ (node.writtenTag.toList ++ blank).all isBlank := by
      rw [hstart, List.cons_append, List.all_cons, isBlank_of_isTagPart (c := first)]
      · simp
      · exact plain.isTagPart (by rw [hstart]; exact List.mem_cons_self)
    rw [Event.closingName, if_neg hsome,
      Text.dropWhileEnd_append (fun c h => isBlank_of_isTagPart (plain.isTagPart h)) hblank]
  simp only [Event.ofContents, hname, if_pos]

/-- A self-closing tag is read as it was written. -/
theorem readTags_selfClosing (openNames : List (List Char)) {contents : List Char} {node : Element}
    (tag : WritesTag contents node) (plain : node.HasPlainNames) (rest : List Char) :
    readTags openNames ('<' :: (contents ++ '/' :: '>' :: rest)) =
      (.selfClosing (Tag.ofContents contents) :: (readTags openNames rest).1,
        (readTags openNames rest).2) := by
  obtain ⟨first, following, rfl, hfirst⟩ := tag.exists_head plain
  have hpassed : PassedOver (first :: (following ++ ['/'])) :=
    passedOver_append (tag.passedOver plain)
      (passedOver_of_forall fun c h => by rw [List.mem_singleton.1 h]; decide)
  have hnext := next_tag openNames (ne_of_test hfirst '!' (by decide))
    (ne_of_test hfirst '?' (by decide)) hpassed rest
  have hlast : (first :: (following ++ ['/'])).getLast? = some '/' := by
    rw [← List.cons_append, List.getLast?_concat]
  have hcontents : (first :: (following ++ ['/'])).dropLast = first :: following := by
    rw [← List.cons_append, List.dropLast_concat]
  rw [ofContents_of_isAlpha openNames hfirst, if_pos hlast, hcontents] at hnext
  have htext : first :: following ++ '/' :: '>' :: rest =
      first :: (following ++ ['/']) ++ '>' :: rest := by
    simp
  rw [htext, readTags_of_next hnext]
  rfl

/-- An opening tag is read as it was written. -/
theorem readTags_opening (openNames : List (List Char)) {contents : List Char} {node : Element}
    (tag : WritesTag contents node) (plain : node.HasPlainNames) (rest : List Char) :
    readTags openNames ('<' :: (contents ++ '>' :: rest)) =
      (.opening (Tag.ofContents contents) ::
          (readTags (node.writtenTag.toList :: openNames) rest).1,
        (readTags (node.writtenTag.toList :: openNames) rest).2) := by
  have hlast := tag.getLast?_ne plain
  obtain ⟨hname, -⟩ := tag.describes plain
  obtain ⟨first, following, rfl, hfirst⟩ := tag.exists_head plain
  have hnext := next_tag openNames (ne_of_test hfirst '!' (by decide))
    (ne_of_test hfirst '?' (by decide)) (tag.passedOver plain) rest
  rw [ofContents_of_isAlpha openNames hfirst, if_neg hlast, hname] at hnext
  rw [readTags_of_next hnext]
  rfl

/-- A closing tag is read as it was written. -/
theorem readTags_closing (openNames : List (List Char)) {node : Element}
    (plain : node.HasPlainNames) {blank : List Char} (hblank : ∀ c ∈ blank, isBlank c)
    (rest : List Char) :
    readTags (node.writtenTag.toList :: openNames)
        ('<' :: '/' :: (node.writtenTag.toList ++ blank ++ '>' :: rest)) =
      (.closing node.writtenTag.toList :: (readTags openNames rest).1,
        (readTags openNames rest).2) := by
  have hpassed : PassedOver ('/' :: (node.writtenTag.toList ++ blank)) := by
    refine passedOver_of_forall fun c h => ?_
    rcases List.mem_cons.1 h with rfl | h
    · decide
    rcases List.mem_append.1 h with h | h
    · exact plain_of_test (plain.isTagPart h) (by decide) (by decide) (by decide)
    · exact plain_of_test (hblank c h) (by decide) (by decide) (by decide)
  have hnext := next_tag (node.writtenTag.toList :: openNames) (by decide) (by decide) hpassed rest
  rw [ofContents_closing openNames plain hblank] at hnext
  exact readTags_of_next hnext

/-- The tags of a document are those of its text; a byte order mark is skipped. -/
theorem read_eq_readTags (text : List Char) :
    ((Event.read text).1.filter Event.isTag, (Event.read text).2) = readTags [] text := by
  unfold Event.read
  split
  · rw [readTags_text [] (by decide) (by decide)]
    rfl
  · rfl

end Events

/-- A forest that was written is read as a linear form of it. -/
theorem Writes.readTags {text : List Char} {nodes : List Element} (writes : Writes text nodes)
    (plain : ∀ node ∈ Element.preorderList nodes, node.HasPlainNames) :
    ∃ events, Linearises events nodes ∧ ∀ openNames rest,
      Markup.readTags openNames (text ++ rest) =
        (events ++ (Markup.readTags openNames rest).1, (Markup.readTags openNames rest).2) := by
  -- The open names and the rest are arbitrary: what is below an element is read with its name open
  -- and with its closing tag as the rest.
  induction writes with
  | nil isGap => exact ⟨[], .nil, fun openNames rest => readTags_gap openNames isGap rest⟩
  | @selfClosing gap contents after node nodes isGap tag childless following ih =>
    have hnode : node.HasPlainNames := plain node (by simp [Element.preorderList])
    obtain ⟨events, linear, hread⟩ := ih fun node h => plain node (by simp [Element.preorderList, h])
    obtain ⟨hname, hdescribes⟩ := tag.describes hnode
    refine ⟨_, .selfClosing hdescribes childless linear, fun openNames rest => ?_⟩
    rw [List.append_assoc, readTags_gap openNames isGap]
    simp only [List.cons_append, List.append_assoc]
    rw [readTags_selfClosing openNames tag hnode, hread]
  | @enclosing gap contents inside blank after node nodes isGap tag below hblank following ihBelow
      ih =>
    have hnode : node.HasPlainNames := plain node (by simp [Element.preorderList])
    obtain ⟨events, linear, hread⟩ := ih fun node h => plain node (by simp [Element.preorderList, h])
    obtain ⟨inner, linearBelow, hreadBelow⟩ := ihBelow fun node h =>
      plain node (by simp [Element.preorderList, Element.preorder_eq, h])
    obtain ⟨hname, hdescribes⟩ := tag.describes hnode
    refine ⟨_, .enclosing hdescribes linearBelow linear, fun openNames rest => ?_⟩
    rw [List.append_assoc, readTags_gap openNames isGap]
    simp only [List.cons_append, List.append_assoc]
    rw [readTags_opening openNames tag hnode, hreadBelow, ← List.append_assoc _ blank,
      readTags_closing openNames hnode hblank, hread, hname]

/-- Attributes can be written. -/
theorem exists_writesAttributes (written : List (String × String)) :
    ∃ text, WritesAttributes text written := by
  induction written with
  | nil => exact ⟨[], .nil⟩
  | cons entry rest ih =>
    obtain ⟨text, following⟩ := ih
    exact ⟨_, .cons (List.cons_ne_nil ' ' []) (List.forall_mem_singleton.2 rfl) following⟩

/-- Every forest can be written. -/
theorem exists_writes : ∀ nodes : List Element, ∃ text, Writes text nodes
  | [] => ⟨[], .nil .nil⟩
  | node :: rest => by
    obtain ⟨attributes, hattributes⟩ := exists_writesAttributes node.attributes.toList
    obtain ⟨inside, below⟩ := exists_writes node.children
    obtain ⟨after, following⟩ := exists_writes rest
    have tag : WritesTag (node.writtenTag.toList ++ (attributes ++ [])) node :=
      ⟨hattributes, List.Perm.refl _, fun c h => absurd h List.not_mem_nil⟩
    exact ⟨_, .enclosing .nil tag below (fun c h => absurd h List.not_mem_nil) following⟩
termination_by nodes => Element.sizeList nodes
decreasing_by
  · simp only [Element.sizeList, Element.size_eq]
    omega
  · simp only [Element.sizeList, Element.size_eq]
    omega

/-- A tree with plain names can be written, and every text that writes it is read as this tree. -/
theorem parse_of_writes {root : Element} (plain : ∀ node ∈ root :: root.preorder, node.HasPlainNames) :
    (∃ text : String, Writes text.toList [root]) ∧
      ∀ text : String, Writes text.toList [root] → Element.parse text = .ok root := by
  constructor
  · obtain ⟨text, writes⟩ := exists_writes [root]
    exact ⟨String.ofList text, by rwa [String.toList_ofList]⟩
  intro text writes
  obtain ⟨events, linear, hread⟩ := writes.readTags fun node h => plain node (by
    simpa [Element.preorderList] using h)
  have htags := read_eq_readTags text.toList
  have hall := hread [] []
  rw [List.append_nil, readTags_nil, List.append_nil] at hall
  rw [hall] at htags
  obtain ⟨hevents, hfault⟩ := Prod.mk.inj htags
  rw [Element.parse_eq_ofEvents (Prod.ext rfl hfault), ofEvents_eq_filter, hevents, linear.after]
  rfl

/-- A tree with a scope, a value full of marks, and a child. -/
def markedTree : Element where
  tag := "UXML"
  scope := some "ui"
  attributes := (({} : Attributes).insert "low-value" "<'&'>").insert "name" "A"
  children := [{ tag := "Label" }]

/-- One of the texts that write this tree. -/
def markedText : String :=
  "<!-- > -->\n<ui:UXML name=\"A\"\tlow-value=\"&lt;&apos;&amp;&apos;&gt;\" ><Label/> </ui:UXML >\n"

theorem parse_of_writes_marked :
    (∀ node ∈ markedTree :: markedTree.preorder, node.HasPlainNames) ∧
      Writes markedText.toList [markedTree] ∧ Element.parse markedText = .ok markedTree := by
  have hplain : ∀ node ∈ markedTree :: markedTree.preorder, node.HasPlainNames := by
    have hlist : markedTree :: markedTree.preorder = [markedTree, { tag := "Label" }] := rfl
    rw [hlist]
    intro node hmem
    simp only [List.mem_cons, List.not_mem_nil, or_false] at hmem
    rcases hmem with rfl | rfl
    · refine ⟨by decide, fun scope h => ?_, fun key h => ?_⟩
      · obtain rfl := Option.some.inj h
        decide
      · simp only [markedTree, Std.ExtTreeMap.mem_insert, Std.LawfulEqCmp.compare_eq_iff_eq] at h
        rcases h with rfl | rfl | h
        · decide
        · decide
        · exact absurd h Std.ExtTreeMap.not_mem_empty
    · refine ⟨by decide, fun scope h => ?_, fun key h => absurd h Std.ExtTreeMap.not_mem_empty⟩
      cases h
  have hwrites : Writes markedText.toList [markedTree] := by
    have hgap : IsGap ("<!--".toList ++ " > ".toList ++ "-->".toList ++ ['\n']) :=
      .comment (by decide) (.space (by decide) .nil)
    have hattributes : WritesAttributes _ [("name", "A"), ("low-value", "<'&'>")] :=
      .cons (List.cons_ne_nil ' ' []) (List.forall_mem_singleton.2 rfl)
        (.cons (List.cons_ne_nil '\t' []) (List.forall_mem_singleton.2 rfl) .nil)
    have hblank : ∀ c ∈ [' '], isBlank c := List.forall_mem_singleton.2 rfl
    have htag : WritesTag (markedTree.writtenTag.toList ++ (_ ++ [' '])) markedTree :=
      ⟨hattributes, by decide +kernel, hblank⟩
    let label : Element := { tag := "Label" }
    have hlabel : WritesTag (label.writtenTag.toList ++ ([] ++ [])) label :=
      ⟨.nil, by decide +kernel, fun c h => absurd h List.not_mem_nil⟩
    have hspace : IsGap [' '] := .space (by decide) .nil
    have hend : IsGap ['\n'] := .space (by decide) .nil
    have hdocument := Writes.enclosing hgap htag (.selfClosing .nil hlabel rfl (.nil hspace)) hblank
      (.nil hend)
    exact Eq.subst (motive := fun text => Writes text [markedTree]) (by decide +kernel) hdocument
  exact ⟨hplain, hwrites, (parse_of_writes hplain).2 markedText hwrites⟩

end UxmlBindings.Markup
