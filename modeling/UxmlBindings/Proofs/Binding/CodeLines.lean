import UxmlBindings.Proofs.Binding.FileSteps
import UxmlBindings.Proofs.Binding.Rejection

/-!
# The lines of a bindings file

A declared name reaches the bindings in three forms: as the name of a field, as the name of a property
and inside a string literal. None of them can hold a line break, so how many lines the file has is
fixed by its shape, its namespace and the number of bound elements, and each line of the method that
looks these up belongs to one of them.
-/

namespace UxmlBindings.Binding

open Code Markup

/-- The lines that close all blocks at a depth. -/
def closingLines : Nat → List String
  | 0 => []
  | depth + 1 => (indentation depth ++ "\x7d") :: closingLines depth

/-- The line that looks up a bound element. -/
def lookupLine (depth : Nat) (element : BoundElement) : String :=
  indentation depth ++ element.fieldName ++ " = (" ++ element.binding.typeName ++ ")Root?.Q(\"" ++
    escapeText element.named.declaredName ++ "\");"

/-- How the text of a bindings file is laid out in lines: the line feed is the only line break, the
number of lines is fixed, and the last lines are the method with one line for each bound element and
the braces that close the class and its namespace. -/
structure LaidOut (shape : Shape) (asset : AssetName) (bound : List BoundElement)
    (code : String) : Prop where
  breaks : ∀ c ∈ code.toList, isLineBreak c = true → c = '\n'
  count : (Text.lines code.toList).length = lineCount shape asset.space.isEmpty bound.length
  body : ∃ before, Text.lines code.toList =
    (before ++
      [indentation (memberDepth shape asset) ++ "public void InitializeDocument()",
       indentation (memberDepth shape asset) ++ "\x7b"] ++
      bound.map (lookupLine (memberDepth shape asset + 1)) ++
      closingLines (memberDepth shape asset + 1)).map (·.toList)

/-! ## The method that looks up the elements -/

/-- The line of an assignment is the line that looks up its element. -/
theorem render_elementAssignment (depth : Nat) (element : BoundElement) :
    indentation depth ++ (elementAssignment element).render = lookupLine depth element := by
  have hcall : (Shape.lookupCall element.named.declaredName).render =
      "Root" ++ "?." ++ "Q" ++ "(" ++ literal element.named.declaredName ++ ")" := rfl
  simp only [elementAssignment, Statement.render, Expression.render, hcall, lookupLine, literal,
    ← String.toList_inj, String.toList_append]
  simp

/-- Closing steps that close all blocks write the closing lines. -/
theorem layoutFrom_replicate_closing (depth : Nat) :
    layoutFrom depth (List.replicate depth .closing) = closingLines depth := by
  induction depth with
  | zero => rfl
  | succ depth ih =>
    rw [List.replicate_succ, layoutFrom, closingLines]
    exact congrArg _ ih

/-- From the method on, the lines are those of the method and the braces that close all blocks. -/
theorem layoutFrom_lookupMember (depth : Nat) (bound : List BoundElement) :
    layoutFrom depth ((lookupMember bound).steps ++ List.replicate depth .closing) =
      [indentation depth ++ "public void InitializeDocument()", indentation depth ++ "\x7b"] ++
        bound.map (lookupLine (depth + 1)) ++ closingLines (depth + 1) := by
  let body := (bound.map elementAssignment).map fun statement => Step.line statement.render
  have hsteps : (lookupMember bound).steps ++ List.replicate depth .closing =
      .line "public void InitializeDocument()" ::
        .opening :: (body ++ List.replicate (depth + 1) .closing) := by
    have hsignature : "public" ++ " void " ++ Shape.lookupMethod ++ "()" =
        "public void InitializeDocument()" := by
      decide
    rw [MethodMember.steps, bodySteps, block, List.replicate_succ, ← hsignature]
    simp [lookupMember, body, Visibility.keyword]
  have hbody : layoutFrom (depth + 1) body = bound.map (lookupLine (depth + 1)) := by
    rw [layoutFrom_lines, List.map_map]
    exact List.map_congr_left fun element _ => render_elementAssignment (depth + 1) element
  have hlevel : depthAfter (depth + 1) body = depth + 1 := isLevel_lines _ _ _
  have hlines : layoutFrom (depth + 1) (body ++ List.replicate (depth + 1) .closing) =
      bound.map (lookupLine (depth + 1)) ++ closingLines (depth + 1) := by
    rw [layoutFrom_append, hbody, hlevel, layoutFrom_replicate_closing]
  rw [hsteps, layoutFrom, layoutFrom, List.append_assoc, ← hlines]
  rfl

/-! ## The whole file -/

/-- A bindings file for a valid asset is laid out in lines if the names of the bound elements are
unbroken. -/
theorem laidOut_bindingsFile (shape : Shape) {asset : AssetName} (valid : asset.check = .ok ())
    {bound : List BoundElement} (hbound : ∀ element ∈ bound, element.namesUnbroken = true) :
    LaidOut shape asset bound (bindingsFile shape asset bound).render := by
  have hunbroken : (layout (bindingsFile shape asset bound).steps).all isUnbroken = true :=
    all_isUnbroken_layoutFrom
      (GeneratedFile.all_isUnbroken_steps (namesUnbroken_bindingsFile shape valid hbound)) 0
  have hlines := lines_textOfLines hunbroken
  refine ⟨fun c hmem hbreak => eq_lineFeed_of_mem_textOfLines hunbroken hmem hbreak, ?_, ?_⟩
  · rw [GeneratedFile.render, textOfSteps, hlines, List.length_map, layout, length_layoutFrom,
      length_steps_bindingsFile]
  · obtain ⟨before, hdepth, hsteps⟩ := exists_steps_bindingsFile shape asset bound
    refine ⟨layoutFrom 0 before, ?_⟩
    rw [GeneratedFile.render, textOfSteps, hlines, layout, hsteps, layoutFrom_append, hdepth,
      layoutFrom_lookupMember]
    simp only [List.append_assoc]

/-- The bound elements of an account have unbroken names if its elements have, and the types of the
table. -/
theorem namesUnbroken_of_isAccount {table : ElementTypes} {shape : Shape} {asset : AssetName}
    {account : Account} (hdecided : IsAccount table shape asset account)
    (hfields : ∀ element ∈ account.map (·.1), isUnbroken element.fieldName = true)
    (htypes : ∀ tag typed, table.typed? tag = some typed → isUnbroken typed.typeName = true) :
    ∀ element ∈ account.filterMap Account.boundOf, element.namesUnbroken = true := by
  intro bound hbound
  obtain ⟨⟨element, fate⟩, hentry, hboundOf⟩ := List.mem_filterMap.1 hbound
  cases fate with
  | bound typeName =>
    obtain rfl := Option.some.inj hboundOf
    obtain ⟨before, after, hsplit⟩ := List.append_of_mem hentry
    obtain ⟨htyped, -⟩ := hdecided before element _ after hsplit
    exact Bool.and_eq_true_iff.2
      ⟨hfields element (List.mem_map_of_mem hentry), htypes element.tag _ htyped⟩
  | _ => cases hboundOf

/-- Every policy under which there are bindings for a valid asset gives the same bindings. -/
theorem bindingsOf_eq_of_ok {table : ElementTypes} {elements : List NamedElement} {shape : Shape}
    {asset : AssetName} (valid : asset.check = .ok ()) {policy : NamePolicy}
    {generated : GeneratedText} (h : bindingsOf table policy elements shape asset = .ok generated) :
    bindingsOf table .allow elements shape asset = .ok generated := by
  cases policy with
  | allow => exact h
  | reject =>
    obtain ⟨allowed, hallow, hreject⟩ := bindingsOf_of_check table elements shape valid
    rw [hreject] at h
    cases hrejection : rejection? allowed.warnings with
    | none =>
      rw [hrejection] at h
      rw [hallow]
      exact h
    | some error =>
      rw [hrejection] at h
      cases h

/-- An account of a document that its bindings follow line by line: the elements are the named ones
below the root in document order, the type table and the earlier elements decide which of them are
bound, and every text that is generated is laid out for these. -/
structure LineAccount (table : ElementTypes) (root : Element) (shape : Shape) (asset : AssetName)
    (account : Account) : Prop where
  elements : account.map (·.1) = (root.preorder.filter (·.isNamed)).map
    fun node => NamedElement.ofName node.tag (node.name?.getD "")
  decided : IsAccount table shape asset account
  generates : ∃ generated, documentBindings table .allow root shape asset = .ok generated
  laidOut : ∀ policy generated, documentBindings table policy root shape asset = .ok generated →
    LaidOut shape asset (account.filterMap Account.boundOf) generated.code

/-- Whatever names the elements of a document declare, its bindings hold no other line break than the
line feed, as many lines as the shape, the namespace and the number of bound elements say, and in the
method that looks the bound elements up one line for each of them, in document order. -/
theorem documentBindings_lines (table : ElementTypes) (root : Element) (shape : Shape)
    (asset : AssetName) (valid : asset.check = .ok ())
    (htypes : ∀ tag typed, table.typed? tag = some typed → isUnbroken typed.typeName = true) :
    ∃ account, LineAccount table root shape asset account := by
  let account := accountOf table shape asset (namedElements root)
  have helements : account.map (·.1) = namedElements root := accountFrom_elements table _ [] _
  have hdecided : IsAccount table shape asset account := isAccount_accountOf table shape asset _
  have hfields : ∀ element ∈ account.map (·.1), isUnbroken element.fieldName = true := by
    intro element hmem
    rw [helements, namedElements_eq] at hmem
    obtain ⟨node, -, rfl⟩ := List.mem_map.1 hmem
    exact isUnbroken_field _
  have hlaidOut := laidOut_bindingsFile shape valid (namesUnbroken_of_isAccount hdecided hfields htypes)
  have htree := bindingsTree_allow table (namedElements root) shape asset valid
  obtain ⟨warnings, hallowed⟩ : ∃ warnings, documentBindings table .allow root shape asset = .ok
      { className := shape.bindingsClass asset
        code := (bindingsFile shape asset (account.filterMap Account.boundOf)).render
        warnings } := by
    rw [documentBindings, renderSelection, Selection.ofDocument, htree]
    exact ⟨_, rfl⟩
  refine ⟨account, helements.trans (namedElements_eq root), hdecided, ⟨_, hallowed⟩, ?_⟩
  intro policy generated hgenerated
  have hsame : documentBindings table .allow root shape asset = .ok generated :=
    bindingsOf_eq_of_ok valid hgenerated
  obtain rfl := Except.ok.inj (hallowed.symm.trans hsame)
  dsimp only
  exact hlaidOut

/-- A document in which elements declare names with line breaks, quotes and backslashes. -/
def tornDocument : Element where
  tag := "UXML"
  children :=
    [{ tag := "Button", attributes := ({} : Attributes).insert "name" "play\u2028\"now\"\n" },
     { tag := "Label", attributes := ({} : Attributes).insert "name" "\r" },
     { tag := "Button", attributes := ({} : Attributes).insert "name" "\u0085\\" }]

/-- A table that knows buttons only. -/
def buttonTypes : ElementTypes :=
  ElementTypes.empty.insert "Button" "Button"

theorem documentBindings_lines_torn :
    AssetName.check { stem := "Menu", space := "Game.UI" } = .ok () ∧
      (∀ tag typed, buttonTypes.typed? tag = some typed → isUnbroken typed.typeName = true) ∧
      ∃ account, LineAccount buttonTypes tornDocument .editorWindow
        { stem := "Menu", space := "Game.UI" } account := by
  have valid : AssetName.check { stem := "Menu", space := "Game.UI" } = .ok () := by decide +kernel
  have htypes : ∀ tag typed, buttonTypes.typed? tag = some typed →
      isUnbroken typed.typeName = true := by
    intro tag typed h
    rw [buttonTypes, ElementTypes.typed?_insert, ElementTypes.typed?_empty] at h
    split at h
    · obtain rfl := Option.some.inj h
      change isUnbroken "Button" = true
      decide
    · cases h
  exact ⟨valid, htypes, documentBindings_lines buttonTypes tornDocument .editorWindow _ valid htypes⟩

example :
    lookupLine 3 ⟨NamedElement.ofName "Button" "play\u2028\"now\"\n", ⟨"Button", "Button"⟩⟩ =
      "            _play__now__ = (Button)Root?.Q(\"play\\u2028\\\"now\\\"\\n\");" := by
  decide +kernel

end UxmlBindings.Binding
