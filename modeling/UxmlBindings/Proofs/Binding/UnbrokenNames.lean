import UxmlBindings.Binding.Selection
import UxmlBindings.Binding.Shape
import UxmlBindings.Proofs.Code.LineBreaks
import UxmlBindings.Proofs.Text.Letters

/-!
# Names without line breaks

Whatever characters a declared name holds, the names of its field and of its property hold no line
break: both keep the characters of identifiers only, and the case mappings, which may leave these, lead
to no line break. Nor do the names of a valid asset hold one.
-/

namespace UxmlBindings.Binding

open Code Text

/-- A character that may stand inside an identifier is no line break. -/
theorem isLineBreak_of_isPart {c : Char} (hpart : Identifier.isPart c = true) :
    isLineBreak c = false :=
  isLineBreak_of_test (by decide +kernel) hpart

/-! ## Case mappings -/

/-- A code point has its character, unless it has none and counts as the null character. -/
theorem toNat_ofNat_or (code : Nat) :
    (Char.ofNat code).toNat = code ∨ Char.ofNat code = '\x00' := by
  by_cases hvalid : code.isValidChar
  · left
    rw [Char.ofNat, dif_pos hvalid]
    rfl
  · right
    rw [Char.ofNat, dif_neg hvalid]
    rfl

/-- Whether a case mapping leads to no line break: none is among several images, and no run moves a
code point to one. -/
def avoidsLineBreaks (table : CaseTable) : Bool :=
  table.several.all (fun entry => entry.2.all fun code => !isLineBreak (Char.ofNat code)) &&
    table.runs.all fun run => lineBreaks.all fun c => !run.moves (c.toNat - run.shift).toNat

/-- A run that avoids line breaks moves no character to one. -/
theorem isLineBreak_of_moves {run : CaseRun}
    (havoids : lineBreaks.all (fun c => !run.moves (c.toNat - run.shift).toNat) = true) {code : Nat}
    (hmoves : run.moves code = true) : isLineBreak (Char.ofNat (code + run.shift).toNat) = false := by
  rcases toNat_ofNat_or (code + run.shift).toNat with hcode | hnull
  · by_cases hzero : (code + run.shift).toNat = 0
    · rw [hzero]
      decide
    · -- the code point that the run would have to move to the line break is `code`
      have hback : (((Char.ofNat (code + run.shift).toNat).toNat : Int) - run.shift).toNat = code := by
        omega
      refine isLineBreak_of_test havoids ?_
      rwa [hback]
  · rw [hnull]
    decide

/-- Under such a mapping, a character that is no line break has no line break among its images. -/
theorem isLineBreak_of_mem_image {table : CaseTable} (havoids : avoidsLineBreaks table = true)
    {c d : Char} (hc : isLineBreak c = false) (hmem : d ∈ table.image c) :
    isLineBreak d = false := by
  rw [avoidsLineBreaks, Bool.and_eq_true] at havoids
  obtain ⟨hseveral, hruns⟩ := havoids
  rcases table.image_cases c with hsame | ⟨codes, hlisted, himage⟩ | ⟨run, hrun, hmoves, himage⟩
  · rw [hsame] at hmem
    rwa [List.mem_singleton.1 hmem]
  · rw [himage] at hmem
    obtain ⟨code, hcode, rfl⟩ := List.mem_map.1 hmem
    simpa using List.all_eq_true.1 (List.all_eq_true.1 hseveral _ hlisted) code hcode
  · rw [himage] at hmem
    rw [List.mem_singleton.1 hmem]
    exact isLineBreak_of_moves (List.all_eq_true.1 hruns run hrun) hmoves

theorem avoidsLineBreaks_lowercaseTable : avoidsLineBreaks lowercaseTable = true := by
  decide +kernel

theorem avoidsLineBreaks_uppercaseTable : avoidsLineBreaks uppercaseTable = true := by
  decide +kernel

/-! ## Names of members -/

/-- The name of a field holds no line break, whatever the declared name is. -/
theorem isUnbroken_field (declared : String) : isUnbroken (MemberName.field declared) = true := by
  have hpart (c : Char) : isLineBreak (fieldPart c) = false := by
    unfold fieldPart
    split
    · rename_i hinside
      exact isLineBreak_of_isPart hinside
    · decide
  have hhead (c d : Char) (hmem : d ∈ fieldHead c) : isLineBreak d = false := by
    unfold fieldHead at hmem
    split at hmem
    · rename_i hinside
      exact isLineBreak_of_mem_image avoidsLineBreaks_lowercaseTable
        (isLineBreak_of_isPart hinside) hmem
    · rw [List.mem_singleton.1 hmem]
      decide
  refine isUnbroken_iff.2 fun d hmem => ?_
  rw [MemberName.field, String.toList_ofList] at hmem
  cases hchars : declared.toList with
  | nil =>
    rw [hchars, fieldChars, List.mem_singleton] at hmem
    rw [hmem]
    decide
  | cons first rest =>
    rw [hchars, fieldChars, List.cons_append, List.mem_cons, List.mem_append] at hmem
    rcases hmem with rfl | hfirst | hrest
    · decide
    · exact hhead first d hfirst
    · obtain ⟨c, -, rfl⟩ := List.mem_map.1 hrest
      exact hpart c

/-- Words that are run together hold no line break, whatever separates them. -/
theorem isLineBreak_of_mem_joinWords {capitalise : Bool} {text : List Char} {d : Char}
    (hmem : d ∈ joinWords capitalise text) : isLineBreak d = false := by
  induction text generalizing capitalise with
  | nil => exact absurd hmem List.not_mem_nil
  | cons c rest ih =>
    unfold joinWords at hmem
    split at hmem
    · exact ih hmem
    · rename_i hword
      have hc : isLineBreak c = false := by
        refine isLineBreak_of_isPart ?_
        simp only [isSeparator, Bool.or_eq_true, not_or, Bool.not_eq_true', Bool.not_eq_false] at hword
        exact hword.1
      split at hmem
      · rcases List.mem_append.1 hmem with hupper | hrest
        · exact isLineBreak_of_mem_image avoidsLineBreaks_uppercaseTable hc hupper
        · exact ih hrest
      · rcases List.mem_cons.1 hmem with rfl | hrest
        · exact hc
        · exact ih hrest

/-- The name of a property holds no line break, whatever the declared name is. -/
theorem isUnbroken_property (declared : String) :
    isUnbroken (MemberName.property declared) = true := by
  refine isUnbroken_iff.2 fun d hmem => ?_
  rw [MemberName.property, String.toList_ofList, propertyChars] at hmem
  split at hmem
  · rcases List.mem_cons.1 hmem with rfl | hjoined
    · decide
    · exact isLineBreak_of_mem_joinWords hjoined
  · exact isLineBreak_of_mem_joinWords hmem

/-! ## Names of assets -/

/-- An identifier holds no line break. -/
theorem isUnbroken_of_isValid {name : String} (hvalid : Identifier.isValid name = true) :
    isUnbroken name = true :=
  isUnbroken_iff.2 fun _ hmem => isLineBreak_of_isPart (Identifier.isPart_of_mem hvalid hmem)

/-- Identifiers joined by dots hold no line break. -/
theorem isUnbroken_of_isDotted {name : String} (hdotted : Identifier.isDotted name = true) :
    isUnbroken name = true := by
  have hjoined : String.intercalate "." ((splitOn '.' name.toList).map String.ofList) = name := by
    have hpieces : ((splitOn '.' name.toList).map String.ofList).map String.toList =
        splitOn '.' name.toList := by
      simp
    rw [← String.toList_inj, String.toList_intercalate, hpieces]
    exact intercalate_splitOn '.' name.toList
  rw [← hjoined]
  refine isUnbroken_intercalate (by decide) ?_
  rw [List.all_map]
  exact List.all_eq_true.2 fun piece hmem =>
    isUnbroken_of_isValid (List.all_eq_true.1 hdotted piece hmem)

/-- The class of the bindings for a valid asset has a name without line break. -/
theorem isUnbroken_bindingsClass (shape : Shape) {asset : AssetName} (valid : asset.check = .ok ()) :
    isUnbroken (shape.bindingsClass asset) = true := by
  obtain ⟨-, hname, -⟩ := asset.check_eq_ok_iff.1 valid
  have hclass := isUnbroken_of_isValid hname
  cases shape with
  | component =>
    simp only [AssetName.className, isUnbroken_append, Bool.and_eq_true] at hclass
    rw [Shape.bindingsClass, isUnbroken_append, hclass.1.2]
    decide
  | _ => exact hclass

/-- The bindings for a valid asset are in a namespace without line break. -/
theorem isUnbroken_space (shape : Shape) {asset : AssetName} (valid : asset.check = .ok ()) :
    isUnbroken (shape.space asset) = true := by
  obtain ⟨-, -, hspace⟩ := asset.check_eq_ok_iff.1 valid
  have hname : isUnbroken asset.space = true := by
    rcases hspace with hempty | hdotted
    · rw [hempty]
      decide
    · exact isUnbroken_of_isDotted hdotted
  cases shape with
  | component =>
    change isUnbroken Shape.componentSpace = true
    decide
  | _ => exact hname

end UxmlBindings.Binding
