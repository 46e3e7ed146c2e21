import Std.Data.ExtTreeMap

/-!
# Types of elements

A type table says which type of the user interface library an element tag stands for. The built-in
table knows the library's own elements; projects add theirs, and the last entry for a tag wins.
-/

namespace UxmlBindings.Binding

/-- A tag with the type that its elements have in the generated code. -/
structure TypedTag where
  tag : String
  typeName : String
  deriving DecidableEq, Repr

/-- Entries for tags, ordered by tag. Each of them is kept under its own tag. -/
structure ElementTypes where
  entries : Std.ExtTreeMap String TypedTag
  keyed (tag : String) (entry : TypedTag) : entries[tag]? = some entry → entry.tag = tag
  deriving DecidableEq

namespace ElementTypes

/-- The table without entries. -/
def empty : ElementTypes := ⟨∅, by simp⟩

/-- If an entry is put under its own tag, all entries stay under their own tags. -/
theorem keyed_insert (table : ElementTypes) (added : TypedTag) (tag : String) (entry : TypedTag)
    (hentry : (table.entries.insert added.tag added)[tag]? = some entry) : entry.tag = tag := by
  rw [Std.ExtTreeMap.getElem?_insert] at hentry
  split at hentry
  · rename_i hsame
    cases hentry
    exact Std.LawfulEqCmp.compare_eq_iff_eq.1 hsame
  · exact table.keyed tag entry hentry

/-- The table with an entry, which replaces an earlier one for the same tag. -/
def insert (table : ElementTypes) (tag typeName : String) : ElementTypes :=
  let added : TypedTag := ⟨tag, typeName⟩
  ⟨table.entries.insert added.tag added, table.keyed_insert added⟩

/-- The table with further entries, added in order. -/
def extend (table : ElementTypes) (entries : List (String × String)) : ElementTypes :=
  entries.foldl (fun table entry => table.insert entry.1 entry.2) table

/-- The entry for a tag. -/
def typed? (table : ElementTypes) (tag : String) : Option TypedTag :=
  table.entries[tag]?

/-- The number of entries. -/
def size (table : ElementTypes) : Nat :=
  table.entries.size

/-- The tags in order, with the names of their types. -/
def toList (table : ElementTypes) : List (String × String) :=
  table.entries.toList.map fun (tag, entry) => (tag, entry.typeName)

/-- The tags of elements that hold others. -/
def containers : List String :=
  ["VisualElement", "ScrollView", "ListView", "IMGUIContainer", "GroupBox"]

/-- The tags of elements that show or take a value. -/
def controls : List String :=
  ["Label", "Button", "Toggle", "Scroller", "TextField", "Foldout", "Slider", "SliderInt",
   "MinMaxSlider", "ProgressBar", "DropdownField", "RadioButton", "RadioButtonGroup"]

/-- The library's own elements; each has a type of the same name. -/
def standard : ElementTypes :=
  empty.extend ((containers ++ controls).map fun tag => (tag, tag))

@[simp] theorem typed?_empty (tag : String) : empty.typed? tag = none := by
  simp [empty, typed?]

/-- The entry that is found for a tag is its own. -/
theorem tag_of_typed? {table : ElementTypes} {tag : String} {entry : TypedTag}
    (hentry : table.typed? tag = some entry) : entry.tag = tag :=
  table.keyed tag entry hentry

/-- Tables with the same entry for every tag are the same. -/
theorem ext_typed? {table other : ElementTypes} (hsame : ∀ tag, table.typed? tag = other.typed? tag) :
    table = other := by
  obtain ⟨entries, _⟩ := table
  obtain ⟨otherEntries, _⟩ := other
  obtain rfl : entries = otherEntries := Std.ExtTreeMap.ext_getElem? fun tag => hsame tag
  rfl

/-- The listed tags are those for which there are entries, with the types of these. -/
theorem mem_toList_iff {table : ElementTypes} {tag typeName : String} :
    (tag, typeName) ∈ table.toList ↔
      ∃ entry, table.typed? tag = some entry ∧ entry.typeName = typeName := by
  simp only [toList, List.mem_map, Prod.exists, Std.ExtTreeMap.mem_toList_iff_getElem?_eq_some,
    Prod.mk.injEq, typed?]
  constructor
  · rintro ⟨other, entry, hentry, rfl, rfl⟩
    exact ⟨entry, hentry, rfl⟩
  · rintro ⟨entry, hentry, rfl⟩
    exact ⟨tag, entry, hentry, rfl, rfl⟩

/-- An entry is found under its tag and hides no other tag. -/
theorem typed?_insert (table : ElementTypes) (tag typeName other : String) :
    (table.insert tag typeName).typed? other =
      if tag = other then some ⟨other, typeName⟩ else table.typed? other := by
  simp only [insert, typed?, Std.ExtTreeMap.getElem?_insert, Std.LawfulEqCmp.compare_eq_iff_eq]
  split
  · rename_i hsame
    rw [hsame]
  · rfl

@[simp] theorem extend_nil (table : ElementTypes) : table.extend [] = table := rfl

@[simp] theorem extend_cons (table : ElementTypes) (entry : String × String)
    (rest : List (String × String)) :
    table.extend (entry :: rest) = (table.insert entry.1 entry.2).extend rest := rfl

/-- Of the entries that are added for a tag the last one counts, and the table itself counts only if
there is none. -/
theorem typed?_extend (table : ElementTypes) (entries : List (String × String)) (tag : String) :
    (table.extend entries).typed? tag =
      ((entries.reverse.lookup tag).map (TypedTag.mk tag)).or (table.typed? tag) := by
  induction entries generalizing table with
  | nil => rfl
  | cons entry rest ih =>
    obtain ⟨added, typeName⟩ := entry
    rw [extend_cons, ih, typed?_insert, List.reverse_cons, List.lookup_append, Option.map_or,
      Option.or_assoc]
    congr 1
    rw [List.lookup_cons, List.lookup_nil]
    by_cases hsame : tag = added
    · simp [hsame]
    · simp [beq_false_of_ne hsame, Ne.symm hsame]

end ElementTypes

end UxmlBindings.Binding
