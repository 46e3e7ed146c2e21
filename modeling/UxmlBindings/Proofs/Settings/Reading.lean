import UxmlBindings.Proofs.Json.Reading
import UxmlBindings.Settings.Document

/-!
# Written settings are read back

Settings that were written as a document are read back as they were: every record is read from the
value that writes it, such a value has neither numbers nor strings without text, and a printed value
of this kind is read back.
-/

namespace UxmlBindings.Settings

open Binding Files Json

section Types

/-- The entries of a table make up the table. -/
theorem extend_empty_toList (types : ElementTypes) :
    ElementTypes.empty.extend types.toList = types := by
  apply ElementTypes.ext_typed?
  intro tag
  rw [ElementTypes.typed?_extend, ElementTypes.typed?_empty, Option.or_none]
  cases hlookup : types.toList.reverse.lookup tag with
  | some typeName =>
    obtain ⟨before, after, hsplit, -⟩ := List.lookup_eq_some_iff.1 hlookup
    have hmem : (tag, typeName) ∈ types.toList := List.mem_reverse.1 (by simp [hsplit])
    obtain ⟨⟨own, _⟩, hentry, rfl⟩ := ElementTypes.mem_toList_iff.1 hmem
    obtain rfl : own = tag := ElementTypes.tag_of_typed? hentry
    exact hentry.symm
  | none =>
    cases hentry : types.typed? tag with
    | none => rfl
    | some entry =>
      have hmem := List.mem_reverse.2 (ElementTypes.mem_toList_iff.2 ⟨entry, hentry, rfl⟩)
      exact absurd (List.lookup_eq_none_iff.1 hlookup _ hmem) (by simp)

/-- A type table is read from its value. -/
theorem readTypes?_typesValue (types : ElementTypes) :
    readTypes? (typesValue types) = some types := by
  have hmembers (entries : List (String × String)) :
      (entries.map fun entry => (some entry.1, Value.ofText entry.2)).mapM
        (fun member => do
          let tag ← member.1
          let typeName ← member.2.text?
          return (tag, typeName)) = some entries := by
    induction entries with
    | nil => rfl
    | cons entry rest ih =>
      rw [List.map_cons, List.mapM_cons, ih]
      rfl
  rw [typesValue, Value.ofMembers, List.map_map, readTypes?]
  refine (congrArg (· >>= _) (hmembers types.toList)).trans ?_
  exact congrArg some (extend_empty_toList types)

end Types

section Records

/-- The members of an object are those of the record if their names are, and differ. -/
theorem recordMembers?_ofMembers {names : List String} {members : List (String × Value)}
    (hknown : ∀ member ∈ members, member.1 ∈ names) (hdistinct : (members.map (·.1)).Nodup) :
    recordMembers? names (.ofMembers members) = some members := by
  have hnamed : (members.map fun member => (some member.1, member.2)).mapM
      (fun member => member.1.map fun key => (key, member.2)) = some members := by
    clear hknown hdistinct
    induction members with
    | nil => rfl
    | cons member rest ih =>
      rw [List.map_cons, List.mapM_cons, ih]
      rfl
  have hfilter : members.filter (fun member => names.contains member.1) = members :=
    List.filter_eq_self.2 fun member hmember => List.contains_iff_mem.2 (hknown member hmember)
  rw [Value.ofMembers, recordMembers?]
  refine (congrArg (· >>= _) hnamed).trans ?_
  simp only [Option.bind_eq_bind, Option.bind_some, hfilter, if_pos hdistinct]

/-- A member is found under its name and hides no other one. -/
theorem memberOr_cons {α : Type} (key : String) (value : Value) (rest : List (String × Value))
    (name : String) (read? : Value → Option α) (default : α) :
    memberOr ((key, value) :: rest) name read? default =
      if name = key then read? value else memberOr rest name read? default := by
  unfold memberOr
  rw [List.lookup_cons]
  by_cases hname : name = key
  · simp [hname]
  · simp [hname, beq_false_of_ne hname]

theorem readPolicy?_policyName (policy : NamePolicy) :
    readPolicy? (.ofText (policyName policy)) = some policy := by
  cases policy <;> decide

theorem readShape?_name (shape : Shape) : readShape? (.ofText shape.name) = some shape := by
  cases shape <;> decide

@[simp] theorem text?_ofText (text : String) : (Value.ofText text).text? = some text :=
  rfl

theorem readOptionalPath?_optionalPathValue (path : Option Pathname) :
    readOptionalPath? (optionalPathValue path) = some path := by
  cases path <;> rfl

end Records

end UxmlBindings.Settings

namespace UxmlBindings

open Binding Files Json Settings

/-- The settings of a project are read from their value. -/
theorem ProjectOptions.ofValue?_toValue (project : ProjectOptions) :
    ProjectOptions.ofValue? project.toValue = some project := by
  rw [ProjectOptions.ofValue?, ProjectOptions.overwrite?, ProjectOptions.toValue,
    recordMembers?_ofMembers (by simp [ProjectOptions.memberNames]) (by simp)]
  simp [memberOr_cons, readPolicy?_policyName, readTypes?_typesValue, Value.boolean?]

/-- The setting of a file is read from its value. -/
theorem AssetOptions.ofValue?_toValue (setting : AssetOptions) :
    AssetOptions.ofValue? setting.toValue = some setting := by
  rw [AssetOptions.ofValue?, AssetOptions.overwrite?, AssetOptions.toValue,
    recordMembers?_ofMembers (by simp [AssetOptions.memberNames]) (by simp)]
  simp [memberOr_cons, readShape?_name, readOptionalPath?_optionalPathValue]

/-- Settings are read from their value. -/
theorem Settings.ofValue?_toValue (settings : Settings) :
    Settings.ofValue? settings.toValue = some settings := by
  have hfiles : AssetOptions.listOfValue? (.array (settings.files.map AssetOptions.toValue)) =
      some settings.files := by
    rw [AssetOptions.listOfValue?]
    induction settings.files with
    | nil => rfl
    | cons setting rest ih =>
      rw [List.map_cons, List.mapM_cons, AssetOptions.ofValue?_toValue, ih]
      rfl
  rw [Settings.ofValue?, Settings.toValue, recordMembers?_ofMembers (by simp) (by simp)]
  simp [memberOr_cons, ProjectOptions.ofValue?_toValue, hfiles]

section Plain

theorem arePlain_of_forall {items : List Value} (hitems : ∀ item ∈ items, item.IsPlain) :
    Value.ArePlain items := by
  induction items with
  | nil => trivial
  | cons item rest ih =>
    rw [List.forall_mem_cons] at hitems
    exact ⟨hitems.1, ih hitems.2⟩

theorem isPlain_ofMembers {members : List (String × Value)}
    (hmembers : ∀ member ∈ members, member.2.IsPlain) : (Value.ofMembers members).IsPlain := by
  rw [Value.ofMembers, Value.IsPlain]
  induction members with
  | nil => trivial
  | cons member rest ih =>
    rw [List.forall_mem_cons] at hmembers
    exact ⟨rfl, hmembers.1, ih hmembers.2⟩

theorem isPlain_ofText (text : String) : (Value.ofText text).IsPlain :=
  rfl

theorem isPlain_optionalPathValue (path : Option Pathname) : (optionalPathValue path).IsPlain := by
  cases path with
  | none => trivial
  | some path => exact isPlain_ofText path.text

theorem isPlain_typesValue (types : ElementTypes) : (typesValue types).IsPlain := by
  apply isPlain_ofMembers
  intro member hmember
  obtain ⟨entry, -, rfl⟩ := List.mem_map.1 hmember
  exact isPlain_ofText entry.2

theorem ProjectOptions.isPlain_toValue (project : ProjectOptions) : project.toValue.IsPlain := by
  apply isPlain_ofMembers
  simp [isPlain_ofText, isPlain_typesValue, Value.IsPlain]

theorem AssetOptions.isPlain_toValue (setting : AssetOptions) : setting.toValue.IsPlain := by
  apply isPlain_ofMembers
  simp [isPlain_ofText, isPlain_optionalPathValue]

theorem Settings.isPlain_toValue (settings : Settings) : settings.toValue.IsPlain := by
  have hfiles : Value.ArePlain (settings.files.map AssetOptions.toValue) := by
    apply arePlain_of_forall
    intro item hitem
    obtain ⟨setting, -, rfl⟩ := List.mem_map.1 hitem
    exact setting.isPlain_toValue
  apply isPlain_ofMembers
  simp [settings.project.isPlain_toValue, Value.IsPlain, hfiles]

end Plain

/-- The text of settings is read as the settings. -/
theorem Settings.ofText?_toText (settings : Settings) :
    Settings.ofText? settings.toText = some settings := by
  have hblank : ∀ c ∈ "\n".toList, Token.isBlank c = true := by
    intro c hc
    obtain rfl : c = '\n' := List.mem_singleton.1 hc
    rfl
  rw [Settings.ofText?, Settings.toText, Value.parse?_render_append settings.isPlain_toValue hblank,
    Option.bind_some, settings.ofValue?_toValue]

end UxmlBindings
