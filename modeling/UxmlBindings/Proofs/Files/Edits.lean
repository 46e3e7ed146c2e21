import UxmlBindings.Proofs.Files.Places

/-!
# Edits of file trees

An edit changes what stands at one location, and never a directory. Edits of different locations can
be made in any order, and so can two that make directories. What an operation does to a tree is a list
of edits. It is the same list for a later tree that looks alike from the places with which the
operation deals: there the same entries stand, and above them at most directories were made.
-/

namespace UxmlBindings.Files.FileTree

/-- Trees with the same home and the same entries are the same if the same directories can be listed. -/
theorem eq_of_entries {tree other : FileTree} (hhome : tree.home = other.home)
    (hunlistable : tree.unlistable = other.unlistable)
    (hentries : ∀ location : Location, tree.entries[location]? = other.entries[location]?) :
    tree = other := by
  obtain ⟨entries, home, unlistable⟩ := tree
  obtain ⟨entries', home', unlistable'⟩ := other
  obtain rfl : home = home' := hhome
  obtain rfl : unlistable = unlistable' := hunlistable
  obtain rfl : entries = entries' := Std.ExtTreeMap.ext_getElem? hentries
  rfl

/-- A change of what stands at one location. -/
inductive Edit where
  /-- Makes a directory where nothing is. -/
  | ensure (location : Location)
  /-- Puts a file where no directory is. -/
  | store (location : Location) (content : Content)
  /-- Takes a file away. -/
  | discard (location : Location)

namespace Edit

/-- Where an edit changes something. -/
def location : Edit → Location
  | ensure location | store location _ | discard location => location

/-- What stands at the location of an edit after it. -/
def result : Edit → Option Entry → Option Entry
  | _, some .directory => some .directory
  | ensure _, none => some .directory
  | ensure _, some (.file content) => some (.file content)
  | store _ content, _ => some (.file content)
  | discard _, _ => none

/-- The tree after an edit. The top is left alone, as every directory. -/
def apply (edit : Edit) (tree : FileTree) : FileTree :=
  if edit.location = [] then tree
  else { tree with entries := tree.entries.alter edit.location edit.result }

/-- An edit leaves directories where they are. -/
@[simp] theorem result_directory (edit : Edit) :
    edit.result (some .directory) = some .directory := by
  cases edit <;> rfl

/-- An edit keeps the home of the tree. -/
@[simp] theorem home_apply (edit : Edit) (tree : FileTree) : (edit.apply tree).home = tree.home := by
  unfold apply
  split <;> rfl

/-- An edit keeps which directories can be listed. -/
@[simp] theorem unlistable_apply (edit : Edit) (tree : FileTree) :
    (edit.apply tree).unlistable = tree.unlistable := by
  unfold apply
  split <;> rfl

/-- An edit changes the entry of its location and no other. -/
theorem getElem?_apply (edit : Edit) (tree : FileTree) (other : Location) :
    (edit.apply tree).entries[other]? =
      if edit.location = other ∧ other ≠ [] then edit.result tree.entries[other]?
      else tree.entries[other]? := by
  unfold apply
  by_cases htop : edit.location = []
  · rw [if_pos htop, if_neg]
    rintro ⟨rfl, hother⟩
    exact hother htop
  · simp only [if_neg htop, Std.ExtTreeMap.getElem?_alter, Std.LawfulEqCmp.compare_eq_iff_eq]
    by_cases hother : edit.location = other
    · subst hother
      rw [if_pos rfl, if_pos ⟨rfl, htop⟩]
    · rw [if_neg hother, if_neg fun h => hother h.1]

/-- An edit changes what stands at its location and nowhere else. -/
theorem entryAt_apply (edit : Edit) (tree : FileTree) (other : Location) :
    (edit.apply tree).entryAt other =
      if edit.location = other then edit.result (tree.entryAt other) else tree.entryAt other := by
  unfold entryAt
  by_cases htop : other = []
  · simp [htop]
  · simp [htop, getElem?_apply]

/-- An edit takes no directory away. -/
theorem grows_apply (edit : Edit) (tree : FileTree) : Grows tree (edit.apply tree) := by
  refine ⟨home_apply edit tree, fun location hdirectory => ?_⟩
  rw [entryAt_apply, hdirectory, result_directory, ite_self]

/-- An edit without effect changes nothing. -/
theorem apply_eq_self {edit : Edit} {tree : FileTree}
    (hsame : edit.result (tree.entryAt edit.location) = tree.entryAt edit.location) :
    edit.apply tree = tree := by
  refine eq_of_entries (home_apply edit tree) (unlistable_apply edit tree) fun other => ?_
  rw [getElem?_apply]
  split
  · rename_i hother
    obtain ⟨rfl, htop⟩ := hother
    simpa [entryAt, htop] using hsame
  · rfl

/-- Two edits do not disturb each other: they are of different locations, or both make directories. -/
inductive Compatible : Edit → Edit → Prop
  | apart {first second : Edit} (hlocations : first.location ≠ second.location) :
      Compatible first second
  | directories (first second : Location) : Compatible (ensure first) (ensure second)

/-- Edits that do not disturb each other can be made in any order. -/
theorem apply_comm {first second : Edit} (hcompatible : Compatible first second) (tree : FileTree) :
    first.apply (second.apply tree) = second.apply (first.apply tree) := by
  refine eq_of_entries (by simp only [home_apply]) (by simp only [unlistable_apply]) fun other => ?_
  simp only [getElem?_apply]
  cases hcompatible with
  | apart hlocations =>
    by_cases hfirst : first.location = other ∧ other ≠ []
    · have hsecond : ¬ (second.location = other ∧ other ≠ []) := fun h =>
        hlocations (hfirst.1.trans h.1.symm)
      rw [if_pos hfirst, if_neg hsecond, if_neg hsecond, if_pos hfirst]
    · rw [if_neg hfirst, if_neg hfirst]
  | directories first second =>
    have hresult : (ensure first).result = (ensure second).result := by
      funext entry
      rcases entry with _ | _ | _ <;> rfl
    rw [hresult]
    split <;> split <;> rfl

end Edit

/-- The tree after some edits, one after the other. -/
def applyAll (edits : List Edit) (tree : FileTree) : FileTree :=
  edits.foldl (fun tree edit => edit.apply tree) tree

@[simp] theorem applyAll_nil (tree : FileTree) : applyAll [] tree = tree :=
  rfl

@[simp] theorem applyAll_cons (edit : Edit) (rest : List Edit) (tree : FileTree) :
    applyAll (edit :: rest) tree = applyAll rest (edit.apply tree) :=
  rfl

@[simp] theorem applyAll_append (edits others : List Edit) (tree : FileTree) :
    applyAll (edits ++ others) tree = applyAll others (applyAll edits tree) :=
  List.foldl_append

/-- An edit can be made before others or after them, if it disturbs none of them. -/
theorem apply_applyAll {edit : Edit} {others : List Edit}
    (hcompatible : ∀ other ∈ others, edit.Compatible other) (tree : FileTree) :
    edit.apply (applyAll others tree) = applyAll others (edit.apply tree) := by
  induction others generalizing tree with
  | nil => rfl
  | cons other rest ih =>
    rw [applyAll_cons, applyAll_cons, ih fun next hnext => hcompatible next (by simp [hnext]),
      Edit.apply_comm (hcompatible other (by simp))]

/-- Lists of edits can be made in any order if no edit of one disturbs one of the other. -/
theorem applyAll_comm {edits others : List Edit}
    (hcompatible : ∀ edit ∈ edits, ∀ other ∈ others, edit.Compatible other) (tree : FileTree) :
    applyAll edits (applyAll others tree) = applyAll others (applyAll edits tree) := by
  induction edits generalizing tree with
  | nil => rfl
  | cons edit rest ih =>
    rw [applyAll_cons, applyAll_cons, apply_applyAll (hcompatible edit (by simp)),
      ih fun next hnext => hcompatible next (by simp [hnext])]

/-- A location is above another one. -/
def IsAbove (location place : Location) : Prop :=
  location <+: place ∧ location ≠ place

/-- An edit is one for some places: it puts or takes away a file at one of them, or makes a directory
above one. -/
def Edit.Within (places : List Location) : Edit → Prop
  | .ensure location => ∃ place ∈ places, IsAbove location place
  | .store location _ | .discard location => location ∈ places

/-- No place of one list is a place of another list, or above one, or below one. -/
def Separate (places others : List Location) : Prop :=
  ∀ place ∈ places, ∀ other ∈ others, ¬ place <+: other ∧ ¬ other <+: place

theorem Separate.symm {places others : List Location} (hseparate : Separate places others) :
    Separate others places :=
  fun other hother place hplace => (hseparate place hplace other hother).symm

/-- The location of an edit for some places is one of them or above one, and unless the edit makes a
directory, it is one of them. -/
theorem Edit.Within.location_isPrefix {places : List Location} {edit : Edit}
    (hedit : edit.Within places) :
    (∃ place ∈ places, edit.location <+: place) ∧
      ((∃ location, edit = .ensure location) ∨ edit.location ∈ places) := by
  cases edit with
  | ensure location =>
    obtain ⟨place, hplace, hbegins, -⟩ := hedit
    exact ⟨⟨place, hplace, hbegins⟩, .inl ⟨location, rfl⟩⟩
  | store location content => exact ⟨⟨location, hedit, List.prefix_rfl⟩, .inr hedit⟩
  | discard location => exact ⟨⟨location, hedit, List.prefix_rfl⟩, .inr hedit⟩

/-- Edits for separate places do not disturb each other. -/
theorem Edit.Within.compatible {places others : List Location} {first second : Edit}
    (hfirst : first.Within places) (hsecond : second.Within others)
    (hseparate : Separate places others) : first.Compatible second := by
  obtain ⟨⟨place, hplace, hbelow⟩, hkind⟩ := hfirst.location_isPrefix
  obtain ⟨⟨other, hother, hbelow'⟩, hkind'⟩ := hsecond.location_isPrefix
  by_cases hsame : first.location = second.location
  · rcases hkind with ⟨location, rfl⟩ | hown
    · rcases hkind' with ⟨location', rfl⟩ | hown'
      · exact .directories location location'
      · exact absurd (hsame ▸ hbelow) (hseparate place hplace _ hown').2
    · exact absurd (hsame ▸ hbelow') (hseparate _ hown other hother).1
  · exact .apart hsame

/-- A later tree looks like an earlier one from some places: the same entries stand there, and above
them at most directories were made. -/
structure Alike (places : List Location) (tree later : FileTree) : Prop extends Grows tree later where
  own : ∀ place ∈ places, later.entryAt place = tree.entryAt place
  above : ∀ place ∈ places, ∀ location, IsAbove location place →
    later.entryAt location = tree.entryAt location ∨
      tree.entryAt location = none ∧ later.entryAt location = some .directory

section Alike

variable {places others : List Location} {tree later : FileTree} {edit : Edit}

theorem Alike.refl (places : List Location) (tree : FileTree) : Alike places tree tree :=
  ⟨.refl tree, fun _ _ => rfl, fun _ _ _ _ => .inl rfl⟩

/-- Trees remain alike when an edit for separate places is made in the later one. -/
theorem Alike.edit_other (halike : Alike places tree later) (hother : edit.Within others)
    (hseparate : Separate places others) : Alike places tree (edit.apply later) := by
  obtain ⟨⟨other, hmem, hbelow⟩, hkind⟩ := hother.location_isPrefix
  refine ⟨halike.toGrows.trans (edit.grows_apply later), fun place hplace => ?_,
    fun place hplace location habove => ?_⟩
  · rw [Edit.entryAt_apply, if_neg, halike.own place hplace]
    rintro rfl
    exact (hseparate _ hplace other hmem).1 hbelow
  · rw [Edit.entryAt_apply]
    split
    · rename_i hlocation
      subst hlocation
      rcases hkind with ⟨location, rfl⟩ | hown
      · rcases halike.above place hplace _ habove with hsame | ⟨hnone, hmade⟩
        · rw [hsame]
          rcases tree.entryAt (Edit.ensure location).location with _ | _ | content
          · exact .inr ⟨rfl, rfl⟩
          · exact .inl rfl
          · exact .inl rfl
        · exact .inr ⟨hnone, by rw [hmade, Edit.result_directory]⟩
      · exact absurd habove.1 (hseparate place hplace _ hown).2
    · exact halike.above place hplace location habove

/-- Trees remain alike when an edit for the places is made in both. -/
theorem Alike.edit_both (halike : Alike places tree later) (hedit : edit.Within places) :
    Alike places (edit.apply tree) (edit.apply later) := by
  -- At the location of the edit, the trees differ at most by a directory that the edit makes as well.
  have hlocation : later.entryAt edit.location = tree.entryAt edit.location ∨
      edit.result (later.entryAt edit.location) = edit.result (tree.entryAt edit.location) := by
    rcases hedit.location_isPrefix.2 with ⟨location, rfl⟩ | hown
    · obtain ⟨place, hplace, habove⟩ := hedit
      refine (halike.above place hplace location habove).imp_right fun ⟨hnone, hmade⟩ => ?_
      rw [Edit.location, hnone, hmade]
      rfl
    · exact .inl (halike.own _ hown)
  have hresult : edit.result (later.entryAt edit.location) =
      edit.result (tree.entryAt edit.location) :=
    hlocation.elim (congrArg edit.result) id
  refine ⟨⟨by simp only [Edit.home_apply, halike.home], fun location hdirectory => ?_⟩,
    fun place hplace => ?_, fun place hplace location habove => ?_⟩
  · rw [Edit.entryAt_apply] at hdirectory ⊢
    split at hdirectory
    · rename_i hsame
      subst hsame
      rw [if_pos rfl, hresult, hdirectory]
    · rename_i hother
      rw [if_neg hother, halike.directory location hdirectory]
  · rw [Edit.entryAt_apply, Edit.entryAt_apply, halike.own place hplace]
  · rw [Edit.entryAt_apply, Edit.entryAt_apply]
    split
    · rename_i hsame
      subst hsame
      exact .inl hresult
    · exact halike.above place hplace location habove

/-- Lists of edits keep trees alike, as single edits do. -/
theorem Alike.applyAll_other (halike : Alike places tree later) {edits : List Edit}
    (hothers : ∀ edit ∈ edits, edit.Within others) (hseparate : Separate places others) :
    Alike places tree (applyAll edits later) := by
  induction edits generalizing later with
  | nil => exact halike
  | cons edit rest ih =>
    exact ih (halike.edit_other (hothers edit (by simp)) hseparate)
      fun next hnext => hothers next (by simp [hnext])

theorem Alike.applyAll_both (halike : Alike places tree later) {edits : List Edit}
    (hedits : ∀ edit ∈ edits, edit.Within places) :
    Alike places (applyAll edits tree) (applyAll edits later) := by
  induction edits generalizing tree later with
  | nil => exact halike
  | cons edit rest ih =>
    exact ih (halike.edit_both (hedits edit (by simp)))
      fun next hnext => hedits next (by simp [hnext])

end Alike

/-- On a tree and on all later ones that look alike from some places, an operation comes to the same
outcome by the same edits for these places. -/
def ActsWithin {α : Type} (places : List Location) (tree : FileTree)
    (operation : FileTree → α × FileTree) : Prop :=
  ∃ outcome edits, (∀ edit ∈ edits, edit.Within places) ∧
    ∀ later, Alike places tree later → operation later = (outcome, applyAll edits later)

section Operations

variable {places : List Location} {tree : FileTree}

/-- Operations that are done within places one after the other are done within the places. -/
theorem ActsWithin.andThen {α β : Type} {operation : FileTree → α × FileTree}
    {rest : α → FileTree → β × FileTree} (hacts : ActsWithin places tree operation)
    (hrest : ∀ outcome made, operation tree = (outcome, made) →
      ActsWithin places made (rest outcome)) :
    ActsWithin places tree fun later => rest (operation later).1 (operation later).2 := by
  obtain ⟨outcome, edits, hedits, hacts⟩ := hacts
  obtain ⟨result, more, hmore, hends⟩ := hrest outcome _ (hacts tree (.refl places tree))
  refine ⟨result, edits ++ more, ?_, fun later halike => ?_⟩
  · intro edit hedit
    exact (List.mem_append.1 hedit).elim (hedits edit) (hmore edit)
  · dsimp only
    rw [hacts later halike, hends _ (halike.applyAll_both hedits), applyAll_append]

/-- What does nothing is done within any places. -/
theorem actsWithin_pure {α : Type} (outcome : α) :
    ActsWithin places tree fun later => (outcome, later) :=
  ⟨outcome, [], nofun, fun _ _ => rfl⟩

/-- What is the same on all trees that look alike is done within the same places. -/
theorem ActsWithin.of_eq {α : Type} {operation other : FileTree → α × FileTree}
    (hacts : ActsWithin places tree other)
    (heq : ∀ later, Alike places tree later → operation later = other later) :
    ActsWithin places tree operation := by
  obtain ⟨outcome, edits, hedits, hother⟩ := hacts
  exact ⟨outcome, edits, hedits, fun later halike => (heq later halike).trans (hother later halike)⟩

end Operations

end UxmlBindings.Files.FileTree
