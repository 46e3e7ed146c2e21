import UxmlBindings.Files.System
import UxmlBindings.Proofs.Files.Repeats

/-!
# What is asked of systems

Three things can be asked of a system. A careful one changes no file before it has opened it, and one
that has room fills every file that it opens, so on both together a write that fails changes no file.
Without links, a file that is written or removed is at one place, and no other file changes. On a system
that repeats itself, what was made or written once is made or written again without any change. The
plain system does all of this.
-/

namespace UxmlBindings.Files

open FileTree

namespace System

/-- Before a file was opened, no file is changed. -/
structure IsCareful (system : System) : Prop where
  /-- Making directories changes no file, even if not all of them can be made. -/
  directories : ∀ tree path, KeepsFiles tree (system.makeDirectories tree path).2
  /-- Neither does a file change that cannot be opened. -/
  unopened : ∀ tree path fault later,
    system.create tree path = (.error fault, later) → KeepsFiles tree later

/-- What was opened can be filled: there is space for it, and nothing breaks the write off. -/
def HasRoom (system : System) : Prop :=
  ∀ tree path text made, system.create tree path = (.ok (), made) →
    (system.fill made path text).1 = .ok ()

/-- A change of a file is a change at the place to which its path leads, and nowhere else. This is what
symbolic and hard links break. -/
structure IsLinkless (system : System) : Prop where
  /-- Making directories changes no file. -/
  directories : ∀ tree path, KeepsFiles tree (system.makeDirectories tree path).2
  /-- A file that was written is at the place of its path, and all others are as before. -/
  writes : ∀ tree path text later,
    system.write tree path text = (.ok (), later) → Writes path (.text text) tree later
  /-- A file that was removed was at the place of its path, and all others are as before. -/
  removes : ∀ tree path later,
    system.removeFile tree path = (.ok (), later) → Removes path tree later
  /-- A removal that fails changes no file. -/
  unremoved : ∀ tree path fault later,
    system.removeFile tree path = (.error fault, later) → KeepsFiles tree later

/-- What was done once is done again without any change. -/
structure IsRepeatable (system : System) : Prop where
  /-- Directories that were made are found to be there. -/
  directories : ∀ tree path made later, system.makeDirectories tree path = (.ok (), made) →
    Grows made later → system.makeDirectories later path = (.ok (), later)
  /-- A file that was written is written again as long as it holds what was written. -/
  writes : ∀ tree path text written later, system.write tree path text = (.ok (), written) →
    Grows written later → later.content? (placeOf tree.home path) = some (.text text) →
    system.write later path text = (.ok (), later)

variable {system : System} {tree later written : FileTree} {path place : Pathname} {text : String}
  {fault : Fault}

/-- A write with the directories above it comes to the write itself if these are made. -/
theorem writeWithParents_eq_ok_iff :
    system.writeWithParents tree path text = (.ok (), written) ↔
      ∃ made, system.makeParents tree path = (.ok (), made) ∧
        system.write made path text = (.ok (), written) := by
  unfold writeWithParents
  rcases system.makeParents tree path with ⟨blocked | ⟨⟩, made⟩
  · simp
  · rcases hwrite : system.write made path text with ⟨fault | ⟨⟩, later⟩ <;>
      simp [hwrite, Except.mapError]

theorem makeParents_of_parent {parent : Pathname} (hparent : path.parent? = some parent)
    (tree : FileTree) : system.makeParents tree path =
      ((system.makeDirectories tree parent).1.mapError fun fault => (parent, fault),
        (system.makeDirectories tree parent).2) := by
  rw [makeParents, hparent]

theorem makeParents_keepsFiles (hdirectories : ∀ tree path, KeepsFiles tree
    (system.makeDirectories tree path).2) (tree : FileTree) (path : Pathname) :
    KeepsFiles tree (system.makeParents tree path).2 := by
  unfold makeParents
  cases path.parent? with
  | none => exact .refl tree
  | some parent => exact hdirectories tree parent

/-- What a write leaves that fails on a careful system: all files as they were, or the file opened, but
not filled. -/
theorem IsCareful.of_unwritten (hcareful : system.IsCareful)
    (hwrite : system.writeWithParents tree path text = (.error (place, fault), later)) :
    KeepsFiles tree later ∨
      ∃ made opened, KeepsFiles tree made ∧ system.create made path = (.ok (), opened) ∧
        system.fill opened path text = (.error fault, later) ∧ place = path := by
  have hkeeps := makeParents_keepsFiles hcareful.directories tree path
  unfold writeWithParents at hwrite
  rcases hparents : system.makeParents tree path with ⟨blocked | ⟨⟩, made⟩
  · rw [hparents] at hwrite hkeeps
    obtain ⟨-, rfl⟩ := Prod.mk.inj hwrite
    exact .inl hkeeps
  rw [hparents] at hwrite hkeeps
  dsimp only at hwrite hkeeps
  rcases hfile : system.write made path text with ⟨failed | ⟨⟩, left⟩
  · rw [hfile] at hwrite
    obtain ⟨houtcome, rfl⟩ := Prod.mk.inj hwrite
    obtain ⟨hplace, rfl⟩ := Prod.mk.inj (Except.error.inj houtcome)
    rw [write] at hfile
    rcases hcreate : system.create made path with ⟨refused | ⟨⟩, opened⟩
    · rw [hcreate] at hfile
      obtain ⟨-, rfl⟩ := Prod.mk.inj hfile
      exact .inl (hkeeps.trans (hcareful.unopened _ _ _ _ hcreate))
    · rw [hcreate] at hfile
      exact .inr ⟨made, opened, hkeeps, hcreate, hfile, hplace.symm⟩
  · rw [hfile] at hwrite
    cases congrArg Prod.fst hwrite

/-- Without links, a write with the directories above it writes the file. -/
theorem IsLinkless.writesWithParents (hlinkless : system.IsLinkless)
    (hwrite : system.writeWithParents tree path text = (.ok (), written)) :
    Writes path (.text text) tree written := by
  obtain ⟨made, hparents, hfile⟩ := writeWithParents_eq_ok_iff.1 hwrite
  have hkeeps := makeParents_keepsFiles hlinkless.directories tree path
  rw [hparents] at hkeeps
  exact hkeeps.writes (hlinkless.writes _ _ _ _ hfile)

/-- Without links, a removal changes no file but the one at the place of its path. -/
theorem IsLinkless.removal (hlinkless : system.IsLinkless) (tree : FileTree) (path : Pathname) :
    Grows tree (system.removeFile tree path).2 ∧
      ∀ location, placeOf tree.home path ≠ location →
        (system.removeFile tree path).2.content? location = tree.content? location := by
  rcases hremove : system.removeFile tree path with ⟨fault | ⟨⟩, later⟩
  · have hkeeps := hlinkless.unremoved _ _ _ _ hremove
    exact ⟨hkeeps.toGrows, fun location _ => hkeeps.content location⟩
  · have hremoves := hlinkless.removes _ _ _ hremove
    exact ⟨hremoves.toGrows, fun location hother => (hremoves.content location).trans (if_neg hother)⟩

/-- The directories above a file are found to be there once they were made. -/
theorem IsRepeatable.makeParents {made : FileTree} (hrepeatable : system.IsRepeatable)
    (hparents : system.makeParents tree path = (.ok (), made)) (hgrows : Grows made later) :
    system.makeParents later path = (.ok (), later) := by
  cases hparent : path.parent? with
  | none =>
    rw [System.makeParents, hparent]
  | some parent =>
    rw [makeParents_of_parent hparent] at hparents ⊢
    rcases hmade : system.makeDirectories tree parent with ⟨fault | ⟨⟩, directories⟩
    · rw [hmade] at hparents
      cases congrArg Prod.fst hparents
    · rw [hmade] at hparents
      obtain rfl : directories = made := (Prod.mk.inj hparents).2
      rw [hrepeatable.directories _ _ _ _ hmade hgrows]
      rfl

/-- A file that was written with the directories above it is written again as long as it holds what was
written. -/
theorem IsRepeatable.writesWithParents (hrepeatable : system.IsRepeatable)
    (hlinkless : system.IsLinkless)
    (hwrite : system.writeWithParents tree path text = (.ok (), written))
    (hgrows : Grows written later)
    (hstill : later.content? (placeOf tree.home path) = some (.text text)) :
    system.writeWithParents later path text = (.ok (), later) := by
  obtain ⟨made, hparents, hfile⟩ := writeWithParents_eq_ok_iff.1 hwrite
  have hkeeps := makeParents_keepsFiles hlinkless.directories tree path
  have hwrites := hlinkless.writes _ _ _ _ hfile
  have hagain := hrepeatable.makeParents hparents (hwrites.toGrows.trans hgrows)
  rw [hparents] at hkeeps
  rw [← hkeeps.home] at hstill
  exact writeWithParents_eq_ok_iff.2
    ⟨later, hagain, hrepeatable.writes _ _ _ _ _ hfile hgrows hstill⟩

section Plain

theorem settle_eq_ok_iff {result : Except Fault FileTree} :
    settle tree result = (.ok (), later) ↔ result = .ok later := by
  cases result <;> simp [settle]

theorem settle_eq_error_iff {result : Except Fault FileTree} :
    settle tree result = (.error fault, later) ↔ result = .error fault ∧ later = tree := by
  cases result <;> simp [settle, eq_comm]

/-- Where a file is put that is written to a path. -/
def target (tree : FileTree) (path : Pathname) : Except Fault Location := do
  let location ← tree.locationOf path
  if tree.entryAt location = some .directory then .error .isADirectory else .ok location

/-- Whether a file can be written does not depend on what is written. -/
theorem write_eq_map (tree : FileTree) (path : Pathname) (content : Content) :
    tree.write path content =
      (target tree path).map fun location => tree.put location (.file content) := by
  rw [FileTree.write, target]
  cases tree.locationOf path with
  | error fault => rfl
  | ok location =>
    simp only [bind, Except.bind]
    rcases tree.entryAt location with _ | _ | content <;> rfl

theorem target_eq_ok_iff {location : Location} :
    target tree path = .ok location ↔
      tree.locationOf path = .ok location ∧ tree.entryAt location ≠ some .directory := by
  rw [target]
  cases tree.locationOf path with
  | error fault => simp [bind, Except.bind]
  | ok place =>
    simp only [bind, Except.bind, Except.ok.injEq]
    split
    · rename_i hdirectory
      simp only [reduceCtorEq, false_iff, not_and, not_not]
      rintro rfl
      exact hdirectory
    · rename_i hother
      simp only [Except.ok.injEq]
      constructor
      · rintro rfl
        exact ⟨rfl, hother⟩
      · exact fun h => h.1

/-- A file that is put where one was put replaces it. -/
theorem put_put (tree : FileTree) (location : Location) (first second : Entry) :
    (tree.put location first).put location second = tree.put location second := by
  refine eq_of_entries rfl rfl fun other => ?_
  simp only [put, Std.ExtTreeMap.getElem?_insert]
  split <;> rfl

/-- A file that was put at a path is written again at the same location. -/
theorem target_put {location : Location} (htarget : target tree path = .ok location)
    (content : Content) : target (tree.put location (.file content)) path = .ok location := by
  obtain ⟨hpath, hentry⟩ := target_eq_ok_iff.1 htarget
  refine target_eq_ok_iff.2 ⟨(grows_put hentry _).locationOf hpath, ?_⟩
  rw [entryAt_put tree (ne_nil_of_entryAt hentry), if_pos rfl]
  nofun

/-- A plain system writes a file as the tree does, although it opens it first. -/
theorem plain_write (tree : FileTree) (path : Pathname) (text : String) :
    plain.write tree path text = settle tree (tree.write path (.text text)) := by
  simp only [write, plain, write_eq_map]
  cases htarget : target tree path with
  | error fault => rfl
  | ok location => simp only [Except.map, settle, target_put htarget, put_put]

/-- A plain system makes the directories above a file and writes it as the tree does. -/
theorem plain_writeWithParents (tree : FileTree) (path : Pathname) (text : String) :
    plain.writeWithParents tree path text = tree.writeWithParents path (.text text) := by
  unfold writeWithParents FileTree.writeWithParents
  cases hparent : path.parent? with
  | none =>
    simp only [makeParents, hparent, plain_write]
    cases tree.write path (.text text) <;> rfl
  | some parent =>
    have hmake : plain.makeDirectories tree parent = tree.makeDirectories parent := rfl
    rw [makeParents_of_parent hparent, hmake]
    dsimp only
    rcases tree.makeDirectories parent with ⟨fault | ⟨⟩, made⟩
    · rfl
    · simp only [plain_write, Except.mapError]
      cases made.write path (.text text) <;> rfl

/-- A plain system removes a file as the tree does. -/
theorem plain_removeFile (tree : FileTree) (path : Pathname) :
    plain.removeFile tree path = settle tree (tree.removeFile path) :=
  rfl

theorem plain_isCareful : plain.IsCareful where
  directories := keepsFiles_makeDirectories
  unopened tree path fault later hcreate := by
    obtain ⟨-, rfl⟩ := settle_eq_error_iff.1 hcreate
    exact .refl later

theorem plain_hasRoom : plain.HasRoom := by
  intro tree path text made hcreate
  have hmade := settle_eq_ok_iff.1 hcreate
  rw [write_eq_map] at hmade
  cases htarget : target tree path with
  | error fault =>
    rw [htarget] at hmade
    cases hmade
  | ok location =>
    rw [htarget] at hmade
    obtain rfl := Except.ok.inj hmade
    simp only [plain, write_eq_map, target_put htarget, Except.map, settle]

theorem plain_isLinkless : plain.IsLinkless where
  directories := keepsFiles_makeDirectories
  writes tree path text later hwrite := by
    rw [plain_write, settle_eq_ok_iff] at hwrite
    exact writes_of_write hwrite
  removes tree path later hremove := removes_of_removeFile (settle_eq_ok_iff.1 hremove)
  unremoved tree path fault later hremove := by
    obtain ⟨-, rfl⟩ := settle_eq_error_iff.1 hremove
    exact .refl later

theorem plain_isRepeatable : plain.IsRepeatable where
  directories tree path made later := makeDirectories_again
  writes tree path text written later hwrite hgrows hstill := by
    rw [plain_write, settle_eq_ok_iff] at hwrite ⊢
    exact write_again (hgrows.locationOf (writes_of_write hwrite).reached) hstill

end Plain

end System

end UxmlBindings.Files
