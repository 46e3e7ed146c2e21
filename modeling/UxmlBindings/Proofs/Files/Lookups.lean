import UxmlBindings.Proofs.Files.Locality

/-!
# Looking up paths

Where a path leads in a tree, it leads in all trees that look alike from its place, and what is read or
removed there is the same. Only for a path that leads nowhere because a directory is missing, the
directory may have been made in the other tree. There is nothing below it in either tree, so nothing can
be read or removed; but a name that is too long is noticed in the other tree only.
-/

namespace UxmlBindings.Files.FileTree

open Pathname

/-- A piece of a path is too long to be looked up. -/
def HasLongName (path : Pathname) : Prop :=
  ∃ piece ∈ path.pieces, maxNameBytes < (String.ofList piece).utf8ByteSize

variable {tree later : FileTree} {places : List Location} {base location place : Location}
  {pieces : List (List Char)} {root next : Pathname}

/-- Following pieces has met no file: it has led somewhere, or a directory is missing, or a name is too
long. -/
def Unblocked (outcome : Except Fault Location) (pieces : List (List Char)) : Prop :=
  (∃ place, outcome = .ok place) ∨ outcome = .error .notFound ∨
    outcome = .error .tooLong ∧ ∃ piece ∈ pieces, maxNameBytes < (String.ofList piece).utf8ByteSize

theorem Unblocked.of_subset {outcome : Except Fault Location} {others : List (List Char)}
    (hunblocked : Unblocked outcome pieces) (hsubset : pieces ⊆ others) :
    Unblocked outcome others :=
  hunblocked.imp_right <| .imp_right <| .imp_right fun ⟨piece, hpiece, hlong⟩ =>
    ⟨piece, hsubset hpiece, hlong⟩

/-- There is nothing below nothing. -/
theorem IsGrounded.entryAt_eq_none (hgrounded : tree.IsGrounded) (hbegins : location <+: place)
    (hnone : tree.entryAt location = none) : tree.entryAt place = none := by
  by_cases hsame : location = place
  · exact hsame ▸ hnone
  · rw [← Option.not_isSome_iff_eq_none]
    intro hsome
    rw [hgrounded.directory_above ⟨hbegins, hsame⟩ hsome] at hnone
    cases hnone

/-- No file is met on a way where none is. -/
theorem unblocked_of_noFile (hdescends : Descends pieces)
    (hnofile : ∀ location, base <+: location → location <+: pieces.foldl turnFrom base →
      ∀ content, tree.entryAt location ≠ some (.file content)) :
    Unblocked (tree.follow base pieces) pieces := by
  induction pieces generalizing base with
  | nil => exact .inl ⟨base, rfl⟩
  | cons piece rest ih =>
    have hrest : Descends rest := fun other hother => hdescends other (by simp [hother])
    have hturn := turnOf_of_ne_up (hdescends piece (by simp))
    rw [List.foldl_cons, turnFrom] at hnofile
    rw [follow]
    cases hidle : isIdle piece with
    | true =>
      rw [hidle, if_pos rfl] at hturn
      rw [hturn] at hnofile ⊢
      exact (ih hrest hnofile).of_subset (List.subset_cons_self piece rest)
    | false =>
      rw [hidle, if_neg Bool.false_ne_true] at hturn
      rw [hturn] at hnofile ⊢
      dsimp only at hnofile ⊢
      have hbelow := prefix_foldl_turnFrom hrest (base ++ [String.ofList piece])
      split
      · rename_i hname
        exact .inr (.inr ⟨rfl, piece, by simp, hname⟩)
      split
      · exact .inl ⟨_, rfl⟩
      split
      · refine (ih hrest fun location hbegins => ?_).of_subset (List.subset_cons_self piece rest)
        exact hnofile location ((List.prefix_append _ _).trans hbegins)
      · rename_i content hfile
        exact absurd hfile (hnofile _ (List.prefix_append _ _) hbelow content)
      · exact .inr (.inl rfl)

/-- What a later tree that looks alike from a place has on the way there. -/
theorem Alike.onTheWay (halike : Alike places tree later) (hplace : place ∈ places)
    (hbegins : location <+: place) :
    later.entryAt location = tree.entryAt location ∨
      IsAbove location place ∧ tree.entryAt location = none ∧
        later.entryAt location = some .directory := by
  by_cases hsame : location = place
  · exact .inl (hsame ▸ halike.own place hplace)
  · exact (halike.above place hplace location ⟨hbegins, hsame⟩).imp_right fun hmade =>
      ⟨⟨hbegins, hsame⟩, hmade⟩

/-- Pieces lead to the same, unless a directory is missing in the earlier tree. -/
theorem follow_alike (hgrounded : tree.IsGrounded) (halike : Alike places tree later)
    (hplace : pieces.foldl turnFrom base ∈ places) (hdescends : Descends pieces) :
    later.follow base pieces = tree.follow base pieces ∨
      (∃ location, IsAbove location (pieces.foldl turnFrom base) ∧ tree.entryAt location = none) ∧
        tree.follow base pieces = .error .notFound ∧
          Unblocked (later.follow base pieces) pieces := by
  induction pieces generalizing base with
  | nil => exact .inl rfl
  | cons piece rest ih =>
    have hrest : Descends rest := fun other hother => hdescends other (by simp [hother])
    have hmore := List.subset_cons_self piece rest
    rw [List.foldl_cons, turnFrom] at hplace ⊢
    rw [follow, follow]
    cases hturn : turnOf piece with
    | stay =>
      rw [hturn] at hplace
      refine (ih hplace hrest).imp_right ?_
      rintro ⟨hmissing, hnotFound, hunblocked⟩
      exact ⟨hmissing, hnotFound, hunblocked.of_subset hmore⟩
    | up => exact absurd hturn (hdescends piece (by simp))
    | down name =>
      rw [hturn] at hplace
      dsimp only at hplace ⊢
      have hbelow := prefix_foldl_turnFrom hrest (base ++ [name])
      by_cases hname : maxNameBytes < name.utf8ByteSize
      · exact .inl (by rw [if_pos hname, if_pos hname])
      rw [if_neg hname, if_neg hname]
      by_cases hlast : rest.isEmpty = true
      · exact .inl (by rw [if_pos hlast, if_pos hlast])
      rw [if_neg hlast, if_neg hlast]
      rcases halike.onTheWay hplace hbelow with hsame | ⟨habove, hnone, hmade⟩
      · rw [hsame]
        rcases tree.entryAt (base ++ [name]) with _ | _ | content
        · exact .inl rfl
        · refine (ih hplace hrest).imp_right ?_
          rintro ⟨hmissing, hnotFound, hunblocked⟩
          exact ⟨hmissing, hnotFound, hunblocked.of_subset hmore⟩
        · exact .inl rfl
      · -- In the later tree are no files below the directory that was made.
        refine .inr ⟨⟨_, habove, hnone⟩, by rw [hnone], ?_⟩
        rw [hmade]
        refine (unblocked_of_noFile hrest fun location hbegins hend content => ?_).of_subset hmore
        rcases halike.onTheWay hplace hend with hsame | ⟨-, -, hdirectory⟩
        · rw [hsame, hgrounded.entryAt_eq_none hbegins hnone]
          rintro ⟨⟩
        · rw [hdirectory]
          rintro ⟨⟩

/-- A plain path that continues a root leads to the same, unless a directory is missing in the earlier
tree. -/
theorem locationOf_alike (hgrounded : tree.IsGrounded) (henters : Enters tree root)
    (hplain : next.isPlain = true) (hplace : placeOf tree.home (root.join next) ∈ places)
    (halike : Alike places tree later) :
    later.locationOf (root.join next) = tree.locationOf (root.join next) ∨
      (∃ location, IsAbove location (placeOf tree.home (root.join next)) ∧
        tree.entryAt location = none) ∧
        tree.locationOf (root.join next) = .error .notFound ∧
          Unblocked (later.locationOf (root.join next)) (root.join next).pieces := by
  have hnext := isAbsolute_of_isPlain hplain
  have hend : next.pieces.foldl turnFrom (placeOf tree.home root) =
      placeOf tree.home (root.join next) := by
    rw [placeOf_join tree.home root hplain, foldl_turnFrom_of_descends (descends_of_isPlain hplain)]
    rfl
  rw [locationOf_join henters hnext, locationOf_join (henters.grow halike.toGrows) hnext, halike.home]
  cases refusal? (root.join next) with
  | some fault => exact .inl rfl
  | none =>
    rw [← hend] at hplace ⊢
    refine (follow_alike hgrounded halike hplace (descends_of_isPlain hplain)).imp_right ?_
    rintro ⟨hmissing, hnotFound, hunblocked⟩
    rw [pieces_join root hnext]
    exact ⟨hmissing, hnotFound, hunblocked.of_subset (List.subset_append_right _ _)⟩

/-- A path to something that exists leads to the same. -/
theorem locationOf_alike_of_isSome (hgrounded : tree.IsGrounded) (henters : Enters tree root)
    (hplain : next.isPlain = true) (hplace : placeOf tree.home (root.join next) ∈ places)
    (hsome : (tree.entryAt (placeOf tree.home (root.join next))).isSome)
    (halike : Alike places tree later) :
    later.locationOf (root.join next) = tree.locationOf (root.join next) := by
  refine (locationOf_alike hgrounded henters hplain hplace halike).elim id ?_
  rintro ⟨⟨location, habove, hnone⟩, -⟩
  rw [hgrounded.directory_above habove hsome] at hnone
  cases hnone

/-- The text that is read at a path is the same. If there is none, the reason may be a missing directory
or a name that is too long, if both is the case. -/
theorem readText_alike (hgrounded : tree.IsGrounded) (henters : Enters tree root)
    (hplain : next.isPlain = true) (hplace : placeOf tree.home (root.join next) ∈ places)
    (halike : Alike places tree later) :
    later.readText (root.join next) = tree.readText (root.join next) ∨
      HasLongName (root.join next) ∧ tree.readText (root.join next) = .error .notFound ∧
        later.readText (root.join next) = .error .tooLong := by
  rcases locationOf_alike hgrounded henters hplain hplace halike with
    hsame | ⟨⟨location, habove, hnone⟩, hnotFound, hunblocked⟩
  · left
    rw [readText, readText, hsame]
    cases hpath : tree.locationOf (root.join next) with
    | error fault => rfl
    | ok place =>
      obtain rfl := eq_placeOf hpath
      simp only [bind, Except.bind, halike.own _ hplace]
  · have hread : tree.readText (root.join next) = .error .notFound := by
      rw [readText, hnotFound]
      rfl
    have hnothing := hgrounded.entryAt_eq_none habove.1 hnone
    rcases hunblocked with ⟨place, hpath⟩ | hpath | ⟨hpath, hlong⟩
    · left
      obtain rfl := eq_placeOf hpath
      rw [hread, readText, hpath]
      simp only [bind, Except.bind, halike.home, halike.own _ hplace, hnothing]
    · left
      rw [hread, readText, hpath]
      rfl
    · right
      refine ⟨hlong, hread, ?_⟩
      rw [readText, hpath]
      rfl

/-- A removal as an operation that leaves a tree in any case. -/
def afterRemoval (path : Pathname) (tree : FileTree) : Except Fault Unit × FileTree :=
  match tree.removeFile path with
  | .error fault => (.error fault, tree)
  | .ok later => (.ok (), later)

/-- Nothing is removed where nothing is. -/
theorem afterRemoval_of_none {path : Pathname} (hnone : tree.entryAt (placeOf tree.home path) = none) :
    ∃ fault, afterRemoval path tree = (.error fault, tree) := by
  rw [afterRemoval, removeFile]
  cases hpath : tree.locationOf path with
  | error fault => exact ⟨fault, rfl⟩
  | ok place =>
    obtain rfl := eq_placeOf hpath
    refine ⟨.notFound, ?_⟩
    simp only [bind, Except.bind, hnone]

/-- A removal at a path that leads to the same in all trees is done within the place. -/
theorem actsWithin_afterRemoval {path : Pathname} (hplace : placeOf tree.home path ∈ places)
    (hsame : ∀ later, Alike places tree later → later.locationOf path = tree.locationOf path) :
    ActsWithin places tree (afterRemoval path) := by
  cases hpath : tree.locationOf path with
  | error fault =>
    refine ⟨.error fault, [], List.forall_mem_nil _, fun later halike => ?_⟩
    rw [afterRemoval, removeFile, hsame later halike, hpath]
    rfl
  | ok place =>
    obtain rfl := eq_placeOf hpath
    rcases hentry : tree.entryAt (placeOf tree.home path) with _ | _ | content
    · refine ⟨.error .notFound, [], List.forall_mem_nil _, fun later halike => ?_⟩
      rw [afterRemoval, removeFile, hsame later halike, hpath]
      simp only [bind, Except.bind, halike.own _ hplace, hentry, applyAll_nil]
    · refine ⟨.error .isADirectory, [], List.forall_mem_nil _, fun later halike => ?_⟩
      rw [afterRemoval, removeFile, hsame later halike, hpath]
      simp only [bind, Except.bind, halike.own _ hplace, hentry, applyAll_nil]
    · refine ⟨.ok (), [.discard (placeOf tree.home path)], ?_, fun later halike => ?_⟩
      · rintro edit (_ | ⟨_, ⟨⟩⟩)
        exact hplace
      · have hfile : later.entryAt (placeOf tree.home path) ≠ some .directory := by
          rw [halike.own _ hplace, hentry]
          rintro ⟨⟩
        rw [afterRemoval, removeFile, hsame later halike, hpath, applyAll_cons, applyAll_nil,
          ← erase_eq_apply hfile]
        simp only [bind, Except.bind, halike.own _ hplace, hentry]

/-- What a removal leaves is done within the place of the path. -/
theorem actsWithin_removal (hgrounded : tree.IsGrounded) (henters : Enters tree root)
    (hplain : next.isPlain = true) (hplace : placeOf tree.home (root.join next) ∈ places) :
    ActsWithin places tree fun later => ((), (afterRemoval (root.join next) later).2) := by
  cases hentry : tree.entryAt (placeOf tree.home (root.join next)) with
  | none =>
    refine (actsWithin_pure ()).of_eq fun later halike => ?_
    have hnone : later.entryAt (placeOf later.home (root.join next)) = none := by
      rw [halike.home, halike.own _ hplace, hentry]
    obtain ⟨fault, hremoval⟩ := afterRemoval_of_none hnone
    rw [hremoval]
  | some entry =>
    have hsame (later : FileTree) (halike : Alike places tree later) :=
      locationOf_alike_of_isSome hgrounded henters hplain hplace (by rw [hentry]; rfl) halike
    exact (actsWithin_afterRemoval hplace hsame).andThen fun _ _ _ => actsWithin_pure ()

/-- Removing a file leaves everything in a directory. -/
theorem IsGrounded.afterRemoval (hgrounded : tree.IsGrounded) (path : Pathname) :
    (afterRemoval path tree).2.IsGrounded := by
  rw [FileTree.afterRemoval, removeFile]
  cases hpath : tree.locationOf path with
  | error fault => exact hgrounded
  | ok place =>
    simp only [bind, Except.bind]
    cases hentry : tree.entryAt place with
    | none => exact hgrounded
    | some entry =>
      cases entry with
      | directory => exact hgrounded
      | file content =>
        dsimp only
        have hfile : tree.entryAt place ≠ some .directory := by
          rw [hentry]
          rintro ⟨⟩
        rw [erase_eq_apply hfile]
        refine hgrounded.apply fun parent name hlocation hsome => ?_
        rw [Edit.location, hentry] at hsome
        cases hsome

end UxmlBindings.Files.FileTree
