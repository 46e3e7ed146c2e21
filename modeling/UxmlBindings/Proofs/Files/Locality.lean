import Mathlib.Data.List.Induction
import UxmlBindings.Proofs.Files.Edits
import UxmlBindings.Proofs.Files.Pieces

/-!
# Operations within places

An operation on a path that continues a root by plain names deals with one place and the directories
above it. Where the pieces of the root lead through directories, making directories and writing a file
come to the same on all trees that look alike from this place. In a tree of which every entry is in a
directory, they leave every entry in a directory.
-/

namespace UxmlBindings.Files.FileTree

open Pathname

section Places

variable {location place : Location}

/-- What begins a location above a place is above the place. -/
theorem IsAbove.of_prefix {other : Location} (habove : IsAbove location place)
    (hbegins : other <+: location) : IsAbove other place := by
  refine ⟨hbegins.trans habove.1, ?_⟩
  rintro rfl
  exact habove.2 (List.IsPrefix.eq_of_length_le habove.1 hbegins.length_le)

/-- What is above a place begins the location that has the place. -/
theorem IsAbove.prefix_dropLast (habove : IsAbove location place) : location <+: place.dropLast := by
  rcases List.eq_nil_or_concat place with rfl | ⟨before, name, rfl⟩
  · exact habove.1
  · rw [List.concat_eq_append] at habove ⊢
    rw [List.dropLast_concat]
    exact (List.prefix_concat_iff.1 habove.1).resolve_left habove.2

/-- The location that a name is below is above the place. -/
theorem isAbove_concat (place : Location) (name : String) : IsAbove place (place ++ [name]) :=
  ⟨List.prefix_append _ _, by simp⟩

end Places

section Changes

variable {tree : FileTree} {location : Location}

/-- An edit after which something stands at its location puts it there. -/
theorem put_eq_apply {edit : Edit} {entry : Entry} (htop : edit.location ≠ [])
    (hresult : edit.result (tree.entryAt edit.location) = some entry) :
    tree.put edit.location entry = edit.apply tree := by
  rw [entryAt, List.isEmpty_eq_false_iff.2 htop, if_neg Bool.false_ne_true] at hresult
  refine eq_of_entries (edit.home_apply tree).symm (edit.unlistable_apply tree).symm fun other => ?_
  rw [Edit.getElem?_apply]
  simp only [put, Std.ExtTreeMap.getElem?_insert, Std.LawfulEqCmp.compare_eq_iff_eq]
  by_cases hother : edit.location = other
  · subst hother
    rw [if_pos rfl, if_pos ⟨rfl, htop⟩, hresult]
  · rw [if_neg hother, if_neg fun h => hother h.1]

/-- Making a directory where nothing is, is an edit. -/
theorem put_directory_eq_apply (hnone : tree.entryAt location = none) :
    tree.put location .directory = (Edit.ensure location).apply tree := by
  have hfile : tree.entryAt location ≠ some .directory := by rw [hnone]; nofun
  have htop : (Edit.ensure location).location ≠ [] := ne_nil_of_entryAt hfile
  refine put_eq_apply htop ?_
  rw [Edit.location, hnone]
  rfl

/-- Putting a file where no directory is, is an edit. -/
theorem put_file_eq_apply (hfile : tree.entryAt location ≠ some .directory) (content : Content) :
    tree.put location (.file content) = (Edit.store location content).apply tree := by
  have htop : (Edit.store location content).location ≠ [] := ne_nil_of_entryAt hfile
  refine put_eq_apply htop ?_
  rw [Edit.location]
  rcases hentry : tree.entryAt location with _ | _ | other
  · rfl
  · exact absurd hentry hfile
  · rfl

/-- Erasing what is no directory is an edit. -/
theorem erase_eq_apply (hfile : tree.entryAt location ≠ some .directory) :
    tree.erase location = (Edit.discard location).apply tree := by
  have htop := ne_nil_of_entryAt hfile
  refine eq_of_entries (Edit.home_apply _ tree).symm (Edit.unlistable_apply _ tree).symm
    fun other => ?_
  rw [Edit.getElem?_apply, Edit.location]
  simp only [erase, Std.ExtTreeMap.getElem?_erase, Std.LawfulEqCmp.compare_eq_iff_eq]
  by_cases hother : location = other
  · subst hother
    rw [if_pos rfl, if_pos ⟨rfl, htop⟩]
    rw [entryAt, List.isEmpty_eq_false_iff.2 htop, if_neg Bool.false_ne_true] at hfile
    rcases hentry : tree.entries[location]? with _ | _ | content
    · rfl
    · exact absurd hentry hfile
    · rfl
  · rw [if_neg hother, if_neg fun h => hother h.1]

end Changes

/-- The home of a tree is a directory, and every entry is in a directory. -/
structure IsGrounded (tree : FileTree) : Prop where
  home : tree.entryAt tree.home = some .directory
  parent : ∀ place name, (tree.entryAt (place ++ [name])).isSome →
    tree.entryAt place = some .directory

section Grounded

variable {tree : FileTree} {location place : Location}

/-- It is enough to look at the entries that a tree has. -/
theorem isGrounded_iff :
    tree.IsGrounded ↔ tree.entryAt tree.home = some .directory ∧
      ∀ entry ∈ tree.entries.toList, tree.entryAt entry.1.dropLast = some .directory := by
  constructor
  · rintro ⟨hhome, hparent⟩
    refine ⟨hhome, fun ⟨location, entry⟩ hentry => ?_⟩
    have hfound := Std.ExtTreeMap.mem_toList_iff_getElem?_eq_some.1 hentry
    rcases List.eq_nil_or_concat location with rfl | ⟨place, name, rfl⟩
    · rfl
    · rw [List.concat_eq_append] at hfound ⊢
      rw [List.dropLast_concat]
      exact hparent place name (by simp [entryAt, hfound])
  · rintro ⟨hhome, hentries⟩
    refine ⟨hhome, fun place name hsome => ?_⟩
    obtain ⟨entry, hentry⟩ := Option.isSome_iff_exists.1 hsome
    have hfound : tree.entries[place ++ [name]]? = some entry := by simpa [entryAt] using hentry
    have hparent := hentries _ (Std.ExtTreeMap.mem_toList_iff_getElem?_eq_some.2 hfound)
    rwa [List.dropLast_concat] at hparent

instance (tree : FileTree) : Decidable tree.IsGrounded :=
  decidable_of_iff _ isGrounded_iff.symm

/-- Above anything that exists are directories. -/
theorem IsGrounded.directory_above (hgrounded : tree.IsGrounded) (habove : IsAbove location place)
    (hsome : (tree.entryAt place).isSome) : tree.entryAt location = some .directory := by
  obtain ⟨⟨names, rfl⟩, hne⟩ := habove
  induction names using List.reverseRecOn with
  | nil => exact absurd (List.append_nil location).symm hne
  | append_singleton names name ih =>
    rw [← List.append_assoc] at hsome
    have hdirectory := hgrounded.parent _ name hsome
    by_cases hlast : names = []
    · rw [hlast, List.append_nil] at hdirectory
      exact hdirectory
    · exact ih (by simp [hdirectory]) (by simpa using hlast)

/-- An edit that puts something into a directory only leaves everything in a directory. -/
theorem IsGrounded.apply (hgrounded : tree.IsGrounded) {edit : Edit}
    (hparent : ∀ parent name, edit.location = parent ++ [name] →
      (edit.result (tree.entryAt edit.location)).isSome → tree.entryAt parent = some .directory) :
    (edit.apply tree).IsGrounded := by
  have hgrows := edit.grows_apply tree
  refine ⟨hgrows.home ▸ hgrows.directory _ hgrounded.home, fun place name hsome => ?_⟩
  rw [Edit.entryAt_apply] at hsome
  apply hgrows.directory
  split at hsome
  · rename_i hlocation
    exact hparent place name hlocation (hlocation ▸ hsome)
  · exact hgrounded.parent place name hsome

end Grounded

/-- All of some pieces lead to directories. -/
def Passes (tree : FileTree) (place : Location) : List (List Char) → Prop
  | [] => True
  | piece :: rest =>
    match turnOf piece with
    | .stay => Passes tree place rest
    | .up => Passes tree place.dropLast rest
    | .down name =>
      name.utf8ByteSize ≤ maxNameBytes ∧ tree.entryAt (place ++ [name]) = some .directory ∧
        Passes tree (place ++ [name]) rest

section Passes

variable {tree later made : FileTree} {place location : Location} {pieces rest : List (List Char)}

/-- Pieces that lead to directories do so later. -/
theorem Passes.grow (hpasses : Passes tree place pieces) (hgrows : Grows tree later) :
    Passes later place pieces := by
  induction pieces generalizing place with
  | nil => trivial
  | cons piece rest ih =>
    rw [Passes] at hpasses ⊢
    cases hturn : turnOf piece with
    | stay | up =>
      rw [hturn] at hpasses
      exact ih hpasses
    | down name =>
      rw [hturn] at hpasses
      obtain ⟨hname, hdirectory, hrest⟩ := hpasses
      exact ⟨hname, hgrows.directory _ hdirectory, ih hrest⟩

/-- Where a path can be followed, the pieces before others lead to directories. -/
theorem passes_of_follow (hrest : rest ≠ [])
    (hfollow : tree.follow place (pieces ++ rest) = .ok location) : Passes tree place pieces := by
  induction pieces generalizing place with
  | nil => trivial
  | cons piece more ih =>
    rw [List.cons_append, follow] at hfollow
    rw [Passes]
    cases hturn : turnOf piece with
    | stay | up =>
      rw [hturn] at hfollow
      exact ih hfollow
    | down name =>
      have hlast : (more ++ rest).isEmpty = false := by simp [hrest]
      simp only [hturn, hlast, Bool.false_eq_true, if_false] at hfollow
      split at hfollow
      · cases hfollow
      rename_i hname
      split at hfollow
      · rename_i hdirectory
        exact ⟨Nat.not_lt.1 hname, hdirectory, ih hfollow⟩
      · cases hfollow
      · cases hfollow

/-- Pieces that lead to directories are followed by the way. -/
theorem Passes.follow_append (hpasses : Passes tree place pieces) (hrest : rest ≠ []) :
    tree.follow place (pieces ++ rest) = tree.follow (pieces.foldl turnFrom place) rest := by
  induction pieces generalizing place with
  | nil => rfl
  | cons piece more ih =>
    rw [Passes] at hpasses
    rw [List.cons_append, follow, List.foldl_cons, turnFrom]
    cases hturn : turnOf piece with
    | stay | up =>
      rw [hturn] at hpasses
      exact ih hpasses
    | down name =>
      rw [hturn] at hpasses
      obtain ⟨hname, hdirectory, hmore⟩ := hpasses
      have hlast : (more ++ rest).isEmpty = false := by simp [hrest]
      simp only [hlast, Bool.false_eq_true, if_false, hdirectory]
      rw [if_neg (Nat.not_lt.2 hname)]
      exact ih hmore

/-- No directory is to be made on the way along such pieces. -/
theorem Passes.makeDirectoriesFrom_append (hpasses : Passes tree place pieces) :
    tree.makeDirectoriesFrom place (pieces ++ rest) =
      tree.makeDirectoriesFrom (pieces.foldl turnFrom place) rest := by
  induction pieces generalizing place with
  | nil => rfl
  | cons piece more ih =>
    rw [Passes] at hpasses
    rw [List.cons_append, makeDirectoriesFrom, List.foldl_cons, turnFrom]
    cases hturn : turnOf piece with
    | stay | up =>
      rw [hturn] at hpasses
      exact ih hpasses
    | down name =>
      rw [hturn] at hpasses
      obtain ⟨hname, hdirectory, hmore⟩ := hpasses
      dsimp only
      rw [if_neg (Nat.not_lt.2 hname), hdirectory]
      exact ih hmore

/-- Idle pieces lead nowhere, so they do not matter. -/
theorem passes_solidOf_iff : Passes tree place (solidOf pieces) ↔ Passes tree place pieces := by
  induction pieces generalizing place with
  | nil => rfl
  | cons piece rest ih =>
    cases hidle : isIdle piece with
    | true =>
      have hsolid : solidOf (piece :: rest) = solidOf rest := by simp [solidOf, hidle]
      have hturn : turnOf piece = .stay := by rw [turnOf, if_pos hidle]
      rw [hsolid, ih, Passes, hturn]
    | false =>
      have hsolid : solidOf (piece :: rest) = piece :: solidOf rest := by simp [solidOf, hidle]
      rw [hsolid, Passes, Passes]
      simp only [ih]

/-- Such pieces lead from a directory to a directory. -/
theorem IsGrounded.entryAt_foldl (hgrounded : tree.IsGrounded) (hpasses : Passes tree place pieces)
    (hdirectory : tree.entryAt place = some .directory) :
    tree.entryAt (pieces.foldl turnFrom place) = some .directory := by
  induction pieces generalizing place with
  | nil => exact hdirectory
  | cons piece more ih =>
    rw [Passes] at hpasses
    rw [List.foldl_cons, turnFrom]
    cases hturn : turnOf piece with
    | stay =>
      rw [hturn] at hpasses
      exact ih hpasses hdirectory
    | up =>
      rw [hturn] at hpasses
      refine ih hpasses ?_
      rcases List.eq_nil_or_concat place with rfl | ⟨before, name, rfl⟩
      · exact hdirectory
      · rw [List.concat_eq_append] at hdirectory ⊢
        rw [List.dropLast_concat]
        exact hgrounded.parent before name (by rw [hdirectory]; rfl)
    | down name =>
      rw [hturn] at hpasses
      exact ih hpasses.2.2 hpasses.2.1

/-- Idle pieces make no directories. At the end they would tell a file that is in the way from one that
stands where the last directory belongs. -/
theorem makeDirectoriesFrom_solidOf (tree : FileTree) (place : Location) (hend : EndSolid pieces) :
    tree.makeDirectoriesFrom place (solidOf pieces) = tree.makeDirectoriesFrom place pieces := by
  induction pieces generalizing tree place with
  | nil => rfl
  | cons piece rest ih =>
    cases hidle : isIdle piece with
    | true =>
      have hsolid : solidOf (piece :: rest) = solidOf rest := by simp [solidOf, hidle]
      have hturn : turnOf piece = .stay := by rw [turnOf, if_pos hidle]
      rw [hsolid, ih tree place hend.of_cons, makeDirectoriesFrom, hturn]
    | false =>
      have hsolid : solidOf (piece :: rest) = piece :: solidOf rest := by simp [solidOf, hidle]
      have hlast : (solidOf rest).all List.isEmpty = rest.all List.isEmpty := by
        rcases List.eq_nil_or_concat' rest with rfl | ⟨before, last, rfl⟩
        · rfl
        · have hother : isIdle last = false :=
            hend.resolve_left (by rw [hsolid]; exact List.cons_ne_nil _ _) last (by
              rw [← List.cons_append, List.getLast?_concat])
          have hsome : last.isEmpty = false := by
            rw [isIdle, Bool.or_eq_false_iff] at hother
            exact hother.1
          have hlast : solidOf [last] = [last] := by simp [solidOf, hother]
          simp only [solidOf_append, hlast, List.all_append, List.all_cons, hsome, Bool.false_and,
            Bool.and_false]
      rw [hsolid, makeDirectoriesFrom, makeDirectoriesFrom]
      simp only [ih _ _ hend.of_cons, hlast]

/-- Once directories are made along some pieces, the pieces lead to directories. -/
theorem passes_of_makeDirectoriesFrom
    (hmade : tree.makeDirectoriesFrom place pieces = (.ok (), made)) : Passes made place pieces := by
  induction pieces generalizing tree place with
  | nil => trivial
  | cons piece rest ih =>
    rw [makeDirectoriesFrom] at hmade
    rw [Passes]
    cases hturn : turnOf piece with
    | stay | up =>
      rw [hturn] at hmade
      exact ih hmade
    | down name =>
      rw [hturn] at hmade
      dsimp only at hmade
      split at hmade
      · cases hmade
      rename_i hname
      have hgrown {from' : FileTree} (hdirectory : from'.entryAt (place ++ [name]) = some .directory)
          (hrest : from'.makeDirectoriesFrom (place ++ [name]) rest = (.ok (), made)) :
          made.entryAt (place ++ [name]) = some .directory := by
        have hgrows := (keepsFiles_makeDirectoriesFrom from' (place ++ [name]) rest).toGrows
        rw [hrest] at hgrows
        exact hgrows.directory _ hdirectory
      split at hmade
      · rename_i hdirectory
        exact ⟨Nat.not_lt.1 hname, hgrown hdirectory hmade, ih hmade⟩
      · cases hmade
      · have hput : (tree.put (place ++ [name]) .directory).entryAt (place ++ [name]) =
            some .directory := by
          rw [entryAt_put tree (by simp), if_pos rfl]
        exact ⟨Nat.not_lt.1 hname, hgrown hput hmade, ih hmade⟩

/-- Directories are made in directories. -/
theorem IsGrounded.makeDirectoriesFrom (hgrounded : tree.IsGrounded) (hdescends : Descends pieces)
    (hdirectory : tree.entryAt place = some .directory) :
    (tree.makeDirectoriesFrom place pieces).2.IsGrounded := by
  induction pieces generalizing tree place with
  | nil => exact hgrounded
  | cons piece rest ih =>
    have hrest : Descends rest := fun other hother => hdescends other (by simp [hother])
    rw [FileTree.makeDirectoriesFrom]
    cases hturn : turnOf piece with
    | stay => exact ih hgrounded hrest hdirectory
    | up => exact absurd hturn (hdescends piece (by simp))
    | down name =>
      dsimp only
      split
      · exact hgrounded
      split
      · rename_i hentry
        exact ih hgrounded hrest hentry
      · exact hgrounded
      · rename_i hnone
        rw [put_directory_eq_apply hnone]
        refine ih (hgrounded.apply fun parent other hlocation _ => ?_) hrest ?_
        · obtain ⟨rfl, -⟩ := List.append_inj' hlocation rfl
          exact hdirectory
        · rw [Edit.entryAt_apply, Edit.location, if_pos rfl, hnone]
          rfl

end Passes

section Making

variable {tree : FileTree} {places : List Location} {base place : Location}
  {pieces : List (List Char)}

/-- Where pieces lead that do not go up is below where they start. -/
theorem prefix_foldl_turnFrom (hdescends : Descends pieces) (base : Location) :
    base <+: pieces.foldl turnFrom base := by
  rw [foldl_turnFrom_of_descends hdescends]
  exact List.prefix_append _ _

/-- Making directories above a place is done within the place. -/
theorem actsWithin_makeDirectoriesFrom (hplace : place ∈ places) (hdescends : Descends pieces)
    (habove : IsAbove (pieces.foldl turnFrom base) place) :
    ActsWithin places tree fun later => later.makeDirectoriesFrom base pieces := by
  induction pieces generalizing tree base with
  | nil => exact ⟨.ok (), [], nofun, fun later _ => rfl⟩
  | cons piece rest ih =>
    have hrest : Descends rest := fun other hother => hdescends other (by simp [hother])
    rw [List.foldl_cons, turnFrom] at habove
    simp only [makeDirectoriesFrom]
    cases hturn : turnOf piece with
    | stay =>
      rw [hturn] at habove
      exact ih hrest habove
    | up => exact absurd hturn (hdescends piece (by simp))
    | down name =>
      rw [hturn] at habove
      dsimp only at habove ⊢
      by_cases hname : maxNameBytes < name.utf8ByteSize
      · simp only [if_pos hname]
        exact ⟨.error .tooLong, [], nofun, fun later _ => rfl⟩
      have hlocation := habove.of_prefix (prefix_foldl_turnFrom hrest _)
      simp only [if_neg hname]
      rcases hentry : tree.entryAt (base ++ [name]) with _ | _ | content
      · -- The directory is made, unless it was made in the other tree before.
        have hwithin : (Edit.ensure (base ++ [name])).Within places := ⟨place, hplace, hlocation⟩
        obtain ⟨outcome, edits, hedits, hacts⟩ :
            ActsWithin places ((Edit.ensure (base ++ [name])).apply tree) fun later =>
              later.makeDirectoriesFrom (base ++ [name]) rest :=
          ih hrest habove
        refine ⟨outcome, .ensure (base ++ [name]) :: edits, ?_, fun later halike => ?_⟩
        · rintro edit (_ | ⟨_, hmem⟩)
          · exact hwithin
          · exact hedits edit hmem
        have hboth := hacts _ (halike.edit_both hwithin)
        dsimp only at hboth ⊢
        rw [applyAll_cons, ← hboth]
        rcases halike.above place hplace _ hlocation with hsame | ⟨-, hmade⟩
        · rw [hsame, hentry, put_directory_eq_apply (hsame.trans hentry)]
        · rw [hmade, Edit.apply_eq_self]
          rw [Edit.location, hmade, Edit.result_directory]
      · obtain ⟨outcome, edits, hedits, hacts⟩ :
            ActsWithin places tree fun later => later.makeDirectoriesFrom (base ++ [name]) rest :=
          ih hrest habove
        refine ⟨outcome, edits, hedits, fun later halike => ?_⟩
        dsimp only
        rw [halike.directory _ hentry]
        exact hacts later halike
      · refine ⟨.error (if rest.all List.isEmpty then .alreadyExists else .notADirectory), [], nofun,
          fun later halike => ?_⟩
        dsimp only
        rcases halike.above place hplace _ hlocation with hsame | ⟨hnone, -⟩
        · rw [hsame, hentry]
          rfl
        · rw [hentry] at hnone
          cases hnone

/-- Where a single piece leads does not depend on the tree. -/
theorem follow_singleton (tree other : FileTree) (base : Location) (piece : List Char) :
    tree.follow base [piece] = other.follow base [piece] := by
  simp only [follow]
  cases turnOf piece <;> rfl

/-- A write as an operation that leaves a tree in any case. -/
def afterWrite (path : Pathname) (content : Content) (tree : FileTree) :
    Except Fault Unit × FileTree :=
  match tree.write path content with
  | .error fault => (.error fault, tree)
  | .ok later => (.ok (), later)

/-- A write to a path that leads to the same place in all trees is done within the place. -/
theorem actsWithin_afterWrite {path : Pathname} (hplace : placeOf tree.home path ∈ places)
    (hsame : ∀ later, Alike places tree later → later.locationOf path = tree.locationOf path)
    (content : Content) : ActsWithin places tree (afterWrite path content) := by
  cases hpath : tree.locationOf path with
  | error fault =>
    refine ⟨.error fault, [], nofun, fun later halike => ?_⟩
    rw [afterWrite, write, hsame later halike, hpath]
    rfl
  | ok place =>
    obtain rfl := eq_placeOf hpath
    by_cases hdirectory : tree.entryAt (placeOf tree.home path) = some .directory
    · refine ⟨.error .isADirectory, [], nofun, fun later halike => ?_⟩
      rw [afterWrite, write, hsame later halike, hpath]
      simp only [bind, Except.bind]
      rw [halike.own _ hplace, hdirectory]
      rfl
    · refine ⟨.ok (), [.store (placeOf tree.home path) content], ?_, fun later halike => ?_⟩
      · rintro edit (_ | ⟨_, ⟨⟩⟩)
        exact hplace
      · rw [← halike.own _ hplace] at hdirectory
        rw [afterWrite, write, hsame later halike, hpath]
        simp only [bind, Except.bind]
        rw [applyAll_cons, applyAll_nil, ← put_file_eq_apply hdirectory]

end Making

section Continuing

variable {tree later : FileTree} {places : List Location} {root next : Pathname}
  {init : List (List Char)} {last : List Char}

/-- All pieces of a root lead to directories. -/
def Enters (tree : FileTree) (root : Pathname) : Prop :=
  Passes tree (tree.start root) root.foregoing

/-- The pieces of a root lead to its place. -/
theorem foldl_foregoing (tree : FileTree) (root : Pathname) :
    root.foregoing.foldl turnFrom (tree.start root) = placeOf tree.home root := by
  rw [placeOf_eq, ← solidOf_foregoing, foldl_turnFrom_solidOf, start]

theorem Enters.grow (henters : Enters tree root) (hgrows : Grows tree later) : Enters later root := by
  have hstart : later.start root = tree.start root := by rw [start, start, hgrows.home]
  rw [Enters, hstart]
  exact Passes.grow henters hgrows

/-- A path that continues a root is followed from the place of the root on. -/
theorem locationOf_join (henters : Enters tree root) (hnext : next.isAbsolute = false) :
    tree.locationOf (root.join next) =
      match refusal? (root.join next) with
      | some fault => .error fault
      | none => tree.follow (placeOf tree.home root) next.pieces := by
  have hstart : tree.start (root.join next) = tree.start root := by
    rw [start, start, isAbsolute_join root hnext]
  have hpieces : next.pieces ≠ [] := Text.splitOn_ne_nil '/' _
  rw [locationOf]
  cases refusal? (root.join next) with
  | some fault => rfl
  | none =>
    dsimp only
    rw [hstart, pieces_join root hnext, Passes.follow_append henters hpieces, foldl_foregoing]

/-- If a path that continues a root leads somewhere, the root is entered. -/
theorem enters_of_locationOf {place : Location} (hnext : next.isAbsolute = false)
    (hpath : tree.locationOf (root.join next) = .ok place) : Enters tree root := by
  have hstart : tree.start (root.join next) = tree.start root := by
    rw [start, start, isAbsolute_join root hnext]
  have hpieces : next.pieces ≠ [] := Text.splitOn_ne_nil '/' _
  rw [locationOf, hstart, pieces_join root hnext] at hpath
  split at hpath
  · cases hpath
  · exact passes_of_follow hpieces hpath

/-- The directories above a plain path that continues a root are made from the place of the root on. -/
theorem exists_parent (root : Pathname) (hplain : next.isPlain = true)
    (hpieces : next.pieces = init ++ [last]) (hlast : isIdle last = false) :
    ∃ parent, (root.join next).parent? = some parent ∧
      ∀ tree : FileTree, Enters tree root → tree.makeDirectories parent =
        match makingRefusal? parent with
        | some fault => (.error fault, tree)
        | none => tree.makeDirectoriesFrom (placeOf tree.home root) (solidOf init) := by
  have hnext := isAbsolute_of_isPlain hplain
  have hown : next.solid = solidOf init ++ [last] := by
    rw [solid, hpieces, solidOf_append]
    simp [solidOf, hlast]
  have hsolid : (root.join next).solid = root.solid ++ (solidOf init ++ [last]) := by
    rw [solid_join root hnext, hown]
  obtain ⟨parent, hparent, hstart, hdropped, hend⟩ := parent?_spec (root.join next) (by simp [hsolid])
  have hparts : solidOf parent.pieces = solidOf (root.foregoing ++ init) := by
    have hparent : solidOf parent.pieces = parent.solid := rfl
    rw [hparent, hdropped, hsolid, ← List.append_assoc, List.dropLast_concat, solidOf_append,
      solidOf_foregoing]
  refine ⟨parent, hparent, fun tree henters => ?_⟩
  have hsame : tree.start parent = tree.start root := by
    rw [start, start, hstart, isAbsolute_join root hnext]
  have hmade : tree.makeDirectoriesFrom (tree.start parent) parent.pieces =
      tree.makeDirectoriesFrom (placeOf tree.home root) (solidOf init) := by
    rw [hsame, ← makeDirectoriesFrom_solidOf tree _ hend, hparts, solidOf_append,
      Passes.makeDirectoriesFrom_append (passes_solidOf_iff.2 henters), foldl_turnFrom_solidOf,
      foldl_foregoing]
  rw [makeDirectories]
  cases makingRefusal? parent with
  | some fault => rfl
  | none => exact hmade

/-- The last name of a plain path stands below where the pieces before it lead. -/
theorem placeOf_join_concat (root : Pathname) (hplain : next.isPlain = true)
    (hpieces : next.pieces = init ++ [last]) (hlast : isIdle last = false) (home : Location) :
    placeOf home (root.join next) =
      init.foldl turnFrom (placeOf home root) ++ [String.ofList last] := by
  have hdescends : Descends init := fun piece hpiece =>
    descends_of_isPlain hplain piece (hpieces ▸ List.mem_append_left _ hpiece)
  rw [placeOf_join home root hplain, foldl_turnFrom_of_descends hdescends, names, solid, hpieces,
    solidOf_append, List.map_append, ← List.append_assoc]
  simp [solidOf, hlast]

/-- What comes after the directories above a file were made or not. -/
def finishWrite (parent path : Pathname) (content : Content) (made : Except Fault Unit)
    (tree : FileTree) : Except (Pathname × Fault) Unit × FileTree :=
  match made with
  | .error fault => (.error (parent, fault), tree)
  | .ok () =>
    ((afterWrite path content tree).1.mapError (path, ·), (afterWrite path content tree).2)

/-- A file is written after the directories above it are made. -/
theorem writeWithParents_eq {parent path : Pathname} (hparent : path.parent? = some parent)
    (content : Content) (tree : FileTree) :
    tree.writeWithParents path content =
      finishWrite parent path content (tree.makeDirectories parent).1
        (tree.makeDirectories parent).2 := by
  rw [writeWithParents, hparent]
  dsimp only
  rcases tree.makeDirectories parent with ⟨fault | _, made⟩
  · rfl
  · dsimp only [Except.mapError, finishWrite, afterWrite]
    cases made.write path content <;> rfl

/-- Writing a file takes no directory away, whether it succeeds or not. -/
theorem grows_writeWithParents (tree : FileTree) (path : Pathname) (content : Content) :
    Grows tree (tree.writeWithParents path content).2 := by
  have hspec := writeWithParents_spec tree path content
  rcases hwritten : tree.writeWithParents path content with ⟨fault | ⟨⟩, made⟩
  · rw [hwritten] at hspec
    exact hspec.toGrows
  · rw [hwritten] at hspec
    exact hspec.toGrows

/-- Once the directories above a file were made, the pieces before its name lead to directories. -/
theorem passes_of_makeDirectories {parent : Pathname} {made : FileTree} (henters : Enters tree root)
    (hmakes : ∀ tree : FileTree, Enters tree root → tree.makeDirectories parent =
      match makingRefusal? parent with
      | some fault => (.error fault, tree)
      | none => tree.makeDirectoriesFrom (placeOf tree.home root) (solidOf init))
    (hmade : tree.makeDirectories parent = (.ok (), made)) :
    Passes made (placeOf made.home root) init := by
  have hgrows := (keepsFiles_makeDirectories tree parent).toGrows
  rw [hmade] at hgrows
  rw [hmakes tree henters] at hmade
  rw [hgrows.home]
  split at hmade
  · cases hmade
  · exact passes_solidOf_iff.1 (passes_of_makeDirectoriesFrom hmade)

/-- Writing a file with the directories above it is done within its place. -/
theorem actsWithin_writeWithParents (henters : Enters tree root) (hplain : next.isPlain = true)
    (hpieces : next.pieces = init ++ [last]) (hlast : isIdle last = false)
    (hplace : placeOf tree.home (root.join next) ∈ places) (content : Content) :
    ActsWithin places tree fun later => later.writeWithParents (root.join next) content := by
  obtain ⟨parent, hparent, hmakes⟩ := exists_parent root hplain hpieces hlast
  have hdescends : Descends init := fun piece hpiece =>
    descends_of_isPlain hplain piece (hpieces ▸ List.mem_append_left _ hpiece)
  have hconcat := placeOf_join_concat root hplain hpieces hlast tree.home
  have hmaking : ActsWithin places tree fun later => later.makeDirectories parent := by
    cases hrefusal : makingRefusal? parent with
    | some fault =>
      refine (actsWithin_pure (.error fault)).of_eq fun later halike => ?_
      rw [hmakes later (henters.grow halike.toGrows), hrefusal]
    | none =>
      have habove :=
        isAbove_concat (init.foldl turnFrom (placeOf tree.home root)) (String.ofList last)
      rw [← hconcat, ← foldl_turnFrom_solidOf] at habove
      refine (actsWithin_makeDirectoriesFrom hplace hdescends.solidOf habove).of_eq fun later halike => ?_
      rw [hmakes later (henters.grow halike.toGrows), hrefusal, halike.home]
  let finish (made : Except Fault Unit) (tree : FileTree) :=
    finishWrite parent (root.join next) content made tree
  have hwriting : ActsWithin places tree fun later =>
      finish (later.makeDirectories parent).1 (later.makeDirectories parent).2 := by
    refine hmaking.andThen fun outcome made hmade => ?_
    cases outcome with
    | error fault => exact actsWithin_pure (Except.error (parent, fault))
    | ok =>
      have hgrows := (keepsFiles_makeDirectories tree parent).toGrows
      rw [hmade] at hgrows
      have hentered : Enters made root := henters.grow hgrows
      have hpasses := passes_of_makeDirectories henters hmakes hmade
      have hsame (later : FileTree) (halike : Alike places made later) :
          later.locationOf (root.join next) = made.locationOf (root.join next) := by
        have hnext := isAbsolute_of_isPlain hplain
        rw [locationOf_join hentered hnext, locationOf_join (hentered.grow halike.toGrows) hnext,
          hpieces, halike.home, hpasses.follow_append (List.cons_ne_nil last []),
          (hpasses.grow halike.toGrows).follow_append (List.cons_ne_nil last []),
          follow_singleton later made]
      rw [← hgrows.home] at hplace
      exact (actsWithin_afterWrite hplace hsame content).andThen fun outcome _ _ =>
        actsWithin_pure (outcome.mapError (root.join next, ·))
  exact hwriting.of_eq fun later _ => writeWithParents_eq hparent content later

/-- The root itself is a directory then. -/
theorem IsGrounded.entryAt_root (hgrounded : tree.IsGrounded) (henters : Enters tree root) :
    tree.entryAt (placeOf tree.home root) = some .directory := by
  have hstart : tree.entryAt (tree.start root) = some .directory := by
    unfold start
    split
    · rfl
    · exact hgrounded.home
  rw [← foldl_foregoing]
  exact hgrounded.entryAt_foldl henters hstart

/-- A file is written into a directory only. -/
theorem IsGrounded.afterWrite {path : Pathname} (hgrounded : tree.IsGrounded)
    (hparent : ∀ parent name, placeOf tree.home path = parent ++ [name] →
      tree.entryAt parent = some .directory) (content : Content) :
    (afterWrite path content tree).2.IsGrounded := by
  rw [FileTree.afterWrite]
  cases hwrite : tree.write path content with
  | error fault => exact hgrounded
  | ok later =>
    obtain ⟨location, hpath, hrest⟩ := bind_eq_ok_iff.1 hwrite
    obtain rfl := eq_placeOf hpath
    split at hrest
    · cases hrest
    rename_i hfile
    obtain rfl := Except.ok.inj hrest
    dsimp only
    rw [put_file_eq_apply hfile]
    exact hgrounded.apply fun parent name hlocation _ => hparent parent name hlocation

/-- Writing a file with the directories above it leaves everything in a directory. -/
theorem IsGrounded.writeWithParents (hgrounded : tree.IsGrounded) (henters : Enters tree root)
    (hplain : next.isPlain = true) (hpieces : next.pieces = init ++ [last])
    (hlast : isIdle last = false) (content : Content) :
    (tree.writeWithParents (root.join next) content).2.IsGrounded := by
  obtain ⟨parent, hparent, hmakes⟩ := exists_parent root hplain hpieces hlast
  have hdescends : Descends init := fun piece hpiece =>
    descends_of_isPlain hplain piece (hpieces ▸ List.mem_append_left _ hpiece)
  have hgrows := (keepsFiles_makeDirectories tree parent).toGrows
  have hmade : (tree.makeDirectories parent).2.IsGrounded := by
    rw [hmakes tree henters]
    split
    · exact hgrounded
    · exact hgrounded.makeDirectoriesFrom hdescends.solidOf (hgrounded.entryAt_root henters)
  rw [writeWithParents_eq hparent]
  rcases hmaking : tree.makeDirectories parent with ⟨fault | _, made⟩
  · rw [hmaking] at hmade
    exact hmade
  · rw [hmaking] at hmade hgrows
    -- The file is put into the last directory that was made.
    refine hmade.afterWrite (fun above name hplace => ?_) content
    rw [placeOf_join_concat root hplain hpieces hlast] at hplace
    obtain ⟨rfl, -⟩ := List.append_inj' hplace rfl
    have hpasses := passes_of_makeDirectories henters hmakes hmaking
    exact hmade.entryAt_foldl hpasses (hmade.entryAt_root (henters.grow hgrows))

end Continuing

end UxmlBindings.Files.FileTree
