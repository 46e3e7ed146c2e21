import UxmlBindings.Proofs.Files.Locality

/-!
# Files that are written again

Directories that were made are there when they are made again, and a file that was written can be
written again. Where the same text is written once more, nothing changes. A path that leads somewhere
leads there in other words with the same solid pieces as well, as long as these do not end in a
slash or a dot or there is a directory.
-/

namespace UxmlBindings.Files.FileTree

open Pathname

variable {tree made later written : FileTree} {place location : Location}
  {pieces others : List (List Char)} {path other : Pathname} {content : Content}

/-- Directories that were made are not made again. -/
theorem makeDirectoriesFrom_again (hmade : tree.makeDirectoriesFrom place pieces = (.ok (), made))
    (hgrows : Grows made later) : later.makeDirectoriesFrom place pieces = (.ok (), later) := by
  induction pieces generalizing tree place with
  | nil => rfl
  | cons piece rest ih =>
    rw [makeDirectoriesFrom] at hmade ⊢
    cases hturn : turnOf piece with
    | stay | up =>
      rw [hturn] at hmade
      exact ih hmade
    | down name =>
      rw [hturn] at hmade
      dsimp only at hmade ⊢
      by_cases hname : maxNameBytes < name.utf8ByteSize
      · rw [if_pos hname] at hmade
        cases hmade
      rw [if_neg hname] at hmade ⊢
      -- Whatever was there, the name is that of a directory once the rest is made.
      have hdirectory (earlier : FileTree)
          (hentry : earlier.entryAt (place ++ [name]) = some .directory)
          (hrest : earlier.makeDirectoriesFrom (place ++ [name]) rest = (.ok (), made)) :
          later.entryAt (place ++ [name]) = some .directory := by
        have hkeeps := keepsFiles_makeDirectoriesFrom earlier (place ++ [name]) rest
        rw [hrest] at hkeeps
        exact hgrows.directory _ (hkeeps.directory _ hentry)
      rcases hentry : tree.entryAt (place ++ [name]) with _ | _ | content
      · rw [hentry] at hmade
        have hput : (tree.put (place ++ [name]) .directory).entryAt (place ++ [name]) =
            some .directory := by
          rw [entryAt_put tree (by simp), if_pos rfl]
        rw [hdirectory _ hput hmade]
        exact ih hmade
      · rw [hentry] at hmade
        rw [hdirectory _ hentry hmade]
        exact ih hmade
      · rw [hentry] at hmade
        cases hmade

theorem makeDirectories_again (hmade : tree.makeDirectories path = (.ok (), made))
    (hgrows : Grows made later) : later.makeDirectories path = (.ok (), later) := by
  have hhome : later.home = tree.home := by
    have hkeeps := keepsFiles_makeDirectories tree path
    rw [hmade] at hkeeps
    exact hgrows.home.trans hkeeps.home
  unfold makeDirectories at hmade ⊢
  split at hmade
  · cases hmade
  · rw [start, hhome]
    exact makeDirectoriesFrom_again hmade hgrows

/-- Writing what a file holds already changes nothing. -/
theorem write_again (hpath : tree.locationOf path = .ok location)
    (hcontent : tree.content? location = some content) : tree.write path content = .ok tree := by
  have hentry := content?_eq_some_iff.1 hcontent
  have hfile : tree.entryAt location ≠ some .directory := by
    rw [hentry]
    nofun
  rw [write, hpath]
  simp only [bind, Except.bind, hentry]
  rw [put_file_eq_apply hfile, Edit.apply_eq_self]
  rw [Edit.location, hentry]
  rfl

/-- A path that leads somewhere can be looked up. -/
theorem refusal?_of_locationOf (hpath : tree.locationOf path = .ok location) :
    refusal? path = none := by
  unfold locationOf at hpath
  split at hpath
  · cases hpath
  · assumption

/-- A text that was read is read again where its file is left as it is. -/
theorem readText_again {text : String} (hread : tree.readText path = .ok text)
    (hgrows : Grows tree later)
    (hsame : ∀ location, tree.locationOf path = .ok location →
      later.content? location = tree.content? location) : later.readText path = .ok text := by
  obtain ⟨location, hpath, -⟩ := bind_eq_ok_iff.1 hread
  rw [readText_eq_ok_iff hpath] at hread
  rw [readText_eq_ok_iff (hgrows.locationOf hpath), hsame location hpath, hread]

/-- A path that leads somewhere leads there without its idle pieces. -/
theorem follow_solidOf (hfollow : tree.follow place pieces = .ok location) :
    tree.follow place (solidOf pieces) = .ok location := by
  induction pieces generalizing place with
  | nil => exact hfollow
  | cons piece rest ih =>
    rw [follow] at hfollow
    cases hidle : isIdle piece with
    | true =>
      have hstay : turnOf piece = .stay := by rw [turnOf, if_pos hidle]
      rw [hstay] at hfollow
      have hsolid : solidOf (piece :: rest) = solidOf rest := by simp [solidOf, hidle]
      rw [hsolid]
      exact ih hfollow
    | false =>
      have hsolid : solidOf (piece :: rest) = piece :: solidOf rest := by simp [solidOf, hidle]
      rw [hsolid, follow]
      cases hturn : turnOf piece with
      | stay =>
        rw [turnOf, if_neg (by simp [hidle])] at hturn
        split at hturn <;> cases hturn
      | up =>
        rw [hturn] at hfollow
        exact ih hfollow
      | down name =>
        rw [hturn] at hfollow
        dsimp only at hfollow ⊢
        split at hfollow
        · cases hfollow
        · rename_i hname
          rw [if_neg hname]
          split at hfollow
          · rename_i hlast
            obtain rfl := List.isEmpty_iff.1 hlast
            exact hfollow
          · split at hfollow
            · rename_i hentry
              have hrest := ih hfollow
              split
              · rename_i hnone
                rw [List.isEmpty_iff.1 hnone] at hrest
                exact hrest
              · exact hrest
            · cases hfollow
            · cases hfollow

/-- Pieces lead where their solid pieces lead if the last one is solid, or if a directory is there. -/
theorem follow_of_solidOf
    (hend : tree.entryAt location = some .directory ∨
      ∀ last, pieces.getLast? = some last → isIdle last = false)
    (hfollow : tree.follow place (solidOf pieces) = .ok location) :
    tree.follow place pieces = .ok location := by
  induction pieces generalizing place with
  | nil => exact hfollow
  | cons piece rest ih =>
    have hrestEnd : tree.entryAt location = some .directory ∨
        ∀ last, rest.getLast? = some last → isIdle last = false := by
      refine hend.imp_right fun hlast last hsome => hlast last ?_
      rw [List.getLast?_cons, hsome]
      rfl
    rw [follow]
    cases hidle : isIdle piece with
    | true =>
      have hstay : turnOf piece = .stay := by rw [turnOf, if_pos hidle]
      rw [hstay]
      have hsolid : solidOf (piece :: rest) = solidOf rest := by simp [solidOf, hidle]
      rw [hsolid] at hfollow
      exact ih hrestEnd hfollow
    | false =>
      have hsolid : solidOf (piece :: rest) = piece :: solidOf rest := by simp [solidOf, hidle]
      rw [hsolid, follow] at hfollow
      cases hturn : turnOf piece with
      | stay =>
        rw [hturn] at hfollow
        exact ih hrestEnd hfollow
      | up =>
        rw [hturn] at hfollow
        exact ih hrestEnd hfollow
      | down name =>
        rw [hturn] at hfollow
        dsimp only at hfollow ⊢
        split at hfollow
        · cases hfollow
        · rename_i hname
          rw [if_neg hname]
          rcases List.eq_nil_or_concat' rest with rfl | ⟨before, last, rfl⟩
          · exact hfollow
          rw [if_neg (by simp)]
          split at hfollow
          · -- Nothing solid follows, so the last piece is idle and the name has to be a directory.
            rename_i hnone
            obtain rfl := Except.ok.inj hfollow
            have hentry := hrestEnd.resolve_right fun hlast => by
              have hend : isIdle last = false := hlast last List.getLast?_concat
              simp [solidOf, hend] at hnone
            rw [hentry]
            refine ih hrestEnd ?_
            rw [List.isEmpty_iff.1 hnone]
            rfl
          · split at hfollow
            · exact ih hrestEnd hfollow
            · cases hfollow
            · cases hfollow

/-- A path that leads to a directory leads there in other words with the same components, unless these
cannot be looked up. -/
theorem locationOf_of_same (hsame : other.same path = true) (hpath : tree.locationOf path = .ok location)
    (hdirectory : tree.entryAt location = some .directory) (hrefusal : refusal? other = none) :
    tree.locationOf other = .ok location := by
  obtain ⟨hstart, hsolid⟩ := isAbsolute_and_solid_of_same hsame
  unfold locationOf at hpath ⊢
  rw [hrefusal]
  split at hpath
  · cases hpath
  · refine follow_of_solidOf (.inl hdirectory) ?_
    have hother : solidOf other.pieces = solidOf path.pieces := hsolid
    rw [start, hstart, hother]
    exact follow_solidOf hpath

/-- Where a plain path that continues a root leads somewhere, another one with the same names leads there
as well, unless it ends in a slash or a dot or is too long. -/
theorem locationOf_join_of_names {root : Pathname} (hpath : tree.locationOf (root.join path) = .ok location)
    (hplain : path.isPlain = true) (hother : other.isPlain = true) (hnames : path.names = other.names)
    (hlast : ∀ last, other.pieces.getLast? = some last → isIdle last = false)
    (hrefusal : refusal? (root.join other) = none) :
    tree.locationOf (root.join other) = .ok location := by
  have hrelative := isAbsolute_of_isPlain hplain
  have henters := enters_of_locationOf hrelative hpath
  have hsolid : solidOf path.pieces = solidOf other.pieces :=
    List.map_injective_iff.2 (fun _ _ => String.ofList_injective) hnames
  rw [locationOf_join henters hrelative] at hpath
  rw [locationOf_join henters (isAbsolute_of_isPlain hother), hrefusal]
  split at hpath
  · cases hpath
  · refine follow_of_solidOf (.inr hlast) ?_
    rw [← hsolid]
    exact follow_solidOf hpath

end UxmlBindings.Files.FileTree
