import UxmlBindings.Files.FileTree
import UxmlBindings.Proofs.Outcome

/-!
# Places of paths

A path leads to one place or to none: which place depends on nothing but the text of the path and
the home of the tree. The operations on files therefore change the content of at most one place,
which the path alone decides. None of them takes a directory away, so a path that leads somewhere
keeps leading there.
-/

namespace UxmlBindings.Files.FileTree

variable {tree made later : FileTree} {path : Pathname} {location : Location} {content : Content}

/-- Following pieces ends where the turns lead. -/
theorem eq_foldl_of_follow {place : Location} {pieces : List (List Char)}
    (hfollow : tree.follow place pieces = .ok location) :
    location = pieces.foldl turnFrom place := by
  induction pieces generalizing place with
  | nil => exact (Except.ok.inj hfollow).symm
  | cons piece rest ih =>
    rw [List.foldl_cons]
    rw [follow] at hfollow
    cases hturn : turnOf piece with
    | stay =>
      rw [hturn] at hfollow
      rw [turnFrom, hturn]
      exact ih hfollow
    | up =>
      rw [hturn] at hfollow
      rw [turnFrom, hturn]
      exact ih hfollow
    | down name =>
      simp only [hturn] at hfollow
      rw [turnFrom, hturn]
      split at hfollow
      · cases hfollow
      split at hfollow
      · rename_i hlast
        rw [List.isEmpty_iff.1 hlast]
        exact (Except.ok.inj hfollow).symm
      split at hfollow
      · exact ih hfollow
      · cases hfollow
      · cases hfollow

/-- A path leads nowhere but to its place. -/
theorem eq_placeOf (hpath : tree.locationOf path = .ok location) :
    location = placeOf tree.home path := by
  unfold locationOf at hpath
  split at hpath
  · cases hpath
  · exact eq_foldl_of_follow hpath

/-- The content of a file is what stands there. -/
theorem content?_eq_some_iff :
    tree.content? location = some content ↔ tree.entryAt location = some (.file content) := by
  unfold content?
  split
  · rename_i other hentry
    simp [hentry]
  · rename_i hnone
    simp only [reduceCtorEq, false_iff]
    exact hnone content

/-- Where a file is, something is. -/
theorem isSome_entryAt (hcontent : (tree.content? location).isSome) :
    (tree.entryAt location).isSome := by
  obtain ⟨content, hcontent⟩ := Option.isSome_iff_exists.1 hcontent
  rw [content?_eq_some_iff.1 hcontent]
  rfl

/-- Only a location below the top can be something other than a directory. -/
theorem ne_nil_of_entryAt (hentry : tree.entryAt location ≠ some .directory) : location ≠ [] := by
  rintro rfl
  exact hentry rfl

/-- A file that was put at a location is found there, and all others are as before. -/
theorem content?_put_file (hlocation : location ≠ []) (other : Location) :
    (tree.put location (.file content)).content? other =
      if location = other then some content else tree.content? other := by
  rw [content?, entryAt_put tree hlocation]
  by_cases hother : location = other
  · simp [hother]
  · simp only [if_neg hother]
    rfl

/-- A directory that is made where nothing was changes no file. -/
theorem content?_put_directory (hlocation : location ≠ []) (hnone : tree.entryAt location = none)
    (other : Location) : (tree.put location .directory).content? other = tree.content? other := by
  rw [content?, entryAt_put tree hlocation]
  by_cases hother : location = other
  · rw [if_pos hother, content?, ← hother, hnone]
  · rw [if_neg hother]
    rfl

/-- A file that was erased is gone, and all others are as before. -/
theorem content?_erase (hlocation : location ≠ []) (other : Location) :
    (tree.erase location).content? other =
      if location = other then none else tree.content? other := by
  rw [content?, entryAt_erase tree hlocation]
  by_cases hother : location = other
  · simp [hother]
  · simp only [if_neg hother]
    rfl

/-- A later tree has the home and all directories of an earlier one. -/
structure Grows (earlier later : FileTree) : Prop where
  home : later.home = earlier.home
  directory : ∀ location, earlier.entryAt location = some .directory →
    later.entryAt location = some .directory

theorem Grows.refl (tree : FileTree) : Grows tree tree :=
  ⟨rfl, fun _ h => h⟩

theorem Grows.trans (hfirst : Grows tree made) (hsecond : Grows made later) : Grows tree later :=
  ⟨hsecond.home.trans hfirst.home,
    fun location hentry => hsecond.directory location (hfirst.directory location hentry)⟩

/-- Nothing is lost by putting an entry where no directory was. -/
theorem grows_put (hentry : tree.entryAt location ≠ some .directory) (entry : Entry) :
    Grows tree (tree.put location entry) := by
  refine ⟨rfl, fun other hother => ?_⟩
  rw [entryAt_put tree (ne_nil_of_entryAt hentry), if_neg, hother]
  rintro rfl
  exact hentry hother

/-- No directory is lost by erasing a file. -/
theorem grows_erase (hentry : tree.entryAt location ≠ some .directory) :
    Grows tree (tree.erase location) := by
  refine ⟨rfl, fun other hother => ?_⟩
  rw [entryAt_erase tree (ne_nil_of_entryAt hentry), if_neg, hother]
  rintro rfl
  exact hentry hother

/-- Pieces that can be followed can be followed later. -/
theorem Grows.follow (hgrows : Grows tree later) {place : Location} {pieces : List (List Char)}
    (hfollow : tree.follow place pieces = .ok location) :
    later.follow place pieces = .ok location := by
  induction pieces generalizing place with
  | nil => exact hfollow
  | cons piece rest ih =>
    rw [FileTree.follow] at hfollow ⊢
    cases hturn : turnOf piece with
    | stay =>
      rw [hturn] at hfollow
      exact ih hfollow
    | up =>
      rw [hturn] at hfollow
      exact ih hfollow
    | down name =>
      simp only [hturn] at hfollow ⊢
      split at hfollow
      · cases hfollow
      rename_i hname
      rw [if_neg hname]
      split at hfollow
      · rename_i hlast
        rw [if_pos hlast]
        exact hfollow
      rename_i hlast
      rw [if_neg hlast]
      split at hfollow
      · rename_i hentry
        rw [hgrows.directory _ hentry]
        exact ih hfollow
      · cases hfollow
      · cases hfollow

/-- A path that leads somewhere keeps leading there. -/
theorem Grows.locationOf (hgrows : Grows tree later) (hpath : tree.locationOf path = .ok location) :
    later.locationOf path = .ok location := by
  unfold FileTree.locationOf at hpath ⊢
  split at hpath
  · cases hpath
  · rw [start, hgrows.home]
    exact hgrows.follow hpath

/-- A later tree has the files of an earlier one, and at most further directories. -/
structure KeepsFiles (earlier later : FileTree) : Prop extends Grows earlier later where
  content : ∀ location, later.content? location = earlier.content? location

theorem KeepsFiles.refl (tree : FileTree) : KeepsFiles tree tree :=
  ⟨.refl tree, fun _ => rfl⟩

theorem KeepsFiles.trans (hfirst : KeepsFiles tree made) (hsecond : KeepsFiles made later) :
    KeepsFiles tree later :=
  ⟨hfirst.toGrows.trans hsecond.toGrows,
    fun location => (hsecond.content location).trans (hfirst.content location)⟩

/-- Making directories keeps all files, whether or not it succeeds. -/
theorem keepsFiles_makeDirectoriesFrom (tree : FileTree) (place : Location)
    (pieces : List (List Char)) : KeepsFiles tree (tree.makeDirectoriesFrom place pieces).2 := by
  induction pieces generalizing tree place with
  | nil => exact .refl tree
  | cons piece rest ih =>
    rw [makeDirectoriesFrom]
    split
    · exact ih tree place
    · exact ih tree place.dropLast
    · split
      · exact .refl tree
      · simp only
        split
        · exact ih tree _
        · exact .refl tree
        · rename_i name _ _ _ hnone
          have hlocation : place ++ [name] ≠ [] := by simp
          have hmade : KeepsFiles tree (tree.put (place ++ [name]) .directory) :=
            ⟨grows_put (by simp [hnone]) _, content?_put_directory hlocation hnone⟩
          exact hmade.trans (ih _ _)

theorem keepsFiles_makeDirectories (tree : FileTree) (path : Pathname) :
    KeepsFiles tree (tree.makeDirectories path).2 := by
  unfold makeDirectories
  split
  · exact .refl tree
  · exact keepsFiles_makeDirectoriesFrom tree _ _

/-- A later tree has one file written: the content stands where the path leads, and all other files
are as before. -/
structure Writes (path : Pathname) (content : Content) (earlier later : FileTree) : Prop
    extends Grows earlier later where
  reached : later.locationOf path = .ok (placeOf earlier.home path)
  content : ∀ other, later.content? other =
    if placeOf earlier.home path = other then some content else earlier.content? other

/-- A write that succeeds writes the file. -/
theorem writes_of_write (hwrite : tree.write path content = .ok later) :
    Writes path content tree later := by
  obtain ⟨location, hpath, hrest⟩ := bind_eq_ok_iff.1 hwrite
  have hentry : tree.entryAt location ≠ some .directory := by
    intro hdirectory
    simp [hdirectory] at hrest
  split at hrest
  · cases hrest
  obtain rfl := Except.ok.inj hrest
  have hgrows := grows_put hentry (.file content)
  obtain rfl := eq_placeOf hpath
  exact ⟨hgrows, hgrows.locationOf hpath, content?_put_file (ne_nil_of_entryAt hentry)⟩

/-- Directories that are made before do not matter to a write. -/
theorem KeepsFiles.writes (hkeeps : KeepsFiles tree made) (hwrites : Writes path content made later) :
    Writes path content tree later := by
  obtain ⟨hgrows, hreached, hcontent⟩ := hwrites
  rw [hkeeps.home] at hreached hcontent
  refine ⟨hkeeps.toGrows.trans hgrows, hreached, fun other => ?_⟩
  rw [hcontent other, hkeeps.content other]

/-- A write that makes directories writes the file if it succeeds, and keeps all files otherwise. -/
theorem writeWithParents_spec (tree : FileTree) (path : Pathname) (content : Content) :
    match tree.writeWithParents path content with
    | (.ok (), later) => Writes path content tree later
    | (.error _, later) => KeepsFiles tree later := by
  unfold writeWithParents
  cases path.parent? with
  | none =>
    dsimp only
    cases hwrite : tree.write path content with
    | error fault => exact .refl tree
    | ok later => exact writes_of_write hwrite
  | some parent =>
    dsimp only
    have hkeeps := keepsFiles_makeDirectories tree parent
    generalize tree.makeDirectories parent = result at hkeeps ⊢
    obtain ⟨outcome, made⟩ := result
    cases outcome.mapError fun fault => (parent, fault) with
    | error fault => exact hkeeps
    | ok =>
      dsimp only
      cases hwrite : made.write path content with
      | error fault => exact hkeeps
      | ok later => exact hkeeps.writes (writes_of_write hwrite)

/-- A later tree has one file removed: nothing stands where the path leads, and all other files are
as before. -/
structure Removes (path : Pathname) (earlier later : FileTree) : Prop
    extends Grows earlier later where
  reached : earlier.locationOf path = .ok (placeOf earlier.home path)
  present : (earlier.content? (placeOf earlier.home path)).isSome
  content : ∀ other, later.content? other =
    if placeOf earlier.home path = other then none else earlier.content? other

/-- A removal that succeeds erases the file to which the path leads. -/
theorem eq_erase_of_removeFile (hremove : tree.removeFile path = .ok later) :
    ∃ content, tree.locationOf path = .ok (placeOf tree.home path) ∧
      tree.entryAt (placeOf tree.home path) = some (.file content) ∧
      later = tree.erase (placeOf tree.home path) := by
  obtain ⟨location, hpath, hrest⟩ := bind_eq_ok_iff.1 hremove
  obtain rfl := eq_placeOf hpath
  cases hentry : tree.entryAt (placeOf tree.home path) with
  | none => simp [hentry] at hrest
  | some entry =>
    cases entry with
    | directory => simp [hentry] at hrest
    | file content =>
      simp only [hentry, Except.ok.injEq] at hrest
      exact ⟨content, hpath, rfl, hrest.symm⟩

/-- A removal that succeeds removes the file. -/
theorem removes_of_removeFile (hremove : tree.removeFile path = .ok later) :
    Removes path tree later := by
  obtain ⟨content, hpath, hentry, rfl⟩ := eq_erase_of_removeFile hremove
  have hfile : tree.entryAt (placeOf tree.home path) ≠ some .directory := by simp [hentry]
  have hcontent := content?_eq_some_iff.2 hentry
  exact ⟨grows_erase hfile, hpath, by simp [hcontent], content?_erase (ne_nil_of_entryAt hfile)⟩

/-- A removal makes no directory. -/
theorem grows_of_removeFile (hremove : tree.removeFile path = .ok later) : Grows later tree := by
  obtain ⟨content, -, hentry, rfl⟩ := eq_erase_of_removeFile hremove
  have hfile : tree.entryAt (placeOf tree.home path) ≠ some .directory := by simp [hentry]
  refine ⟨rfl, fun other hother => ?_⟩
  rw [entryAt_erase tree (ne_nil_of_entryAt hfile)] at hother
  split at hother
  · cases hother
  · exact hother

/-- A file that stands where a path leads can be removed. -/
theorem removeFile_of_content? (hpath : tree.locationOf path = .ok location)
    (hcontent : (tree.content? location).isSome) : ∃ later, tree.removeFile path = .ok later := by
  obtain ⟨content, hcontent⟩ := Option.isSome_iff_exists.1 hcontent
  refine ⟨tree.erase location, ?_⟩
  rw [removeFile, hpath]
  simp [content?_eq_some_iff.1 hcontent, bind, Except.bind]

/-- The text that is read at a path is that of the file where the path leads. -/
theorem readText_eq_ok_iff {text : String} (hpath : tree.locationOf path = .ok location) :
    tree.readText path = .ok text ↔ tree.content? location = some (.text text) := by
  rw [content?_eq_some_iff, readText, hpath]
  simp only [bind, Except.bind]
  split <;> simp [*]

/-- Something is held where a path leads to a file. -/
theorem holds_of_content? (hpath : tree.locationOf path = .ok location)
    (hcontent : (tree.content? location).isSome) : tree.holds path = true := by
  obtain ⟨content, hcontent⟩ := Option.isSome_iff_exists.1 hcontent
  rw [holds, find?, hpath]
  dsimp only
  rw [content?_eq_some_iff.1 hcontent]
  rfl

end UxmlBindings.Files.FileTree
