import Mathlib.Data.List.Basic
import UxmlBindings.Proofs.Files.Endings

/-!
# Solid pieces of paths

Empty pieces and single dots lead nowhere. What remains of the pieces of a path without them decides,
together with the start of the path, where the path leads. Two paths with the same components have the
same solid pieces and the same start, so they lead to the same place.
-/

namespace UxmlBindings.Files

namespace Pathname

/-- Pieces without the idle ones. -/
def solidOf (pieces : List (List Char)) : List (List Char) :=
  pieces.filter fun piece => !isIdle piece

/-- The solid pieces of a path. -/
def solid (path : Pathname) : List (List Char) :=
  solidOf path.pieces

/-- The component of a solid piece. -/
def stepOf (piece : List Char) : Component :=
  if piece = ['.', '.'] then .up else .named (String.ofList piece)

/-- Different pieces are different components. -/
theorem stepOf_injective : Function.Injective stepOf := by
  intro first second heq
  unfold stepOf at heq
  split at heq <;> split at heq
  · simp [*]
  · cases heq
  · cases heq
  · exact String.ofList_injective (Component.named.inj heq)

/-- A solid piece has a component, and an idle one has none. -/
theorem component?_eq (piece : List Char) :
    component? piece = if isIdle piece then none else some (stepOf piece) := by
  unfold component? stepOf
  simp only [beq_iff_eq]
  split
  · rfl
  · split <;> rfl

/-- The components of some pieces are those of the solid ones. -/
theorem filterMap_component? (pieces : List (List Char)) :
    pieces.filterMap component? = (solidOf pieces).map stepOf := by
  induction pieces with
  | nil => rfl
  | cons piece rest ih =>
    rw [solidOf] at ih
    rw [List.filterMap_cons, solidOf, List.filter_cons, component?_eq, ih]
    by_cases hidle : isIdle piece <;> simp [hidle]

/-- What a path starts with is no solid piece. -/
theorem solidOf_split (path : Pathname) : solidOf path.split.2 = path.solid := by
  unfold split solid
  cases path.pieces with
  | nil => rfl
  | cons first rest =>
    dsimp only
    split
    · rename_i htop
      rw [Bool.and_eq_true] at htop
      simp [solidOf, isIdle, htop.1]
    · split
      · rename_i hhere
        simp [solidOf, isIdle, hhere]
      · rfl

/-- The components of a path are what it starts with and its solid pieces. -/
theorem components_eq (path : Pathname) :
    path.components = path.split.1.component?.toList ++ path.solid.map stepOf := by
  rw [← solidOf_split, ← filterMap_component?]
  rfl

/-- A path starts at the top if it is absolute. -/
theorem lead_eq_top_iff (path : Pathname) : path.split.1 = .top ↔ path.isAbsolute = true := by
  unfold split isAbsolute pieces
  cases path.text.toList with
  | nil => decide
  | cons c rest =>
    by_cases hslash : c = '/'
    · have hrest := Text.splitOn_ne_nil '/' rest
      simp [Text.splitOn, hslash, hrest]
    · rw [Text.splitOn, if_neg hslash]
      refine iff_of_false ?_ (by simpa using hslash)
      -- The first piece begins with a character, so it is not the empty one before a slash.
      cases Text.splitOn '/' rest with
      | nil =>
        simp only [List.isEmpty_cons, Bool.false_and, Bool.false_eq_true, if_false]
        split <;> simp only [reduceCtorEq, not_false_eq_true]
      | cons piece more =>
        simp only [List.isEmpty_cons, Bool.false_and, Bool.false_eq_true, if_false]
        split <;> simp only [reduceCtorEq, not_false_eq_true]

/-- A path that starts with nothing is relative. -/
theorem isAbsolute_of_lead {path : Pathname} (hlead : path.split.1 = .none) :
    path.isAbsolute = false := by
  rw [Bool.eq_false_iff, ne_eq, ← lead_eq_top_iff, hlead]
  nofun

/-- The component of a piece is neither the top nor the directory itself. -/
theorem stepOf_ne (piece : List Char) : stepOf piece ≠ .top ∧ stepOf piece ≠ .here := by
  unfold stepOf
  split <;> exact ⟨nofun, nofun⟩

/-- The top is among the components of absolute paths only. -/
theorem top_mem_components_iff (path : Pathname) :
    .top ∈ path.components ↔ path.isAbsolute = true := by
  have hsolid : .top ∉ path.solid.map stepOf := by
    rw [List.mem_map]
    rintro ⟨piece, -, hpiece⟩
    exact (stepOf_ne piece).1 hpiece
  rw [components_eq, List.mem_append, or_iff_left hsolid, ← lead_eq_top_iff]
  cases path.split.1 <;> simp [Lead.component?]

/-- The components other than the start are those of the solid pieces. -/
theorem filter_components (path : Pathname) :
    (path.components.filter fun component => component != .top && component != .here) =
      path.solid.map stepOf := by
  have hsolid : ((path.solid.map stepOf).filter fun component =>
      component != .top && component != .here) = path.solid.map stepOf := by
    rw [List.filter_eq_self]
    intro component hcomponent
    obtain ⟨piece, -, rfl⟩ := List.mem_map.1 hcomponent
    simp [stepOf_ne piece]
  rw [components_eq, List.filter_append, hsolid]
  cases path.split.1 <;> rfl

/-- Paths with the same components have the same start and the same solid pieces. -/
theorem isAbsolute_and_solid_of_same {first second : Pathname} (hsame : first.same second = true) :
    first.isAbsolute = second.isAbsolute ∧ first.solid = second.solid := by
  have hcomponents : first.components = second.components := beq_iff_eq.1 hsame
  constructor
  · rw [Bool.eq_iff_iff, ← top_mem_components_iff, hcomponents, top_mem_components_iff]
  · apply List.map_injective_iff.2 stepOf_injective
    rw [← filter_components, hcomponents, filter_components]

/-- Solid pieces of pieces one after the other. -/
theorem solidOf_append (first second : List (List Char)) :
    solidOf (first ++ second) = solidOf first ++ solidOf second :=
  List.filter_append first second

/-- The pieces that a path puts before those of a relative path that continues it. -/
def foregoing (base : Pathname) : List (List Char) :=
  if base.text.toList.isEmpty || base.text.toList.getLast? == some '/' then base.pieces.dropLast
  else base.pieces

/-- Of the pieces of a path, all solid ones stand before a path that continues it. -/
theorem solidOf_foregoing (base : Pathname) : solidOf base.foregoing = base.solid := by
  unfold foregoing solid
  split
  · rename_i hbase
    rcases Bool.or_eq_true_iff.1 hbase with hempty | hslash
    · rw [pieces, List.isEmpty_iff.1 hempty]
      rfl
    · obtain ⟨before, hbefore⟩ := List.getLast?_eq_some_iff.1 (beq_iff_eq.1 hslash)
      have hpieces : base.pieces = Text.splitOn '/' before ++ [[]] := by
        rw [pieces, hbefore, Text.splitOn_append_cons]
        rfl
      rw [hpieces, List.dropLast_concat, solidOf_append]
      exact (List.append_nil _).symm
  · rfl

/-- A relative path adds its pieces to those of the path that it continues. -/
theorem pieces_join (base : Pathname) {next : Pathname} (hnext : next.isAbsolute = false) :
    (base.join next).pieces = base.foregoing ++ next.pieces := by
  rw [join, hnext, if_neg Bool.false_ne_true, foregoing, pieces, pieces, pieces]
  split
  · rename_i hbase
    rw [String.toList_append]
    rcases Bool.or_eq_true_iff.1 hbase with hempty | hslash
    · rw [List.isEmpty_iff.1 hempty]
      rfl
    · obtain ⟨before, hbefore⟩ := List.getLast?_eq_some_iff.1 (beq_iff_eq.1 hslash)
      rw [hbefore, List.append_assoc, List.singleton_append, Text.splitOn_append_cons,
        Text.splitOn_append_cons]
      exact congrArg (· ++ _) List.dropLast_concat.symm
  · rw [String.toList_append, String.toList_append, List.append_assoc]
    exact Text.splitOn_append_cons '/' base.text.toList next.text.toList

/-- The same is true of the solid pieces. -/
theorem solid_join (base : Pathname) {next : Pathname} (hnext : next.isAbsolute = false) :
    (base.join next).solid = base.solid ++ next.solid := by
  rw [solid, pieces_join base hnext, solidOf_append, solidOf_foregoing]
  rfl

/-- A path that is continued by a relative path keeps its start. -/
theorem isAbsolute_join (base : Pathname) {next : Pathname} (hnext : next.isAbsolute = false) :
    (base.join next).isAbsolute = base.isAbsolute := by
  rw [join, hnext, if_neg Bool.false_ne_true]
  unfold isAbsolute at hnext ⊢
  cases hbase : base.text.toList with
  | nil => simpa [hbase] using hnext
  | cons c rest => split <;> simp [String.toList_append, hbase]

/-- The start of a path with several pieces is decided by the first one. -/
theorem lead_of_pieces {path : Pathname} {first last : List Char} {rest : List (List Char)}
    (hpieces : path.pieces = first :: (rest ++ [last])) :
    path.split.1 =
      if first.isEmpty then .top else if first == ['.'] then .here else .none := by
  have hrest : (rest ++ [last]).isEmpty = false := by simp
  rw [split, hpieces]
  simp only [hrest, Bool.not_false, Bool.and_true]
  split
  · rfl
  · split <;> rfl

/-- A path with one piece starts with a dot or with nothing. -/
theorem lead_of_singleton {path : Pathname} {piece : List Char} (hpieces : path.pieces = [piece]) :
    path.split.1 = if piece == ['.'] then .here else .none := by
  rw [split, hpieces]
  simp only [List.isEmpty_nil, Bool.not_true, Bool.and_false, Bool.false_eq_true, if_false]
  split <;> rfl

/-- A path keeps its start when it is continued by one that starts with nothing. -/
theorem lead_join (base : Pathname) {next : Pathname} (hnext : next.split.1 = .none) :
    (base.join next).split.1 = base.split.1 := by
  have hrelative := isAbsolute_of_lead hnext
  obtain ⟨before, last, hlast⟩ :=
    (List.eq_nil_or_concat' next.pieces).resolve_left (Text.splitOn_ne_nil '/' next.text.toList)
  have hjoined := pieces_join base hrelative
  unfold foregoing at hjoined
  split at hjoined
  · rename_i hbase
    rcases Bool.or_eq_true_iff.1 hbase with hempty | hslash
    · have hbase : base = ⟨""⟩ := congrArg mk (String.toList_eq_nil_iff.1 (List.isEmpty_iff.1 hempty))
      rw [hbase, join_empty, hnext]
      rfl
    · -- The slash at the end makes the last piece empty, and `next` takes its place.
      obtain ⟨text, htext⟩ := List.getLast?_eq_some_iff.1 (beq_iff_eq.1 hslash)
      obtain ⟨first, rest, hfirst⟩ := List.exists_cons_of_ne_nil (Text.splitOn_ne_nil '/' text)
      have hpieces : base.pieces = first :: (rest ++ [[]]) := by
        rw [pieces, htext, Text.splitOn_append_cons, hfirst]
        rfl
      rw [hpieces, ← List.cons_append, List.dropLast_concat, hlast, List.cons_append,
        ← List.append_assoc] at hjoined
      rw [lead_of_pieces hjoined, lead_of_pieces hpieces]
  · rename_i hbase
    obtain ⟨first, rest, hpieces⟩ :=
      List.exists_cons_of_ne_nil (Text.splitOn_ne_nil '/' base.text.toList)
    change base.pieces = first :: rest at hpieces
    rw [hpieces, hlast, List.cons_append, ← List.append_assoc] at hjoined
    rw [lead_of_pieces hjoined]
    rcases List.eq_nil_or_concat' rest with rfl | ⟨others, final, rfl⟩
    · -- The only piece is the text, which is not empty.
      have hfirst : base.text.toList = first := by
        rw [← Text.intercalate_splitOn '/' base.text.toList]
        change ['/'].intercalate base.pieces = first
        rw [hpieces, List.intercalate_singleton]
      rw [Bool.or_eq_true, not_or, hfirst] at hbase
      rw [lead_of_singleton hpieces, if_neg hbase.1]
    · rw [lead_of_pieces hpieces]

/-- A path that is continued by one that starts with nothing has its components and those of the
other. -/
theorem components_join (base : Pathname) {next : Pathname} (hnext : next.split.1 = .none) :
    (base.join next).components = base.components ++ next.components := by
  have hrelative := isAbsolute_of_lead hnext
  rw [components_eq, components_eq base, components_eq next, lead_join base hnext, hnext,
    solid_join base hrelative, List.map_append, List.append_assoc]
  rfl

/-- A text without slashes that is no way of its own is the name of a path with one component. -/
theorem components_name {name : String} (habsent : '/' ∉ name.toList)
    (hsolid : isIdle name.toList = false) (hup : name.toList ≠ ['.', '.']) :
    (mk name).split.1 = .none ∧ (mk name).components = [.named name] := by
  have hpieces : (mk name).pieces = [name.toList] := Text.splitOn_of_notMem habsent
  have hlead : (mk name).split.1 = .none := by
    rw [isIdle, Bool.or_eq_false_iff] at hsolid
    rw [lead_of_singleton hpieces, hsolid.2]
    rfl
  refine ⟨hlead, ?_⟩
  rw [components_eq, hlead, solid, hpieces, solidOf, List.filter_cons, hsolid]
  simp [Lead.component?, stepOf, hup]

/-- The pieces of a path are those without idle ones at the end, and idle ones. The last of those that
remain is solid. -/
theorem withoutIdleEnd_spec (pieces : List (List Char)) :
    (∃ idle, pieces = withoutIdleEnd pieces ++ idle ∧ solidOf idle = []) ∧
      ∀ last, (withoutIdleEnd pieces).getLast? = some last → isIdle last = false := by
  induction pieces with
  | nil => exact ⟨⟨[], rfl, rfl⟩, nofun⟩
  | cons piece rest ih =>
    obtain ⟨⟨idle, hrest, hidle⟩, hlast⟩ := ih
    have hcons : withoutIdleEnd (piece :: rest) =
        if (withoutIdleEnd rest).isEmpty && isIdle piece then []
        else piece :: withoutIdleEnd rest :=
      rfl
    cases hkept : withoutIdleEnd rest with
    | nil =>
      rw [hkept, List.nil_append] at hrest
      rw [hcons, hkept, hrest]
      cases hpiece : isIdle piece with
      | true => exact ⟨⟨piece :: idle, rfl, by simpa [solidOf, hpiece] using hidle⟩, nofun⟩
      | false =>
        refine ⟨⟨idle, rfl, hidle⟩, fun last hsome => ?_⟩
        rw [← Option.some.inj hsome]
        exact hpiece
    | cons first more =>
      rw [hkept] at hrest hlast
      rw [hcons, hkept]
      refine ⟨⟨idle, congrArg (piece :: ·) hrest, hidle⟩, fun last hsome => hlast last ?_⟩
      exact hsome

/-- Pieces without slashes are the pieces of the text that they are joined to. -/
theorem splitOn_joinPieces {pieces : List (List Char)} (hsome : pieces ≠ [])
    (habsent : ∀ piece ∈ pieces, '/' ∉ piece) :
    Text.splitOn '/' (joinPieces pieces) = pieces := by
  induction pieces with
  | nil => exact absurd rfl hsome
  | cons piece rest ih =>
    have hpiece : '/' ∉ piece := habsent piece (by simp)
    cases rest with
    | nil =>
      rw [joinPieces, List.intercalate_singleton, Text.splitOn_of_notMem hpiece]
    | cons second more =>
      have hrest := ih (by simp) fun other hother => habsent other (List.mem_cons_of_mem piece hother)
      rw [joinPieces] at hrest
      rw [joinPieces, List.intercalate_cons_cons, List.append_assoc, List.singleton_append,
        Text.splitOn_append_cons, Text.splitOn_of_notMem hpiece, hrest]
      rfl

/-- The last of some pieces is solid, unless none of them is. -/
def EndSolid (pieces : List (List Char)) : Prop :=
  solidOf pieces = [] ∨ ∀ last, pieces.getLast? = some last → isIdle last = false

theorem EndSolid.of_cons {piece : List Char} {rest : List (List Char)}
    (hend : EndSolid (piece :: rest)) : EndSolid rest := by
  refine hend.imp (fun hnone => ?_) fun hlast last hsome => hlast last ?_
  · rw [solidOf, List.filter_cons] at hnone
    split at hnone
    · cases hnone
    · exact hnone
  · rw [List.getLast?_cons, hsome]
    rfl

/-- A start and the pieces after it, as they are written. -/
def Lead.followedBy (lead : Lead) (rest : List (List Char)) : List Char :=
  match lead with
  | .top => '/' :: joinPieces rest
  | .here => if rest.isEmpty then ['.'] else '.' :: '/' :: joinPieces rest
  | .none => joinPieces rest

/-- The parent of a path with solid pieces is written without the last of them. -/
theorem exists_parent? (path : Pathname) (hsolid : path.solid ≠ []) :
    ∃ rest, solidOf rest = path.solid.dropLast ∧ rest <+: path.split.2 ∧
      (∀ last, rest.getLast? = some last → isIdle last = false) ∧
      path.parent? = some ⟨String.ofList (path.split.1.followedBy rest)⟩ := by
  obtain ⟨⟨idle, hbody, hidle⟩, hlast⟩ := withoutIdleEnd_spec path.split.2
  rw [← solidOf_split] at hsolid ⊢
  rcases List.eq_nil_or_concat (withoutIdleEnd path.split.2) with hused | ⟨used, last, hused⟩
  · rw [hbody, hused, List.nil_append, hidle] at hsolid
    exact absurd rfl hsolid
  · rw [List.concat_eq_append] at hused
    have hpiece : isIdle last = false := hlast last (by rw [hused, List.getLast?_concat])
    obtain ⟨⟨trailing, hkept, htrailing⟩, hend⟩ := withoutIdleEnd_spec used
    refine ⟨withoutIdleEnd used, ?_, ?_, hend, ?_⟩
    · have hsplit : solidOf path.split.2 = solidOf (withoutIdleEnd used) ++ [last] := by
        rw [hbody, hused, solidOf_append, solidOf_append, hidle, hkept, solidOf_append, htrailing,
          ← hkept]
        simp [solidOf, hpiece]
      rw [hsplit, List.dropLast_concat]
    · rw [hbody, hused, List.append_assoc]
      exact (show withoutIdleEnd used <+: used from ⟨trailing, hkept.symm⟩).trans
        (List.prefix_append _ _)
    · rw [parent?]
      generalize path.split = parts at hused ⊢
      obtain ⟨lead, body⟩ := parts
      dsimp only at hused ⊢
      obtain ⟨first, more, hcons⟩ : ∃ first more, used ++ [last] = first :: more :=
        List.exists_cons_of_ne_nil (by simp)
      rw [hused, hcons]
      dsimp only
      rw [← hcons, List.dropLast_concat]
      cases lead <;> rfl

/-- The first pieces of a text are joined to the beginning of the text. -/
theorem joinPieces_isPrefix {rest pieces : List (List Char)} (hbegins : rest <+: pieces) :
    joinPieces rest <+: joinPieces pieces := by
  induction rest generalizing pieces with
  | nil => exact List.nil_prefix
  | cons piece rest ih =>
    obtain ⟨after, rfl⟩ := hbegins
    cases rest with
    | nil =>
      cases after with
      | nil => exact List.prefix_rfl
      | cons first more =>
        rw [joinPieces, joinPieces, List.cons_append, List.nil_append, List.intercalate_singleton,
          List.intercalate_cons_cons, List.append_assoc]
        exact List.prefix_append _ _
    | cons second more =>
      rw [joinPieces, joinPieces, List.cons_append, List.cons_append, List.intercalate_cons_cons,
        List.intercalate_cons_cons]
      exact (List.prefix_append_right_inj _).2 (ih ⟨after, rfl⟩)

/-- The pieces after the start of a path are pieces of the path. -/
theorem split_suffix (path : Pathname) :
    path.split.2 <:+ path.pieces ∧ (path.split.1 = .none → path.split.2 = path.pieces) := by
  unfold split
  cases path.pieces with
  | nil => exact ⟨List.suffix_rfl, fun _ => rfl⟩
  | cons first more =>
    dsimp only
    split
    · exact ⟨List.suffix_cons first more, nofun⟩
    · split
      · exact ⟨List.suffix_cons first more, nofun⟩
      · exact ⟨List.suffix_rfl, fun _ => rfl⟩

/-- Only idle pieces are written before those that follow a start. -/
theorem exists_splitOn_followedBy (lead : Lead) {rest : List (List Char)}
    (habsent : ∀ piece ∈ rest, '/' ∉ piece) :
    ∃ idle, solidOf idle = [] ∧ Text.splitOn '/' (lead.followedBy rest) = idle ++ rest := by
  by_cases hnone : rest = []
  · subst hnone
    cases lead with
    | top => exact ⟨[[], []], rfl, rfl⟩
    | here => exact ⟨[['.']], rfl, rfl⟩
    | none => exact ⟨[[]], rfl, rfl⟩
  · have hjoined := splitOn_joinPieces hnone habsent
    cases lead with
    | top =>
      refine ⟨[[]], rfl, ?_⟩
      rw [Lead.followedBy, Text.splitOn, if_pos rfl, hjoined]
      rfl
    | here =>
      refine ⟨[['.']], rfl, ?_⟩
      have hdot := Text.splitOn_append_cons '/' ['.'] (joinPieces rest)
      rw [hjoined] at hdot
      rw [Lead.followedBy, if_neg (by simpa using hnone)]
      exact hdot
    | none => exact ⟨[], rfl, hjoined⟩

/-- The beginning of a path, written after its start, starts where the path does. -/
theorem isAbsolute_followedBy (path : Pathname) {rest : List (List Char)}
    (hbefore : rest <+: path.split.2) :
    (mk (String.ofList (path.split.1.followedBy rest))).isAbsolute = path.isAbsolute := by
  rw [Bool.eq_iff_iff, ← lead_eq_top_iff path, isAbsolute, String.toList_ofList]
  cases hlead : path.split.1 with
  | top => simp [Lead.followedBy]
  | here =>
    dsimp only [Lead.followedBy]
    split <;> simp
  | none =>
    refine iff_of_false (fun habsolute => ?_) nofun
    -- What is left of the text begins as the text does.
    rw [(split_suffix path).2 hlead] at hbefore
    have htext := joinPieces_isPrefix hbefore
    rw [joinPieces, joinPieces, pieces, Text.intercalate_splitOn] at htext
    obtain ⟨more, hmore⟩ := List.head?_eq_some_iff.1 (beq_iff_eq.1 habsolute)
    rw [Lead.followedBy, joinPieces] at hmore
    rw [hmore] at htext
    obtain ⟨after, hafter⟩ := htext
    have htop : path.split.1 = .top := by
      rw [lead_eq_top_iff, isAbsolute, ← hafter]
      rfl
    rw [hlead] at htop
    cases htop

/-- Idle pieces before others do not matter for how these end. -/
theorem EndSolid.of_idle {idle rest : List (List Char)} (hidle : solidOf idle = [])
    (hend : ∀ last, rest.getLast? = some last → isIdle last = false) : EndSolid (idle ++ rest) := by
  rw [EndSolid, solidOf_append, hidle]
  rcases List.eq_nil_or_concat rest with rfl | ⟨before, last, hconcat⟩
  · exact .inl rfl
  · refine .inr fun other hother => hend other ?_
    rw [hconcat, List.concat_eq_append] at hother ⊢
    rw [← List.append_assoc, List.getLast?_concat] at hother
    rw [List.getLast?_concat, hother]

/-- A path with solid pieces has a parent with the same start, which lacks the last of them. The parent
is written without idle pieces at its end. -/
theorem parent?_spec (path : Pathname) (hsolid : path.solid ≠ []) :
    ∃ parent, path.parent? = some parent ∧ parent.isAbsolute = path.isAbsolute ∧
      parent.solid = path.solid.dropLast ∧ EndSolid parent.pieces := by
  obtain ⟨rest, hrest, hbefore, hend, hparent⟩ := exists_parent? path hsolid
  have habsent : ∀ piece ∈ rest, '/' ∉ piece := fun piece hpiece =>
    Text.notMem_of_mem_splitOn ((split_suffix path).1.subset (hbefore.subset hpiece))
  obtain ⟨idle, hidle, hsplit⟩ := exists_splitOn_followedBy path.split.1 habsent
  have hpieces : (mk (String.ofList (path.split.1.followedBy rest))).pieces = idle ++ rest := by
    rw [pieces, String.toList_ofList, hsplit]
  refine ⟨_, hparent, isAbsolute_followedBy path hbefore, ?_, ?_⟩
  · rw [solid, hpieces, solidOf_append, hidle, hrest, List.nil_append]
  · rw [hpieces]
    exact .of_idle hidle hend

/-- What is added to a path does not change where it starts, unless a slash is added to nothing. -/
theorem isAbsolute_extend (path : Pathname) {ending : String}
    (hending : ending.toList.head? ≠ some '/') :
    (path.extend ending).isAbsolute = path.isAbsolute := by
  rw [isAbsolute, isAbsolute, extend, String.toList_append]
  cases path.text.toList with
  | nil => simpa using hending
  | cons c rest => rfl

/-- What is added to a path that continues another one is added to the continuation. -/
theorem extend_join (base : Pathname) {next : Pathname} (hnext : next.isAbsolute = false)
    {ending : String} (hending : ending.toList.head? ≠ some '/') :
    (base.join next).extend ending = base.join (next.extend ending) := by
  have hextended : (next.extend ending).isAbsolute = false :=
    (isAbsolute_extend next hending).trans hnext
  rw [join, join, hnext, hextended, if_neg Bool.false_ne_true, if_neg Bool.false_ne_true]
  split <;> simp only [extend, String.append_assoc]

/-- Whether a path is relative and neither stays in a directory nor goes up in words. -/
def isPlain (path : Pathname) : Bool :=
  path.components.all fun
    | .named _ => true
    | _ => false

/-- The names along a path. -/
def names (path : Pathname) : List String :=
  path.solid.map String.ofList

variable {path other : Pathname}

/-- A plain path starts with nothing. -/
theorem lead_of_isPlain (hplain : path.isPlain = true) : path.split.1 = .none := by
  rw [isPlain, components_eq, List.all_append, Bool.and_eq_true] at hplain
  cases hlead : path.split.1 with
  | none => rfl
  | top | here =>
    rw [hlead] at hplain
    cases hplain.1

/-- A plain path continued by a plain path is plain. -/
theorem isPlain_join (hplain : path.isPlain = true) (hother : other.isPlain = true) :
    (path.join other).isPlain = true := by
  rw [isPlain, components_join path (lead_of_isPlain hother), List.all_append, Bool.and_eq_true]
  exact ⟨hplain, hother⟩

/-- The components of a plain path are its names. -/
theorem components_of_isPlain (hplain : path.isPlain = true) :
    path.components = path.names.map .named := by
  have hnamed (component : Component) (hmem : component ∈ path.components) :
      ∃ name, component = .named name := by
    have hcomponent := List.all_eq_true.1 hplain component hmem
    cases component with
    | named name => exact ⟨name, rfl⟩
    | _ => cases hcomponent
  have hlead : path.split.1.component? = none := by
    rw [lead_of_isPlain hplain]
    rfl
  rw [components_eq, hlead] at hnamed ⊢
  rw [names, List.map_map]
  refine List.map_congr_left fun piece hpiece => ?_
  obtain ⟨name, hname⟩ := hnamed (stepOf piece) (List.mem_map_of_mem hpiece)
  unfold stepOf at hname ⊢
  split
  · rename_i hup
    rw [if_pos hup] at hname
    cases hname
  · rfl

/-- A plain path is relative. -/
theorem isAbsolute_of_isPlain (hplain : path.isPlain = true) : path.isAbsolute = false := by
  rw [Bool.eq_false_iff, ne_eq, ← top_mem_components_iff, components_of_isPlain hplain, List.mem_map]
  rintro ⟨name, -, hname⟩
  cases hname

/-- Plain paths with the same names are the same. -/
theorem same_of_names (hplain : path.isPlain = true) (hother : other.isPlain = true)
    (hnames : path.names = other.names) : path.same other = true := by
  rw [same, beq_iff_eq, components_of_isPlain hplain, components_of_isPlain hother, hnames]

/-- A plain path does not start with a step into the directory itself. -/
theorem not_isPrefix_of_isPlain (hplain : path.isPlain = true) :
    ¬ ['.', '/'] <+: path.text.toList := by
  rintro ⟨rest, htext⟩
  have hlead := lead_of_isPlain hplain
  have hpieces : path.pieces = ['.'] :: Text.splitOn '/' rest := by
    rw [pieces, ← htext]
    exact Text.splitOn_append_cons '/' ['.'] rest
  rw [split, hpieces] at hlead
  cases hlead

/-- The components of one plain path begin those of another one if its names begin the other names. -/
theorem components_isPrefix (hplain : path.isPlain = true) (hother : other.isPlain = true)
    (hnames : path.names <+: other.names) : path.components <+: other.components := by
  rw [components_of_isPlain hplain, components_of_isPlain hother]
  exact hnames.map _

/-- What is added to a path changes no more than its last name. -/
theorem dropLast_names_extend (path : Pathname) {ending : String} (habsent : '/' ∉ ending.toList)
    (hlength : 3 ≤ ending.toList.length) : (path.extend ending).names.dropLast <+: path.names := by
  obtain ⟨before, last, hpieces, hextended⟩ := Text.splitOn_append path.text.toList habsent
  have hsolid : isIdle (last ++ ending.toList) = false := by
    match hends : last ++ ending.toList with
    | [] | [_] =>
      have := congrArg List.length hends
      simp only [List.length_append, List.length_cons, List.length_nil] at this
      omega
    | first :: second :: rest => simp [isIdle]
  rw [names, names, solid, solid, pieces, pieces, extend, String.toList_append, hextended, hpieces,
    solidOf_append, solidOf_append, List.map_append, List.map_append]
  have hlast : solidOf [last ++ ending.toList] = [last ++ ending.toList] := by
    simp [solidOf, hsolid]
  rw [hlast, List.map_singleton, List.dropLast_concat]
  exact List.prefix_append _ _

end Pathname

namespace FileTree

open Pathname

/-- Idle pieces lead nowhere. -/
theorem foldl_turnFrom_solidOf (place : Location) (pieces : List (List Char)) :
    (solidOf pieces).foldl turnFrom place = pieces.foldl turnFrom place := by
  induction pieces generalizing place with
  | nil => rfl
  | cons piece rest ih =>
    rw [solidOf, List.filter_cons]
    by_cases hidle : isIdle piece
    · have hstay : turnFrom place piece = place := by simp [turnFrom, turnOf, hidle]
      rw [hidle, Bool.not_true, if_neg Bool.false_ne_true, List.foldl_cons, hstay]
      exact ih place
    · rw [Bool.eq_false_iff.2 hidle, Bool.not_false, if_pos rfl, List.foldl_cons, List.foldl_cons]
      exact ih _

/-- Where a path leads is decided by its start and its solid pieces. -/
theorem placeOf_eq (home : Location) (path : Pathname) :
    placeOf home path = path.solid.foldl turnFrom (if path.isAbsolute then [] else home) := by
  rw [placeOf, solid, foldl_turnFrom_solidOf]

/-- Paths with the same components lead to the same place. -/
theorem placeOf_of_same {first second : Pathname} (hsame : first.same second = true)
    (home : Location) : placeOf home first = placeOf home second := by
  obtain ⟨hstart, hsolid⟩ := isAbsolute_and_solid_of_same hsame
  rw [placeOf_eq, placeOf_eq, hstart, hsolid]

/-- Continuations with the same components lead to the same place. -/
theorem placeOf_join_of_same (base : Pathname) {first second : Pathname}
    (hsame : first.same second = true) (home : Location) :
    placeOf home (base.join first) = placeOf home (base.join second) := by
  obtain ⟨hstart, hsolid⟩ := isAbsolute_and_solid_of_same hsame
  cases hfirst : first.isAbsolute with
  | true =>
    rw [join, if_pos hfirst, join, if_pos (hstart ▸ hfirst)]
    exact placeOf_of_same hsame home
  | false =>
    have hsecond : second.isAbsolute = false := hstart ▸ hfirst
    rw [placeOf_eq, placeOf_eq, solid_join base hfirst, solid_join base hsecond, hsolid,
      isAbsolute_join base hfirst, isAbsolute_join base hsecond]

/-- None of some pieces goes up. -/
def Descends (pieces : List (List Char)) : Prop :=
  ∀ piece ∈ pieces, turnOf piece ≠ .up

theorem Descends.solidOf {pieces : List (List Char)} (hdescends : Descends pieces) :
    Descends (solidOf pieces) :=
  fun piece hpiece => hdescends piece (List.mem_filter.1 hpiece).1

/-- A piece that does not go up stays if it is idle, and otherwise goes down to its name. -/
theorem turnOf_of_ne_up {piece : List Char} (hpiece : turnOf piece ≠ .up) :
    turnOf piece = if isIdle piece then .stay else .down (String.ofList piece) := by
  unfold turnOf at hpiece ⊢
  split
  · rfl
  · rename_i hidle
    rw [if_neg hidle] at hpiece
    split
    · rename_i hup
      rw [if_pos hup] at hpiece
      exact absurd rfl hpiece
    · rfl

/-- The pieces of a plain path do not go up. -/
theorem descends_of_isPlain {path : Pathname} (hplain : path.isPlain = true) :
    Descends path.pieces := by
  intro piece hpiece hup
  unfold turnOf at hup
  split at hup
  · cases hup
  rename_i hidle
  split at hup
  · rename_i hdots
    have hmem : Component.up ∈ path.components := by
      rw [components_eq, List.mem_append, List.mem_map]
      refine .inr ⟨piece, List.mem_filter.2 ⟨hpiece, by simpa using hidle⟩, ?_⟩
      rw [stepOf, if_pos (beq_iff_eq.1 hdots)]
    rw [components_of_isPlain hplain, List.mem_map] at hmem
    obtain ⟨name, -, hname⟩ := hmem
    cases hname
  · cases hup

/-- Pieces that do not go up lead down their names. -/
theorem foldl_turnFrom_of_descends {pieces : List (List Char)} (hdescends : Descends pieces)
    (place : Location) :
    pieces.foldl turnFrom place = place ++ (solidOf pieces).map String.ofList := by
  induction pieces generalizing place with
  | nil => exact (List.append_nil place).symm
  | cons piece rest ih =>
    have hturn := turnOf_of_ne_up (hdescends piece (by simp))
    rw [List.foldl_cons, ih fun other hother => hdescends other (by simp [hother]), turnFrom, hturn]
    cases hidle : isIdle piece <;> simp [solidOf, hidle]

/-- A relative path that does not go up leads down its names from the place of the path that it
continues. -/
theorem placeOf_join_of_descends (home : Location) (base : Pathname) {path : Pathname}
    (hrelative : path.isAbsolute = false) (hdescends : Descends path.pieces) :
    placeOf home (base.join path) = placeOf home base ++ path.names := by
  have hsolid : Descends path.solid := fun piece hpiece =>
    hdescends piece (List.mem_filter.1 hpiece).1
  rw [placeOf_eq, solid_join base hrelative, isAbsolute_join base hrelative, List.foldl_append,
    ← placeOf_eq, foldl_turnFrom_of_descends hsolid]
  congr 2
  exact List.filter_filter.trans (by simp [Pathname.solid, solidOf])

/-- A plain path leads down its names from the place of the path that it continues. -/
theorem placeOf_join (home : Location) (base : Pathname) {path : Pathname}
    (hplain : path.isPlain = true) :
    placeOf home (base.join path) = placeOf home base ++ path.names :=
  placeOf_join_of_descends home base (isAbsolute_of_isPlain hplain) (descends_of_isPlain hplain)

/-- From the top, a relative path that does not go up leads down its names. -/
theorem placeOf_nil_of_descends {path : Pathname} (hrelative : path.isAbsolute = false)
    (hdescends : Descends path.pieces) : placeOf [] path = path.names := by
  rw [placeOf, hrelative, if_neg Bool.false_ne_true, foldl_turnFrom_of_descends hdescends]
  rfl

/-- A path that does not go up does not go up with something added to it. -/
theorem Descends.extend {path : Pathname} (hdescends : Descends path.pieces) (ending : String)
    (habsent : '/' ∉ ending.toList) (hlength : 3 ≤ ending.toList.length) :
    Descends (path.extend ending).pieces := by
  obtain ⟨before, last, hpieces, hextended⟩ := Text.splitOn_append path.text.toList habsent
  intro piece hpiece hup
  rw [pieces, Pathname.extend, String.toList_append, hextended] at hpiece
  rcases List.mem_append.1 hpiece with hbefore | hlast
  · refine hdescends piece ?_ hup
    rw [pieces, hpieces]
    exact List.mem_append_left _ hbefore
  · rw [List.mem_singleton.1 hlast, turnOf_of_length (by rw [List.length_append]; omega)] at hup
    cases hup

/-- A path with something added to it leads somewhere else. -/
theorem placeOf_extend_ne (home : Location) (path : Pathname) (ending : String)
    (habsent : '/' ∉ ending.toList) (hlength : 3 ≤ ending.toList.length) :
    placeOf home (path.extend ending) ≠ placeOf home path := by
  obtain ⟨before, last, hpieces, hextended⟩ := Text.splitOn_append path.text.toList habsent
  have hstart := isAbsolute_extend path fun h => habsent (List.mem_of_head? h)
  have hturn : turnOf (last ++ ending.toList) = .down (String.ofList (last ++ ending.toList)) :=
    turnOf_of_length (by rw [List.length_append]; omega)
  rw [placeOf, placeOf, hstart, Pathname.pieces, Pathname.pieces, Pathname.extend,
    String.toList_append, hextended, hpieces, List.foldl_append, List.foldl_append]
  generalize before.foldl turnFrom (if path.isAbsolute then [] else home) = place
  simp only [List.foldl_cons, List.foldl_nil, turnFrom, hturn]
  intro hsame
  -- Only a name can lead to a place below, and the names differ.
  unfold turnOf at hsame
  split_ifs at hsame
  · have := congrArg List.length hsame
    simp at this
  · have := congrArg List.length hsame
    simp at this
    omega
  · obtain ⟨-, hnames⟩ := List.append_inj' hsame rfl
    have hchars := congrArg String.toList (List.singleton_inj.1 hnames)
    rw [String.toList_ofList, String.toList_ofList] at hchars
    have := congrArg List.length hchars
    simp only [List.length_append] at this
    omega

end FileTree

end UxmlBindings.Files
