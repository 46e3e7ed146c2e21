import Mathlib.Data.List.Induction
import UxmlBindings.Files.FileTree

/-!
# Last names of paths

The last piece of a path gives the place of the path its last name. Joining a path to another one
keeps its last piece, and whatever is added to the text of a path is added to its last piece. So
what a text ends in decides what the name of the file ends in, as long as no slash is in it.
-/

namespace UxmlBindings.Files

open FileTree

namespace Pathname

/-- Joining keeps the last piece. -/
theorem getLast?_pieces_join (base next : Pathname) :
    (base.join next).pieces.getLast? = next.pieces.getLast? := by
  unfold join
  split
  · rfl
  split
  · rename_i hbase
    rw [pieces, String.toList_append]
    rcases Bool.or_eq_true_iff.1 hbase with hempty | hslash
    · rw [List.isEmpty_iff.1 hempty, List.nil_append, pieces]
    · obtain ⟨before, hbefore⟩ := List.getLast?_eq_some_iff.1 (beq_iff_eq.1 hslash)
      rw [hbefore, List.append_assoc, List.singleton_append, Text.getLast?_splitOn_append_cons,
        pieces]
  · rw [pieces, String.toList_append, String.toList_append, List.append_assoc]
    exact Text.getLast?_splitOn_append_cons '/' base.text.toList next.text.toList

/-- A path that is a name is its last piece. -/
theorem getLast?_pieces_of_notMem {path : Pathname} (habsent : '/' ∉ path.text.toList) :
    path.pieces.getLast? = some path.text.toList := by
  rw [pieces, Text.splitOn_of_notMem habsent]
  rfl

/-- A text without slashes that a path ends in is at the end of the last piece. -/
theorem getLast?_pieces_of_suffix {path : Pathname} {ending : List Char} (habsent : '/' ∉ ending)
    (hending : ending <:+ path.text.toList) :
    ∃ before, path.pieces.getLast? = some (before ++ ending) := by
  obtain ⟨text, htext⟩ := hending
  obtain ⟨before, last, -, hpieces⟩ := Text.splitOn_append text habsent
  refine ⟨last, ?_⟩
  rw [pieces, ← htext, hpieces]
  exact List.getLast?_concat

/-- What a path ends in, the path joined to another one ends in. -/
theorem suffix_join {base next : Pathname} {ending : List Char}
    (hending : ending <:+ next.text.toList) : ending <:+ (base.join next).text.toList := by
  unfold join
  split
  · exact hending
  split
  · rw [String.toList_append]
    exact hending.trans (List.suffix_append _ _)
  · rw [String.toList_append]
    exact hending.trans (List.suffix_append _ _)

/-- The name that a path ends in is the last component of its pieces. -/
theorem getLast?_of_lastName? {path : Pathname} {name : String}
    (hname : path.lastName? = some name) :
    (path.pieces.filterMap component?).getLast? = some (.named name) := by
  have hlead (lead : Component) (body : List Component) (hne : lead ≠ .named name)
      (hlast : (lead :: body).getLast? = some (.named name)) : body.getLast? = some (.named name) := by
    cases body with
    | nil => exact absurd (Option.some.inj hlast) hne
    | cons first rest => exact hlast
  have hlast : path.components.getLast? = some (.named name) := by
    unfold lastName? at hname
    split at hname
    · rename_i last hlast
      rw [hlast, Option.some.inj hname]
    · cases hname
  unfold components split at hlast
  cases hpieces : path.pieces with
  | nil => simp [hpieces, Lead.component?] at hlast
  | cons first rest =>
    simp only [hpieces] at hlast
    by_cases htop : (first.isEmpty && !rest.isEmpty) = true
    · rw [if_pos htop] at hlast
      have hfirst : first = [] := by simp_all
      rw [hfirst, List.filterMap_cons]
      exact hlead .top _ (by simp) hlast
    · rw [if_neg htop] at hlast
      by_cases hhere : (first == ['.']) = true
      · rw [if_pos hhere] at hlast
        rw [beq_iff_eq.1 hhere, List.filterMap_cons]
        exact hlead .here _ (by simp) hlast
      · rw [if_neg hhere] at hlast
        exact hlast

end Pathname

namespace FileTree

/-- A piece with three or more characters is a name. -/
theorem turnOf_of_length {piece : List Char} (hlength : 3 ≤ piece.length) :
    turnOf piece = .down (String.ofList piece) := by
  match piece, hlength with
  | first :: second :: third :: rest, _ => simp [turnOf, Pathname.isIdle]

/-- The last piece of a path that ends in three or more characters of a name is a name. -/
theorem exists_last_of_suffix {path : Pathname} {ending : List Char} (habsent : '/' ∉ ending)
    (hlength : 3 ≤ ending.length) (hending : ending <:+ path.text.toList) :
    ∃ init last, path.pieces = init ++ [last] ∧ Pathname.isIdle last = false := by
  obtain ⟨before, hlast⟩ := Pathname.getLast?_pieces_of_suffix habsent hending
  obtain ⟨init, hpieces⟩ := List.getLast?_eq_some_iff.1 hlast
  refine ⟨init, before ++ ending, hpieces, ?_⟩
  have hturn : turnOf (before ++ ending) = .down (String.ofList (before ++ ending)) :=
    turnOf_of_length (by rw [List.length_append]; omega)
  rw [Bool.eq_false_iff]
  intro hidle
  rw [turnOf, if_pos hidle] at hturn
  cases hturn

/-- The last piece of a path gives its place the last name. -/
theorem getLast?_placeOf {home : Location} {path : Pathname} {piece : List Char} {name : String}
    (hpiece : path.pieces.getLast? = some piece) (hturn : turnOf piece = .down name) :
    (placeOf home path).getLast? = some name := by
  obtain ⟨before, hpieces⟩ := List.getLast?_eq_some_iff.1 hpiece
  rw [placeOf, hpieces, List.foldl_append, List.foldl_cons, List.foldl_nil, turnFrom, hturn]
  exact List.getLast?_concat

/-- The name of a file ends in what the text of its path ends in. -/
theorem getLast?_placeOf_of_suffix (home : Location) {path : Pathname} {ending : List Char}
    (habsent : '/' ∉ ending) (hlength : 3 ≤ ending.length) (hending : ending <:+ path.text.toList) :
    ∃ name, (placeOf home path).getLast? = some name ∧ ending <:+ name.toList := by
  obtain ⟨before, hpiece⟩ := Pathname.getLast?_pieces_of_suffix habsent hending
  have hpieceLength : 3 ≤ (before ++ ending).length := by
    rw [List.length_append]
    omega
  have hturn := turnOf_of_length hpieceLength
  refine ⟨_, getLast?_placeOf hpiece hturn, ?_⟩
  rw [String.toList_ofList]
  exact List.suffix_append _ _

/-- Where the last component of some pieces is a name, it is the last name of where they lead. -/
theorem getLast?_foldl_turnFrom {place : Location} {pieces : List (List Char)} {name : String}
    (hlast : (pieces.filterMap Pathname.component?).getLast? = some (.named name)) :
    (pieces.foldl turnFrom place).getLast? = some name := by
  induction pieces using List.reverseRecOn with
  | nil => simp at hlast
  | append_singleton pieces piece ih =>
    rw [List.foldl_append, List.foldl_cons, List.foldl_nil, turnFrom, turnOf]
    rw [List.filterMap_append, List.filterMap_cons, List.filterMap_nil, Pathname.component?] at hlast
    by_cases hidle : Pathname.isIdle piece
    · simp only [hidle, if_true, List.append_nil] at hlast ⊢
      exact ih hlast
    · by_cases hup : piece == ['.', '.']
      · simp [hidle, hup] at hlast
      · simp only [hidle, hup, if_false, Bool.false_eq_true] at hlast ⊢
        simp only [List.getLast?_concat, Option.some.injEq, Component.named.injEq] at hlast
        rw [hlast]
        exact List.getLast?_concat

/-- The name that a path ends in is the last name of its place. -/
theorem getLast?_placeOf_of_lastName? {home : Location} {path : Pathname} {name : String}
    (hname : path.lastName? = some name) : (placeOf home path).getLast? = some name :=
  getLast?_foldl_turnFrom (Pathname.getLast?_of_lastName? hname)

end FileTree

end UxmlBindings.Files
