import UxmlBindings.Text.Split

/-!
# Lines of a text

A line ends at a line feed, and a carriage return directly before the line feed belongs to the
ending. The end of the text ends a line only if something stands there, so a final line feed opens
no further line.
-/

namespace UxmlBindings.Text

/-- A line without the carriage return of its ending. -/
def withoutReturn (line : List Char) : List Char :=
  if line.getLast? = some '\r' then line.dropLast else line

/-- The lines of a text, without their endings. -/
def lines (text : List Char) : List (List Char) :=
  let parts := splitOn '\n' text
  let ended := parts.dropLast.map withoutReturn
  match parts.getLast? with
  | none => ended
  | some last => if last.isEmpty then ended else ended ++ [last]

/-- What stands before the first line feed is the first line. -/
theorem lines_append_cons {line : List Char} (absent : '\n' ∉ line) (rest : List Char) :
    lines (line ++ '\n' :: rest) = withoutReturn line :: lines rest := by
  have pieces : splitOn '\n' (line ++ '\n' :: rest) = line :: splitOn '\n' rest := by
    rw [splitOn_append_cons, splitOn_of_notMem absent]
    rfl
  cases more : splitOn '\n' rest with
  | nil => exact absurd more (splitOn_ne_nil '\n' rest)
  | cons second others =>
    simp only [lines, pieces, more, List.dropLast_cons_cons, List.getLast?_cons_cons, List.map_cons]
    cases (second :: others).getLast? with
    | none => rfl
    | some last =>
      dsimp only
      split <;> rfl

end UxmlBindings.Text
