/-!
# Layout of generated files

A file is laid out as a sequence of steps: a line of text, a blank line, the opening of a block and
its closing. Braces stand on lines of their own and every open block indents by four spaces. Closing
a block when none is open leaves the depth at zero.
-/

namespace UxmlBindings.Code

/-- One step of a layout. -/
inductive Step where
  | line (text : String)
  | blank
  | opening
  | closing
  deriving DecidableEq, Repr

/-- The depth after a step. -/
def Step.depthAfter : Step → Nat → Nat
  | .opening, depth => depth + 1
  | .closing, depth => depth - 1
  | _, depth => depth

/-- The indentation at a depth. -/
def indentation (depth : Nat) : String :=
  String.ofList (List.replicate (4 * depth) ' ')

/-- The line that a step writes at a depth. -/
def Step.text : Step → Nat → String
  | .line text, depth => indentation depth ++ text
  | .blank, _ => ""
  | .opening, depth => indentation depth ++ "\x7b"
  | .closing, depth => indentation (depth - 1) ++ "\x7d"

/-- The lines that the steps write from a depth on. -/
def layoutFrom : Nat → List Step → List String
  | _, [] => []
  | depth, step :: rest => step.text depth :: layoutFrom (step.depthAfter depth) rest

/-- The lines of a whole file. -/
def layout (steps : List Step) : List String :=
  layoutFrom 0 steps

/-- Lines as a text in which each is ended by a line feed. -/
def textOfLines (lines : List String) : String :=
  String.join (lines.map (· ++ "\n"))

/-- The text of a whole file. -/
def textOfSteps (steps : List Step) : String :=
  textOfLines (layout steps)

/-- The depth after a sequence of steps. -/
def depthAfter (depth : Nat) (steps : List Step) : Nat :=
  steps.foldl (fun depth step => step.depthAfter depth) depth

/-- A layout goes on at the depth where the steps before it have left off. -/
theorem layoutFrom_append (depth : Nat) (first second : List Step) :
    layoutFrom depth (first ++ second) =
      layoutFrom depth first ++ layoutFrom (depthAfter depth first) second := by
  induction first generalizing depth with
  | nil => rfl
  | cons step rest ih => simp [layoutFrom, depthAfter, ih]

/-- Every step writes one line. -/
@[simp] theorem length_layoutFrom (depth : Nat) (steps : List Step) :
    (layoutFrom depth steps).length = steps.length := by
  induction steps generalizing depth with
  | nil => rfl
  | cons step rest ih => simp [layoutFrom, ih]

end UxmlBindings.Code
