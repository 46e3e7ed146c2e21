import UxmlBindings.Files.FileTree
import UxmlBindings.Markup.Event

/-!
# Documents

The events of a document build its tree. An element stays open from its opening tag to its closing
tag and receives the elements completed in between as its children; a completed element outside
every other is the root, and there can be only one. Reading fails with the cause that comes first in
the text.
-/

namespace UxmlBindings.Markup

/-- The part of a tree that is known after some events: the open elements, innermost first, with
their children so far, and the root if it is complete. -/
structure Growth where
  openElements : List Element := []
  root : Option Element := none

namespace Growth

/-- Puts a completed element in its place. -/
def place (growth : Growth) (node : Element) : Except DocumentError Growth :=
  match growth.openElements, growth.root with
  | parent :: outer, _ =>
    .ok { growth with
      openElements := { parent with children := parent.children ++ [node] } :: outer }
  | [], none => .ok { growth with root := some node }
  | [], some _ => .error (.structure .severalRoots)

/-- The growth after one more event. A second root is refused before its attributes are read if it
has an opening tag, and after that if it closes itself. -/
def next (growth : Growth) : Event → Except DocumentError Growth
  | .opening tag =>
    if growth.openElements.isEmpty && growth.root.isSome then
      .error (.structure .severalRoots)
    else do
      let node ← tag.element
      return { growth with openElements := node :: growth.openElements }
  | .selfClosing tag => do
    let node ← tag.element
    growth.place node
  | .closing _ =>
    match growth.openElements with
    | [] => .error (.structure .closingWithoutOpening)
    | node :: outer => { growth with openElements := outer }.place node
  | .other => .ok growth

/-- The growth after a sequence of events. -/
def after (growth : Growth) : List Event → Except DocumentError Growth
  | [] => .ok growth
  | event :: rest => growth.next event >>= fun growth => growth.after rest

/-- The tree when no event is left. -/
def finish (growth : Growth) : Except DocumentError Element :=
  match growth.openElements, growth.root with
  | innermost :: _, _ => .error (.unclosedElement innermost.writtenTag)
  | [], some root => .ok root
  | [], none => .error (.structure .noRoot)

end Growth

/-- The tree that a sequence of events describes. -/
def Element.ofEvents (events : List Event) : Except DocumentError Element :=
  ({} : Growth).after events >>= Growth.finish

/-- Reads a document. A fault of the markup counts only if the events before it were fine. -/
def Element.parse (text : String) : Except DocumentError Element := do
  let (events, fault) := Event.read text.toList
  let growth ← ({} : Growth).after events
  match fault with
  | some fault => .error (.markup fault)
  | none => growth.finish

/-- Reads the document in a file. -/
def Element.ofFile (tree : Files.FileTree) (path : Files.Pathname) : Except DocumentError Element :=
  match tree.readText path with
  | .error fault => .error (.unreadable fault)
  | .ok text => Element.parse text

/-- A text without faults of the markup is read as its events describe. -/
theorem Element.parse_eq_ofEvents {text : String} {events : List Event}
    (h : Event.read text.toList = (events, none)) : Element.parse text = Element.ofEvents events := by
  simp [Element.parse, Element.ofEvents, h]

end UxmlBindings.Markup
