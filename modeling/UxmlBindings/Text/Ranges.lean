/-!
# Sets of characters

A Unicode property is kept as the list of its ranges of code points, in ascending order.
-/

namespace UxmlBindings.Text

/-- Ranges of code points in ascending order, both ends included. -/
abbrev CodeRanges := List (Nat × Nat)

/-- Whether a code point lies in one of the ranges. -/
def CodeRanges.containsCode : CodeRanges → Nat → Bool
  | [], _ => false
  | (low, high) :: rest, code => low ≤ code && (code ≤ high || containsCode rest code)

/-- Whether a character lies in one of the ranges. -/
def CodeRanges.contains (ranges : CodeRanges) (c : Char) : Bool :=
  ranges.containsCode c.toNat

end UxmlBindings.Text
