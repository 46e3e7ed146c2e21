/-!
# White space

The Unicode property White_Space, and the removal of white space from both ends of a text. Markup
and settings documents have narrower ideas of blank space and define their own.
-/

namespace UxmlBindings.Text

/-- Characters with the property White_Space. -/
def isWhiteSpace (c : Char) : Bool :=
  let code := c.toNat
  (0x9 ≤ code && code ≤ 0xd) || code == 0x20 || code == 0x85 || code == 0xa0 || code == 0x1680 ||
    (0x2000 ≤ code && code ≤ 0x200a) || code == 0x2028 || code == 0x2029 || code == 0x202f ||
    code == 0x205f || code == 0x3000

/-- Drops the elements that satisfy the test from the end of a list. -/
def dropWhileEnd {α : Type} (test : α → Bool) (items : List α) : List α :=
  items.foldr (fun item kept => if kept.isEmpty && test item then [] else item :: kept) []

/-- A text without the white space at its ends. -/
def trim (text : List Char) : List Char :=
  dropWhileEnd isWhiteSpace (text.dropWhile isWhiteSpace)

/-- Elements that satisfy the test are dropped from the end, up to the last one that does not. -/
theorem dropWhileEnd_append {α : Type} {test : α → Bool} {kept dropped : List α}
    (hkept : ∀ item ∈ kept, test item = false) (hdropped : ∀ item ∈ dropped, test item = true) :
    dropWhileEnd test (kept ++ dropped) = kept := by
  have hnone : dropWhileEnd test dropped = [] := by
    clear hkept
    induction dropped with
    | nil => rfl
    | cons item rest ih =>
      have hrest := ih fun item h => hdropped item (List.mem_cons_of_mem _ h)
      rw [dropWhileEnd] at hrest ⊢
      rw [List.foldr_cons, hrest, hdropped item List.mem_cons_self]
      rfl
  induction kept with
  | nil => exact hnone
  | cons item rest ih =>
    have hrest := ih fun item h => hkept item (List.mem_cons_of_mem _ h)
    rw [dropWhileEnd] at hrest ⊢
    rw [List.cons_append, List.foldr_cons, hrest, hkept item List.mem_cons_self, Bool.and_false]
    rfl

end UxmlBindings.Text
