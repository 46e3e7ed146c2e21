/-!
# Splitting a text

A text is cut into pieces at every occurrence of a separator, or in two at the first occurrence of a
mark. Putting the pieces together again gives the text back.
-/

namespace UxmlBindings.Text

/-- The pieces of a text between the occurrences of a separator; there is always one. -/
def splitOn (separator : Char) : List Char → List (List Char)
  | [] => [[]]
  | c :: rest =>
    if c = separator then [] :: splitOn separator rest
    else
      match splitOn separator rest with
      | [] => [[c]]
      | piece :: more => (c :: piece) :: more

/-- What stands before the first occurrence of a mark, and what follows it. -/
def cutAt (mark : List Char) : List Char → Option (List Char × List Char)
  | [] => none
  | c :: rest =>
    if mark.isPrefixOf (c :: rest) then some ([], (c :: rest).drop mark.length)
    else (cutAt mark rest).map fun (before, after) => (c :: before, after)

/-- Splitting never yields nothing. -/
theorem splitOn_ne_nil (separator : Char) (text : List Char) : splitOn separator text ≠ [] := by
  cases text with
  | nil => simp [splitOn]
  | cons c rest =>
    simp only [splitOn]
    split
    · simp
    · split <;> simp

/-- No piece holds the separator. -/
theorem notMem_of_mem_splitOn {separator : Char} {text piece : List Char}
    (h : piece ∈ splitOn separator text) : separator ∉ piece := by
  induction text generalizing piece with
  | nil =>
    simp only [splitOn, List.mem_singleton] at h
    simp [h]
  | cons c rest ih =>
    simp only [splitOn] at h
    split at h
    · rcases List.mem_cons.1 h with rfl | h
      · simp
      · exact ih h
    · rename_i other
      split at h
      · rename_i none
        exact absurd none (splitOn_ne_nil separator rest)
      · rename_i first more pieces
        rcases List.mem_cons.1 h with rfl | h
        · have absent : separator ∉ first := ih (by simp [pieces])
          simp [absent, Ne.symm other]
        · exact ih (by simp [pieces, h])

/-- The pieces with the separator between them are the text. -/
theorem intercalate_splitOn (separator : Char) (text : List Char) :
    [separator].intercalate (splitOn separator text) = text := by
  induction text with
  | nil => simp [splitOn]
  | cons c rest ih =>
    simp only [splitOn]
    split
    · rename_i same
      cases pieces : splitOn separator rest with
      | nil => exact absurd pieces (splitOn_ne_nil separator rest)
      | cons piece more =>
        rw [pieces] at ih
        rw [List.intercalate_cons_cons, ih, same]
        rfl
    · split
      · rename_i none
        exact absurd none (splitOn_ne_nil separator rest)
      · rename_i piece more pieces
        rw [pieces] at ih
        cases more with
        | nil =>
          simp only [List.intercalate_singleton] at ih ⊢
          rw [ih]
        | cons second others =>
          rw [List.intercalate_cons_cons] at ih ⊢
          rw [← ih]
          rfl

/-- A text without separator is one piece. -/
theorem splitOn_of_notMem {separator : Char} {text : List Char} (habsent : separator ∉ text) :
    splitOn separator text = [text] := by
  induction text with
  | nil => rfl
  | cons c rest ih =>
    obtain ⟨hc, hrest⟩ := List.ne_and_not_mem_of_not_mem_cons habsent
    rw [splitOn, if_neg (Ne.symm hc), ih hrest]

/-- A separator divides the pieces before it from those after it. -/
theorem splitOn_append_cons (separator : Char) (before after : List Char) :
    splitOn separator (before ++ separator :: after) =
      splitOn separator before ++ splitOn separator after := by
  induction before with
  | nil => simp [splitOn]
  | cons c rest ih =>
    rw [List.cons_append, splitOn, splitOn, ih]
    by_cases hc : c = separator
    · rw [if_pos hc, if_pos hc, List.cons_append]
    · rw [if_neg hc, if_neg hc]
      cases hpieces : splitOn separator rest with
      | nil => exact absurd hpieces (splitOn_ne_nil separator rest)
      | cons piece more => rfl

/-- The last piece stands after the last separator. -/
theorem getLast?_splitOn_append_cons (separator : Char) (before after : List Char) :
    (splitOn separator (before ++ separator :: after)).getLast? =
      (splitOn separator after).getLast? := by
  rw [splitOn_append_cons, List.getLast?_append,
    List.getLast?_eq_some_getLast (splitOn_ne_nil separator after), Option.some_or]

/-- What is added at the end is added to the last piece. -/
theorem splitOn_append {separator : Char} (text : List Char) {ending : List Char}
    (habsent : separator ∉ ending) :
    ∃ pieces last, splitOn separator text = pieces ++ [last] ∧
      splitOn separator (text ++ ending) = pieces ++ [last ++ ending] := by
  induction text with
  | nil => exact ⟨[], [], rfl, splitOn_of_notMem habsent⟩
  | cons c rest ih =>
    obtain ⟨pieces, last, hbefore, hafter⟩ := ih
    rw [List.cons_append, splitOn, splitOn, hbefore, hafter]
    by_cases hc : c = separator
    · rw [if_pos hc, if_pos hc]
      exact ⟨[] :: pieces, last, rfl, rfl⟩
    · rw [if_neg hc, if_neg hc]
      cases pieces with
      | nil => exact ⟨[], c :: last, rfl, rfl⟩
      | cons piece more => exact ⟨(c :: piece) :: more, last, rfl, rfl⟩

/-- A cut text is its first part, the mark and its second part. -/
theorem eq_append_of_cutAt {mark text before after : List Char}
    (h : cutAt mark text = some (before, after)) : text = before ++ mark ++ after := by
  induction text generalizing before with
  | nil => simp [cutAt] at h
  | cons c rest ih =>
    simp only [cutAt] at h
    split at h
    · rename_i found
      obtain ⟨tail, eq⟩ := List.isPrefixOf_iff_prefix.1 found
      simp only [Option.some.injEq, Prod.mk.injEq] at h
      rw [← h.1, ← h.2, ← eq]
      simp
    · obtain ⟨parts, found, eq⟩ := Option.map_eq_some_iff.1 h
      simp only [Prod.mk.injEq] at eq
      have split : rest = parts.1 ++ mark ++ after := ih (by rw [found, ← eq.2])
      rw [← eq.1, split]
      simp

/-- A text that does not hold a character is not cut there. -/
theorem cutAt_singleton_of_notMem {c : Char} {text : List Char} (habsent : c ∉ text) :
    cutAt [c] text = none := by
  induction text with
  | nil => rfl
  | cons first rest ih =>
    obtain ⟨hfirst, hrest⟩ := List.ne_and_not_mem_of_not_mem_cons habsent
    rw [cutAt, if_neg (by simpa using hfirst), ih hrest]
    rfl

/-- A text is cut at the first occurrence of a character. -/
theorem cutAt_singleton_append {c : Char} {before : List Char} (habsent : c ∉ before)
    (after : List Char) : cutAt [c] (before ++ c :: after) = some (before, after) := by
  induction before with
  | nil => simp [cutAt]
  | cons first rest ih =>
    obtain ⟨hfirst, hrest⟩ := List.ne_and_not_mem_of_not_mem_cons habsent
    rw [List.cons_append, cutAt, if_neg (by simpa using hfirst), ih hrest]
    rfl

/-- The second part of a cut text is shorter than the text. -/
theorem length_lt_of_cutAt {mark text before after : List Char} (nonempty : mark ≠ [])
    (h : cutAt mark text = some (before, after)) : after.length < text.length := by
  have := List.length_pos_iff.2 nonempty
  rw [eq_append_of_cutAt h]
  simp only [List.length_append]
  omega

end UxmlBindings.Text
