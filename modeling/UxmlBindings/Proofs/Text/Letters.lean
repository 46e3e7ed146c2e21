import Mathlib.Data.List.Chain
import UxmlBindings.Text.Alphabetic
import UxmlBindings.Text.LetterCase

/-!
# Case mappings and letters

Where the case mappings of Unicode lead. Runs of the tables lead to letters only, and so does the
upper case of a character with several images start; but among several images there may be marks,
which are no letters. Characters that are no letters have no upper case, and no upper case starts
with a small letter of the Latin alphabet.
-/

namespace UxmlBindings.Text

/-! ## Ranges of letters -/

/-- In ascending ranges the look-up finds every code point that one of them holds. -/
theorem CodeRanges.containsCode_iff {ranges : CodeRanges}
    (hascending : ranges.Pairwise fun range later => range.1 ≤ later.1) {code : Nat} :
    ranges.containsCode code = true ↔ ∃ range ∈ ranges, range.1 ≤ code ∧ code ≤ range.2 := by
  induction ranges with
  | nil => simp [CodeRanges.containsCode]
  | cons range rest ih =>
    obtain ⟨low, high⟩ := range
    obtain ⟨hlow, hrest⟩ := List.pairwise_cons.1 hascending
    simp only [CodeRanges.containsCode, Bool.and_eq_true, Bool.or_eq_true, decide_eq_true_eq, ih hrest,
      List.exists_mem_cons_iff]
    refine ⟨fun ⟨hfirst, hfound⟩ => hfound.imp (fun hlast => ⟨hfirst, hlast⟩) id, ?_⟩
    rintro (⟨hfirst, hlast⟩ | ⟨later, hmem, hfirst, hlast⟩)
    · exact ⟨hfirst, .inl hlast⟩
    · exact ⟨(hlow later hmem).trans hfirst, .inr ⟨later, hmem, hfirst, hlast⟩⟩

/-- The code points from `first` to `last`, as the binary digits of a number. -/
def digitsBetween (first last : Nat) : Nat :=
  (1 <<< (last + 1 - first) - 1) <<< first

theorem testBit_digitsBetween {first last code : Nat} :
    (digitsBetween first last).testBit code = true ↔ first ≤ code ∧ code ≤ last := by
  rw [digitsBetween, Nat.testBit_shiftLeft, Nat.one_shiftLeft, Nat.testBit_two_pow_sub_one,
    Bool.and_eq_true, decide_eq_true_eq, decide_eq_true_eq]
  omega

/-- The code points of some ranges, as the binary digits of a number. -/
def CodeRanges.digits (ranges : CodeRanges) : Nat :=
  ranges.foldr (fun range digits => digitsBetween range.1 range.2 ||| digits) 0

/-- The digit at a code point tells whether a range holds it. -/
theorem CodeRanges.testBit_digits {ranges : CodeRanges} {code : Nat} :
    ranges.digits.testBit code = true ↔ ∃ range ∈ ranges, range.1 ≤ code ∧ code ≤ range.2 := by
  induction ranges with
  | nil => simp [CodeRanges.digits]
  | cons range rest ih =>
    rw [List.exists_mem_cons_iff, ← ih, ← testBit_digitsBetween, ← Bool.or_eq_true, ← Nat.testBit_or]
    rfl

/-- Whether the ranges hold all code points from `first` to `last`. This compares all of their digits
in one step, which the kernel does faster than it goes through the ranges. -/
def CodeRanges.covers (ranges : CodeRanges) (first last : Nat) : Bool :=
  Nat.beq (ranges.digits &&& digitsBetween first last) (digitsBetween first last)

/-- The ranges hold the code points between covered ones. -/
theorem CodeRanges.exists_of_covers {ranges : CodeRanges} {first last code : Nat}
    (hcovers : ranges.covers first last = true) (hfirst : first ≤ code) (hlast : code ≤ last) :
    ∃ range ∈ ranges, range.1 ≤ code ∧ code ≤ range.2 := by
  have hdigit := testBit_digitsBetween.2 ⟨hfirst, hlast⟩
  rw [← Nat.eq_of_beq_eq_true hcovers, Nat.testBit_and, Bool.and_eq_true] at hdigit
  exact CodeRanges.testBit_digits.1 hdigit.1

/-- The ranges of letters ascend and keep off the surrogates. -/
theorem alphabeticRanges_form :
    alphabeticRanges.IsChain (fun range later => range.1 ≤ later.1) ∧
      alphabeticRanges.all (fun range =>
        Nat.blt range.2 0xd800 || Nat.blt 0xdfff range.1 && Nat.blt range.2 0x110000) = true := by
  decide +kernel

/-- A code point is that of a letter if a range of letters holds it. -/
theorem containsCode_alphabeticRanges_iff {code : Nat} :
    alphabeticRanges.containsCode code = true ↔
      ∃ range ∈ alphabeticRanges, range.1 ≤ code ∧ code ≤ range.2 :=
  CodeRanges.containsCode_iff alphabeticRanges_form.1.pairwise

/-- The code points between covered ones are those of letters. -/
theorem containsCode_of_covers {first last code : Nat}
    (hcovers : alphabeticRanges.covers first last = true) (hfirst : first ≤ code)
    (hlast : code ≤ last) : alphabeticRanges.containsCode code = true :=
  containsCode_alphabeticRanges_iff.2 (CodeRanges.exists_of_covers hcovers hfirst hlast)

/-- The code points of letters all have characters. -/
theorem isValidChar_of_alphabetic {code : Nat}
    (hletter : alphabeticRanges.containsCode code = true) : code.isValidChar := by
  obtain ⟨range, hmem, hlow, hhigh⟩ := containsCode_alphabeticRanges_iff.1 hletter
  have hrange := List.all_eq_true.1 alphabeticRanges_form.2 range hmem
  simp only [Bool.or_eq_true, Bool.and_eq_true, Nat.blt_eq] at hrange
  rcases hrange with hbelow | ⟨habove, hend⟩
  · exact .inl (hhigh.trans_lt hbelow)
  · exact .inr ⟨habove.trans_le hlow, hhigh.trans_lt hend⟩

/-- The code point of a letter has a character. -/
theorem toNat_ofNat_of_alphabetic {code : Nat}
    (hletter : alphabeticRanges.containsCode code = true) : (Char.ofNat code).toNat = code := by
  rw [Char.ofNat, dif_pos (isValidChar_of_alphabetic hletter)]
  rfl

/-- The character at the code point of a letter is a letter. -/
theorem isAlphabetic_ofNat {code : Nat} (hletter : alphabeticRanges.containsCode code = true) :
    isAlphabetic (Char.ofNat code) = true := by
  rwa [isAlphabetic, CodeRanges.contains, toNat_ofNat_of_alphabetic hletter]

/-! ## Images -/

/-- A character is its own image, or is listed with its images, or is moved by a run. -/
theorem CaseTable.image_cases (table : CaseTable) (c : Char) :
    table.image c = [c] ∨
      (∃ codes, (c.toNat, codes) ∈ table.several ∧ table.image c = codes.map Char.ofNat) ∨
      ∃ run ∈ table.runs, run.moves c.toNat = true ∧
        table.image c = [Char.ofNat (c.toNat + run.shift).toNat] := by
  unfold CaseTable.image
  split
  · rename_i codes hlookup
    obtain ⟨before, after, hentries, -⟩ := List.lookup_eq_some_iff.1 hlookup
    exact .inr (.inl ⟨codes, by simp [hentries], rfl⟩)
  · split
    · rename_i run hfound
      have hmoves : run.moves c.toNat = true := by simpa using List.find?_some hfound
      exact .inr (.inr ⟨run, List.mem_of_find?_eq_some hfound, hmoves, rfl⟩)
    · exact .inl rfl

/-- The code points from the first to the last one of a run, in its steps. -/
def CaseRun.codes (run : CaseRun) : List Nat :=
  List.range' run.first ((run.last - run.first) / run.step + 1) run.step

/-- A run moves no other code points. -/
theorem CaseRun.mem_codes_of_moves {run : CaseRun} {code : Nat} (hmoves : run.moves code = true) :
    code ∈ run.codes := by
  simp only [CaseRun.moves, Bool.and_eq_true, decide_eq_true_eq, beq_iff_eq] at hmoves
  obtain ⟨⟨hfirst, hlast⟩, hstep⟩ := hmoves
  refine List.mem_range'.2 ⟨(code - run.first) / run.step, ?_, ?_⟩
  · exact Nat.lt_succ_of_le (Nat.div_le_div_right (Nat.sub_le_sub_right hlast _))
  · rw [Nat.mul_div_cancel' (Nat.dvd_of_mod_eq_zero hstep), Nat.add_sub_cancel' hfirst]

/-- Whether a run leads to letters only. Most runs lead to a stretch of letters; where there are other
characters between the images, these are looked up one by one. -/
def CaseRun.leadsToLetters (run : CaseRun) : Bool :=
  alphabeticRanges.covers (run.first + run.shift).toNat (run.last + run.shift).toNat ||
    run.codes.all fun code =>
      alphabeticRanges.covers (code + run.shift).toNat (code + run.shift).toNat

/-- The code points that a run moves lie between its ends. -/
theorem CaseRun.between_of_moves {run : CaseRun} {code : Nat} (hmoves : run.moves code = true) :
    run.first ≤ code ∧ code ≤ run.last := by
  simp only [CaseRun.moves, Bool.and_eq_true, decide_eq_true_eq] at hmoves
  exact hmoves.1

/-- What such a run moves becomes a letter. -/
theorem CaseRun.containsCode_of_moves {run : CaseRun} (hleads : run.leadsToLetters = true)
    {code : Nat} (hmoves : run.moves code = true) :
    alphabeticRanges.containsCode (code + run.shift).toNat = true := by
  rcases Bool.or_eq_true_iff.1 hleads with hcovers | hcodes
  · obtain ⟨hfirst, hlast⟩ := CaseRun.between_of_moves hmoves
    exact containsCode_of_covers hcovers (by omega) (by omega)
  · have hcode := List.all_eq_true.1 hcodes code (CaseRun.mem_codes_of_moves hmoves)
    exact containsCode_of_covers hcode le_rfl le_rfl

/-- Whether a run moves letters only, and none of them to a small letter of the Latin alphabet. -/
def CaseRun.capitalises (run : CaseRun) : Bool :=
  alphabeticRanges.covers run.first run.last &&
    decide (run.last + run.shift < 97 ∨ 122 < run.first + run.shift)

/-- Whether a letter has several images, of which the first is a letter, but no small one of the Latin
alphabet. -/
def startsWithCapital (entry : Nat × List Nat) : Bool :=
  alphabeticRanges.covers entry.1 entry.1 &&
    entry.2.head?.any fun code => alphabeticRanges.covers code code && !(Char.ofNat code).isLower

/-- The runs of both mappings lead to letters, and those of the upper-case mapping capitalise letters
as its other entries do. -/
theorem caseTables_form :
    lowercaseTable.runs.all CaseRun.leadsToLetters = true ∧
      uppercaseTable.runs.all CaseRun.leadsToLetters = true ∧
      uppercaseTable.runs.all CaseRun.capitalises = true ∧
      uppercaseTable.several.all startsWithCapital = true := by
  decide +kernel

/-! ## Lower case -/

/-- But for the dotted capital I, the lower case of a character is itself or one letter. -/
theorem lowercase_cases {c : Char} (hdotted : c ≠ 'İ') :
    lowercase c = [c] ∨ ∃ d, isAlphabetic d = true ∧ lowercase c = [d] := by
  rcases lowercaseTable.image_cases c with hsame | ⟨codes, hlisted, -⟩ | ⟨run, hrun, hmoves, himage⟩
  · exact .inl hsame
  · have hcode : c.toNat = ('İ').toNat := by
      simp [lowercaseTable] at hlisted
      exact hlisted.1
    exact absurd (Char.toNat_inj.1 hcode) hdotted
  · have hletter := CaseRun.containsCode_of_moves
      (List.all_eq_true.1 caseTables_form.1 run hrun) hmoves
    exact .inr ⟨_, isAlphabetic_ofNat hletter, himage⟩

/-! ## Upper case -/

/-- The small letters of the Latin alphabet by their code points. -/
theorem isLower_iff {c : Char} : c.isLower = true ↔ 97 ≤ c.toNat ∧ c.toNat ≤ 122 := by
  have hlower : c.isLower = (decide (c.val ≥ 'a'.val) && decide (c.val ≤ 'z'.val)) := rfl
  rw [hlower, Bool.and_eq_true, decide_eq_true_eq, decide_eq_true_eq]
  exact Iff.rfl

/-- The small letters of the Latin alphabet have an upper case of their own. -/
theorem uppercase_ne_of_isLower {c : Char} (hlower : c.isLower = true) : uppercase c ≠ [c] := by
  have halphabet : (List.range' 97 26).all (fun code =>
      !(uppercase (Char.ofNat code) == [Char.ofNat code])) = true := by
    decide +kernel
  have hmem : c.toNat ∈ List.range' 97 26 :=
    List.mem_range'_1.2 ⟨(isLower_iff.1 hlower).1, Nat.lt_succ_of_le (isLower_iff.1 hlower).2⟩
  have hmoved := List.all_eq_true.1 halphabet c.toNat hmem
  rw [Char.ofNat_toNat] at hmoved
  simpa using hmoved

/-- The upper case of a character is itself, or both are letters and the upper case does not start
with a small one of the Latin alphabet. -/
theorem uppercase_cases (c : Char) :
    uppercase c = [c] ∨ isAlphabetic c = true ∧ ∃ first rest, uppercase c = first :: rest ∧
      isAlphabetic first = true ∧ first.isLower = false := by
  rcases uppercaseTable.image_cases c with hsame | ⟨codes, hlisted, himage⟩ |
      ⟨run, hrun, hmoves, himage⟩
  · exact .inl hsame
  · have hentry := List.all_eq_true.1 caseTables_form.2.2.2 _ hlisted
    rw [startsWithCapital, Bool.and_eq_true] at hentry
    obtain ⟨code, hhead, hcode⟩ := (Option.any_eq_true _ _).1 hentry.2
    obtain ⟨rest, rfl⟩ := List.head?_eq_some_iff.1 hhead
    rw [Bool.and_eq_true, Bool.not_eq_true'] at hcode
    have hletter := containsCode_of_covers hcode.1 le_rfl le_rfl
    exact .inr ⟨containsCode_of_covers hentry.1 le_rfl le_rfl, _, _, himage,
      isAlphabetic_ofNat hletter, hcode.2⟩
  · obtain ⟨hfirst, hlast⟩ := CaseRun.between_of_moves hmoves
    have hletter := CaseRun.containsCode_of_moves
      (List.all_eq_true.1 caseTables_form.2.1 run hrun) hmoves
    have hcapitalises := List.all_eq_true.1 caseTables_form.2.2.1 run hrun
    rw [CaseRun.capitalises, Bool.and_eq_true, decide_eq_true_eq] at hcapitalises
    refine .inr ⟨containsCode_of_covers hcapitalises.1 hfirst hlast, _, [], himage,
      isAlphabetic_ofNat hletter, Bool.eq_false_iff.2 fun hlower => ?_⟩
    have hsmall := isLower_iff.1 hlower
    rw [toNat_ofNat_of_alphabetic hletter] at hsmall
    omega

/-- A character that is no letter has no upper case but itself. -/
theorem uppercase_of_not_isAlphabetic {c : Char} (hc : isAlphabetic c = false) :
    uppercase c = [c] := by
  rcases uppercase_cases c with hsame | ⟨hletter, -⟩
  · exact hsame
  · exact absurd hletter (Bool.eq_false_iff.1 hc)

/-- Upper case never starts with a small letter of the Latin alphabet, and that of a letter starts
with a letter. -/
theorem exists_uppercase_eq_cons (c : Char) :
    ∃ first rest, uppercase c = first :: rest ∧ first.isLower = false ∧
      (isAlphabetic c = true → isAlphabetic first = true) := by
  rcases uppercase_cases c with hsame | ⟨-, first, rest, hcapital, hletter, hsmall⟩
  · exact ⟨c, [], hsame, Bool.eq_false_iff.2 fun hlower => uppercase_ne_of_isLower hlower hsame, id⟩
  · exact ⟨first, rest, hcapital, hsmall, fun _ => hletter⟩

end UxmlBindings.Text
