import Mathlib.Data.List.Forall2
import UxmlBindings.Proofs.Code.Levels
import UxmlBindings.Proofs.Code.LineTexts

/-!
# Indentation of generated files

Who reads a file sees its lines and not the steps that they come from. The braces on lines of their own
tell how many blocks are open before a line, and the line is indented by four spaces for each of them.
This needs names that cannot pass for an indentation or end a line; the header and the values of string
literals may hold anything.
-/

namespace UxmlBindings.Code

/-! ## Reading lines -/

/-- The number of spaces that a line begins with. -/
def leadingSpaces (line : String) : Nat :=
  (line.toList.takeWhile (· == ' ')).length

/-- What follows the indentation of a line. -/
def unindented (line : String) : List Char :=
  line.toList.dropWhile (· == ' ')

/-- Whether a line consists of an indentation and an opening brace. -/
def opensBlock (line : String) : Bool :=
  unindented line == ['\x7b']

/-- Whether a line consists of an indentation and a closing brace. -/
def closesBlock (line : String) : Bool :=
  unindented line == ['\x7d']

/-- How many blocks the lines open, less those they close. -/
def openBlocks (lines : List String) : Int :=
  lines.countP opensBlock - lines.countP closesBlock

theorem openBlocks_cons (line : String) (rest : List String) :
    openBlocks (line :: rest) =
      (if opensBlock line then 1 else 0) - (if closesBlock line then 1 else 0) + openBlocks rest := by
  simp only [openBlocks, List.countP_cons]
  split <;> split <;> omega

theorem BeginsLine.begins {text : String} (h : BeginsLine text) : Begins text := by
  obtain ⟨c, d, rest, hchars, hc⟩ := h
  exact ⟨c, d :: rest, hchars, hc⟩

/-- The indentation of a text that begins with no space is all of the spaces before it. -/
theorem leadingSpaces_indentation (depth : Nat) {text : String} (htext : Begins text) :
    leadingSpaces (indentation depth ++ text) = 4 * depth := by
  obtain ⟨c, rest, hchars, hc⟩ := htext
  have hspaces : ∀ d ∈ List.replicate (4 * depth) ' ', (d == ' ') = true := by simp
  rw [leadingSpaces, indentation, String.toList_append, String.toList_ofList, hchars,
    List.takeWhile_append_of_pos hspaces, List.takeWhile_cons_of_neg (by simpa using hc)]
  simp

theorem unindented_indentation (depth : Nat) {text : String} (htext : Begins text) :
    unindented (indentation depth ++ text) = text.toList := by
  obtain ⟨c, rest, hchars, hc⟩ := htext
  have hspaces : ∀ d ∈ List.replicate (4 * depth) ' ', (d == ' ') = true := by simp
  rw [unindented, indentation, String.toList_append, String.toList_ofList, hchars,
    List.dropWhile_append_of_pos hspaces, List.dropWhile_cons_of_neg (by simpa using hc)]

/-! ## Lines of steps -/

namespace Step

/-- What a step writes after the indentation. -/
def content : Step → String
  | .line text => text
  | .blank => ""
  | .opening => "\x7b"
  | .closing => "\x7d"

/-- A step that writes a line which is neither blank nor a brace, if it writes a line of text. -/
def LineBegins : Step → Prop
  | .line text => BeginsLine text
  | _ => True

section

variable {step : Step} (hstep : step.LineBegins) (depth : Nat)
include hstep

/-- A line of a step that is not blank begins with what the step writes. -/
theorem begins_content (hblank : step ≠ .blank) : Begins step.content := by
  cases step with
  | line text => exact BeginsLine.begins hstep
  | blank => exact absurd rfl hblank
  | opening => exact begins_of_head rfl (by decide)
  | closing => exact begins_of_head rfl (by decide)

theorem unindented_text : unindented (step.text depth) = step.content.toList := by
  by_cases hblank : step = .blank
  · rw [hblank]
    rfl
  · have hcontent := begins_content hstep hblank
    cases step with
    | line text => exact unindented_indentation depth hcontent
    | blank => exact absurd rfl hblank
    | opening => exact unindented_indentation depth hcontent
    | closing => exact unindented_indentation (depth - 1) hcontent

/-- Only an opening step writes a line that opens a block. -/
theorem opensBlock_text : opensBlock (step.text depth) = (step == .opening) := by
  rw [opensBlock, unindented_text hstep]
  cases step with
  | line text =>
    obtain ⟨c, d, rest, hchars, -⟩ := hstep
    simp [content, hchars]
  | _ => rfl

/-- Only a closing step writes a line that closes a block. -/
theorem closesBlock_text : closesBlock (step.text depth) = (step == .closing) := by
  rw [closesBlock, unindented_text hstep]
  cases step with
  | line text =>
    obtain ⟨c, d, rest, hchars, -⟩ := hstep
    simp [content, hchars]
  | _ => rfl

/-- Only a blank step writes a blank line. -/
theorem eq_blank_of_text (hempty : step.text depth = "") : step = .blank := by
  by_contra hblank
  have hcontent := unindented_text hstep depth
  rw [hempty] at hcontent
  exact (begins_content hstep hblank).ne_nil hcontent.symm

/-- A line has four spaces for each open block; a closing brace belongs outside of its block. -/
theorem leadingSpaces_text (hblank : step ≠ .blank) :
    leadingSpaces (step.text depth) = 4 * (if step = .closing then depth - 1 else depth) := by
  have hcontent := begins_content hstep hblank
  cases step with
  | line text => exact leadingSpaces_indentation depth hcontent
  | blank => exact absurd rfl hblank
  | opening => exact leadingSpaces_indentation depth hcontent
  | closing => exact leadingSpaces_indentation (depth - 1) hcontent

end

end Step

/-- What is read from the lines of steps is how many blocks they open. -/
theorem openBlocks_layoutFrom {steps : List Step} (hbegins : ∀ step ∈ steps, step.LineBegins)
    (depth : Nat) :
    openBlocks (layoutFrom depth steps) = height steps := by
  induction steps generalizing depth with
  | nil => rfl
  | cons step rest ih =>
    obtain ⟨hstep, hrest⟩ := List.forall_mem_cons.1 hbegins
    rw [layoutFrom, openBlocks_cons, Step.opensBlock_text hstep, Step.closesBlock_text hstep, height,
      ih hrest]
    cases step <;> rfl

/-- Lines of a layout that are cut in two come from steps that are cut in two. -/
theorem exists_of_layoutFrom_eq_append {depth : Nat} {steps : List Step} {before after : List String}
    (h : layoutFrom depth steps = before ++ after) :
    ∃ first second, steps = first ++ second ∧ layoutFrom depth first = before ∧
      layoutFrom (depthAfter depth first) second = after := by
  have hsplit := layoutFrom_append depth (steps.take before.length) (steps.drop before.length)
  rw [List.take_append_drop, h] at hsplit
  have hlength : before.length = (layoutFrom depth (steps.take before.length)).length := by
    have := congrArg List.length h
    rw [length_layoutFrom, List.length_append] at this
    rw [length_layoutFrom, List.length_take]
    omega
  obtain ⟨hbefore, hafter⟩ := List.append_inj hsplit hlength
  exact ⟨_, _, (List.take_append_drop before.length steps).symm, hbefore.symm, hafter.symm⟩

/-! ## Names that fit on a line -/

/-- Whether a name is not empty, holds no line feed and does not begin with a space. -/
def fitsLine (name : String) : Bool :=
  !name.isEmpty && !name.toList.contains '\n' && name.toList.head? != some ' '

theorem begins_of_fitsLine {name : String} (hname : fitsLine name = true) : Begins name := by
  simp only [fitsLine, Bool.and_eq_true] at hname
  cases hchars : name.toList with
  | nil =>
    rw [String.toList_eq_nil_iff.1 hchars] at hname
    cases hname.1.1
  | cons c rest => exact ⟨c, rest, hchars, by simpa [hchars] using hname.2⟩

theorem lineFeed_notMem_of_fitsLine {name : String} (hname : fitsLine name = true) :
    '\n' ∉ name.toList := by
  simp only [fitsLine, Bool.and_eq_true] at hname
  simpa using hname.1.2

/-! ## Members and classes -/

/-- The lines of a member at a depth: there are some, and none of them is blank. -/
structure Member.HasLines (className : String) (depth : Nat) (member : Member)
    (lines : List String) : Prop where
  laidOut : lines = layoutFrom depth (member.steps className)
  nonempty : lines ≠ []
  noBlank : "" ∉ lines

/-- The lines of members: none stands between two fields, and one blank line between two other
members. -/
inductive MembersHaveLines (className : String) (depth : Nat) : List Member → List String → Prop where
  | nil : MembersHaveLines className depth [] []
  | single {member : Member} {lines : List String} (hlines : member.HasLines className depth lines) :
      MembersHaveLines className depth [member] lines
  | together {first second : Member} {rest : List Member} {lines more : List String}
      (hlines : first.HasLines className depth lines)
      (hfields : first.isField = true ∧ second.isField = true)
      (hmore : MembersHaveLines className depth (second :: rest) more) :
      MembersHaveLines className depth (first :: second :: rest) (lines ++ more)
  | apart {first second : Member} {rest : List Member} {lines more : List String}
      (hlines : first.HasLines className depth lines)
      (hfields : ¬(first.isField = true ∧ second.isField = true))
      (hmore : MembersHaveLines className depth (second :: rest) more) :
      MembersHaveLines className depth (first :: second :: rest) (lines ++ "" :: more)

/-- The lines of a class: its signature and, in braces, the lines of its members one level deeper. -/
def GeneratedClass.HasLines (depth : Nat) (declaration : GeneratedClass) (lines : List String) : Prop :=
  ∃ contents, MembersHaveLines declaration.name (depth + 1) declaration.members contents ∧
    lines = (indentation depth ++ declaration.signature) :: (indentation depth ++ "\x7b") ::
      contents ++ [indentation depth ++ "\x7d"]

/-- Contents that are level are laid out one level deeper than the braces around them. -/
theorem layoutFrom_block (depth : Nat) {contents : List Step} (hlevel : IsLevel contents) :
    layoutFrom depth (block contents) =
      (indentation depth ++ "\x7b") :: layoutFrom (depth + 1) contents ++
        [indentation depth ++ "\x7d"] := by
  rw [block, List.cons_append, layoutFrom]
  change _ :: layoutFrom (depth + 1) (contents ++ [.closing]) = _
  rw [layoutFrom_append, hlevel]
  rfl

/-- No step of a member is blank. -/
theorem Member.blank_notMem_steps (className : String) (member : Member) :
    .blank ∉ member.steps className := by
  rcases member with field | ⟨_, _, _, value | value⟩ | constructor | method <;>
    simp [steps, FieldMember.steps, PropertyMember.steps, ConstructorMember.steps,
      MethodMember.steps, bodySteps, block]

/-- Blank lines come from blank steps. -/
theorem empty_notMem_layoutFrom {steps : List Step} (hbegins : ∀ step ∈ steps, step.LineBegins)
    (hblank : .blank ∉ steps) (depth : Nat) : "" ∉ layoutFrom depth steps := by
  induction steps generalizing depth with
  | nil => exact List.not_mem_nil
  | cons step rest ih =>
    obtain ⟨hstep, hrest⟩ := List.forall_mem_cons.1 hbegins
    obtain ⟨hfirst, hothers⟩ := not_or.1 (List.mem_cons.not.1 hblank)
    rw [layoutFrom, List.mem_cons, not_or]
    exact ⟨fun hempty => hfirst (Step.eq_blank_of_text hstep depth hempty.symm).symm,
      ih hrest hothers _⟩

/-- Lines that are made of names begin with no space if the names do not. -/
theorem lineBegins_of_isWritten {steps : List Step} {names : List String}
    (hwritten : ∀ text, .line text ∈ steps → IsWritten names text)
    (hnames : ∀ name ∈ names, Begins name) : ∀ step ∈ steps, step.LineBegins := by
  intro step hmem
  cases step with
  | line text => exact (hwritten text hmem).begins hnames
  | _ => trivial

/-- A member has the lines that it is laid out in. -/
theorem Member.hasLines_layoutFrom {className : String} {member : Member}
    (hnames : ∀ name ∈ className :: member.names, Begins name) (depth : Nat) :
    member.HasLines className depth (layoutFrom depth (member.steps className)) where
  laidOut := rfl
  nonempty hempty := by
    have hlength := congrArg List.length hempty
    rw [length_layoutFrom] at hlength
    exact member.steps_ne_nil className (List.length_eq_zero_iff.1 hlength)
  noBlank := empty_notMem_layoutFrom
    (lineBegins_of_isWritten (fun _ hmem => Member.isWritten_of_mem_steps hmem) hnames)
    (member.blank_notMem_steps className) depth

/-- Members have the lines that they are laid out in. -/
theorem membersHaveLines_layoutFrom {className : String} {members : List Member}
    (hnames : ∀ member ∈ members, ∀ name ∈ className :: member.names, Begins name) (depth : Nat) :
    MembersHaveLines className depth members (layoutFrom depth (memberSteps className members)) := by
  cases members with
  | nil => exact .nil
  | cons first rest =>
    induction rest generalizing first with
    | nil =>
      rw [memberSteps, followingSteps, List.append_nil]
      exact .single (Member.hasLines_layoutFrom (hnames first List.mem_cons_self) depth)
    | cons second rest ih =>
      obtain ⟨hfirst, hrest⟩ := List.forall_mem_cons.1 hnames
      have hlines := Member.hasLines_layoutFrom hfirst depth
      have hmore := ih second hrest
      have hsteps : memberSteps className (first :: second :: rest) =
          first.steps className ++ (separation first second ++
            memberSteps className (second :: rest)) := by
        simp only [memberSteps, followingSteps, List.append_assoc]
      rw [hsteps, layoutFrom_append, (first.isArranged_steps className).isLevel]
      unfold separation
      split
      · rename_i hfields
        exact .together hlines (Bool.and_eq_true_iff.1 hfields) hmore
      · rename_i hfields
        exact .apart hlines (fun h => hfields (Bool.and_eq_true_iff.2 h)) hmore

/-- A class has the lines that it is laid out in. -/
theorem GeneratedClass.hasLines_layoutFrom {declaration : GeneratedClass}
    (hnames : ∀ name ∈ declaration.names, Begins name) (depth : Nat) :
    declaration.HasLines depth (layoutFrom depth declaration.steps) := by
  have hmembers : ∀ member ∈ declaration.members, ∀ name ∈ declaration.name :: member.names,
      Begins name := by
    intro member hmember name hname
    rcases List.mem_cons.1 hname with rfl | hname
    · exact hnames _ (by simp [names])
    · exact hnames name (List.mem_append_right _ (List.mem_flatMap_of_mem hmember hname))
  refine ⟨_, membersHaveLines_layoutFrom hmembers (depth + 1), ?_⟩
  rw [steps, layoutFrom]
  change _ :: layoutFrom depth (block _) = _
  rw [layoutFrom_block depth (isArranged_memberSteps _ _).isLevel]
  rfl

/-- Classes are laid out with a blank line between them. -/
theorem layoutFrom_classSteps (depth : Nat) (classes : List GeneratedClass) :
    layoutFrom depth (classSteps classes) =
      [""].intercalate (classes.map fun declaration => layoutFrom depth declaration.steps) := by
  induction classes using classSteps.induct with
  | case1 => rfl
  | case2 only => simp [classSteps]
  | case3 first second rest ih =>
    rw [classSteps, layoutFrom_append, first.isArranged_steps.isLevel, layoutFrom]
    change _ ++ "" :: layoutFrom depth (classSteps (second :: rest)) = _
    rw [ih]
    simp [List.intercalate]

/-! ## Files -/

/-- The depth of the classes of a file: they may be in a namespace. -/
def GeneratedFile.classDepth (file : GeneratedFile) : Nat :=
  match file.space with
  | none => 0
  | some space => if space.isEmpty then 0 else 1

/-- The text of the header: its lines and a blank one. -/
def GeneratedFile.headerText (file : GeneratedFile) : String :=
  match file.header with
  | none => ""
  | some header => textOfLines ((Text.lines header.toList).map String.ofList ++ [""])

/-- The lines of a file after its header, as they are read one after the other. -/
structure GeneratedFile.HasLines (file : GeneratedFile) (lines : List String) : Prop where
  /-- The lines are the lines of their text. -/
  ended : ∀ line ∈ lines, '\n' ∉ line.toList
  /-- A line is indented by four spaces for each open block, except for a closing brace, which stands
  outside of its block. -/
  indented : ∀ before line after, lines = before ++ line :: after → line ≠ "" →
    (leadingSpaces line : Int) = 4 * (openBlocks before - if closesBlock line then 1 else 0)
  /-- No more blocks are closed than have been opened. -/
  nonneg : ∀ before after, lines = before ++ after → 0 ≤ openBlocks before
  /-- All blocks are closed in the end. -/
  closed : openBlocks lines = 0
  /-- No two blank lines follow each other. -/
  spaced : ∀ before after, lines ≠ before ++ "" :: "" :: after
  /-- The classes take the lines of their members, with a blank line between two classes. -/
  classes : ∃ opening blocks closing, lines = opening ++ [""].intercalate blocks ++ closing ∧
    List.Forall₂ (GeneratedClass.HasLines file.classDepth) file.classes blocks

theorem textOfLines_append (first second : List String) :
    textOfLines (first ++ second) = textOfLines first ++ textOfLines second := by
  simp [textOfLines]

/-- The text of a file is that of its header, and the lines that its declarations are laid out in. -/
theorem GeneratedFile.render_eq (file : GeneratedFile) :
    file.render = file.headerText ++ textOfLines (layout file.declarationSteps) := by
  rw [render, textOfSteps, layout, steps, List.append_assoc, ← declarationSteps, headerText]
  cases file.header with
  | none => simp [layout]
  | some header =>
    have hheader : layoutFrom 0 (headerSteps header) =
        (Text.lines header.toList).map String.ofList ++ [""] := by
      rw [headerSteps, layoutFrom_append, layoutFrom_lines]
      simp [indentation, layoutFrom, Step.text]
    dsimp only
    rw [layoutFrom_append, isLevel_headerSteps, textOfLines_append, hheader, layout]

/-- The declarations of a file are balanced, with no two blank lines in a row. -/
theorem GeneratedFile.isBalanced_declarationSteps (file : GeneratedFile) :
    IsBalanced file.declarationSteps ∧ IsSpaced file.declarationSteps := by
  have hbody := file.isArranged_bodySteps
  rw [declarationSteps]
  rcases usingSteps_eq file.usings with husings | ⟨lines, hlines, husings⟩
  · rw [husings, List.nil_append]
    exact ⟨hbody.isBalanced, hbody.isTrim.spaced⟩
  · rw [husings, List.append_assoc]
    exact ⟨hlines.isBalanced.append ((isBalanced_singleton rfl).append hbody.isBalanced),
      hlines.isTrim.isSpaced_blank hbody.isTrim⟩

/-- In the layout of balanced steps, the braces before a line tell its indentation. -/
theorem leadingSpaces_of_layout {steps : List Step} (hbalanced : IsBalanced steps)
    (hbegins : ∀ step ∈ steps, step.LineBegins) {before after : List String} {line : String}
    (hlayout : layout steps = before ++ line :: after) (hline : line ≠ "") :
    (leadingSpaces line : Int) = 4 * (openBlocks before - if closesBlock line then 1 else 0) := by
  obtain ⟨first, second, rfl, rfl, hsecond⟩ := exists_of_layoutFrom_eq_append hlayout
  cases second with
  | nil => cases hsecond
  | cons step rest =>
    obtain ⟨rfl, -⟩ := List.cons_eq_cons.1 hsecond
    obtain ⟨hfirst, hsecond⟩ := List.forall_mem_append.1 hbegins
    have hstep : step.LineBegins := hsecond step List.mem_cons_self
    have hblank : step ≠ .blank := fun heq => hline (heq ▸ rfl)
    -- the depth is the number of open blocks, as no more of them have been closed than opened
    have hdepth : (depthAfter 0 first : Int) = height first := by
      have hnonneg : ∀ before after, first = before ++ after → 0 ≤ ((0 : Nat) : Int) + height before := by
        rintro before after rfl
        have := hbalanced.nonneg before (after ++ step :: rest) (List.append_assoc _ _ _)
        omega
      have := depthAfter_eq_height 0 hnonneg
      omega
    have hafter : 0 ≤ height first + step.change := by
      have := hbalanced.nonneg (first ++ [step]) rest (by simp)
      simpa [height] using this
    rw [openBlocks_layoutFrom hfirst, Step.closesBlock_text hstep, Step.leadingSpaces_text hstep _ hblank, ← hdepth]
    by_cases hclosing : step = .closing
    · rw [hclosing, Step.change] at hafter
      simp only [hclosing, beq_self_eq_true, if_true]
      omega
    · simp [hclosing]

/-- Spaced steps are laid out with no two blank lines in a row. -/
theorem layout_ne_of_isSpaced {steps : List Step} (hspaced : IsSpaced steps)
    (hbegins : ∀ step ∈ steps, step.LineBegins) (before after : List String) :
    layout steps ≠ before ++ "" :: "" :: after := by
  intro hlayout
  obtain ⟨first, second, rfl, -, hsecond⟩ := exists_of_layoutFrom_eq_append hlayout
  rcases second with _ | ⟨step, _ | ⟨next, rest⟩⟩
  · cases hsecond
  · cases (List.cons_eq_cons.1 hsecond).2
  · rw [layoutFrom, layoutFrom, List.cons.injEq, List.cons.injEq] at hsecond
    obtain ⟨hstep, hnext, -⟩ := hsecond
    refine (List.isChain_append_cons_cons.1 hspaced).2.1 ⟨?_, ?_⟩
    · exact Step.eq_blank_of_text (hbegins step (by simp)) _ hstep
    · exact Step.eq_blank_of_text (hbegins next (by simp)) _ hnext

/-- No line of a layout holds a line feed if no text of a line does. -/
theorem lineFeed_notMem_of_mem_layoutFrom {steps : List Step}
    (htexts : ∀ text, .line text ∈ steps → '\n' ∉ text.toList) {depth : Nat} {line : String}
    (hmem : line ∈ layoutFrom depth steps) : '\n' ∉ line.toList := by
  have hindentation (depth : Nat) : '\n' ∉ (indentation depth).toList := by
    simp [indentation]
  induction steps generalizing depth with
  | nil => cases hmem
  | cons step rest ih =>
    rw [layoutFrom, List.mem_cons] at hmem
    rcases hmem with rfl | hrest
    · cases step with
      | line text => simp [Step.text, hindentation, htexts text List.mem_cons_self]
      | blank => exact List.not_mem_nil
      | opening => simp [Step.text, hindentation]
      | closing => simp [Step.text, hindentation]
    · exact ih (fun text hmem => htexts text (List.mem_cons_of_mem step hmem)) hrest

/-- The classes of a file stand on their own or in a namespace. -/
theorem GeneratedFile.bodySteps_cases (file : GeneratedFile) :
    (file.bodySteps = classSteps file.classes ∧ file.classDepth = 0) ∨
      ∃ space, file.bodySteps = .line ("namespace " ++ space) :: block (classSteps file.classes) ∧
        file.classDepth = 1 := by
  unfold bodySteps classDepth
  cases file.space with
  | none => exact .inl ⟨rfl, rfl⟩
  | some space =>
    by_cases hempty : space.isEmpty = true
    · exact .inl ⟨if_pos hempty, if_pos hempty⟩
    · exact .inr ⟨space, if_neg hempty, if_neg hempty⟩

/-- The classes are laid out between the lines of their namespace, if they have one. -/
theorem GeneratedFile.exists_layoutFrom_bodySteps (file : GeneratedFile) :
    ∃ opening closing, layoutFrom 0 file.bodySteps =
      opening ++ layoutFrom file.classDepth (classSteps file.classes) ++ closing := by
  rcases file.bodySteps_cases with ⟨hbody, hdepth⟩ | ⟨space, hbody, hdepth⟩ <;> rw [hbody, hdepth]
  · exact ⟨[], [], by simp⟩
  · refine ⟨[indentation 0 ++ ("namespace " ++ space), indentation 0 ++ "\x7b"],
      [indentation 0 ++ "\x7d"], ?_⟩
    exact congrArg _ (layoutFrom_block 0 (isArranged_classSteps file.classes).isLevel)

/-- The classes of a file stand in its layout, with a blank line between two of them. -/
theorem GeneratedFile.exists_blocks {file : GeneratedFile}
    (hnames : ∀ name ∈ file.names, Begins name) :
    ∃ opening blocks closing,
      layout file.declarationSteps = opening ++ [""].intercalate blocks ++ closing ∧
        List.Forall₂ (GeneratedClass.HasLines file.classDepth) file.classes blocks := by
  obtain ⟨opening, closing, hbody⟩ := file.exists_layoutFrom_bodySteps
  refine ⟨layoutFrom 0 (usingSteps file.usings) ++ opening,
    file.classes.map fun declaration => layoutFrom file.classDepth declaration.steps, closing, ?_, ?_⟩
  · rw [layout, declarationSteps, layoutFrom_append, isLevel_usingSteps, hbody,
      layoutFrom_classSteps]
    simp only [List.append_assoc]
  · refine List.forall₂_map_right_iff.2 (List.forall₂_same.2 fun declaration hdeclaration => ?_)
    exact GeneratedClass.hasLines_layoutFrom (fun name hname => hnames name
      (List.mem_append_right _ (List.mem_flatMap_of_mem hdeclaration hname))) _

/-- A file is evenly indented, and its lines are spaced, if the names in it fit on a line. -/
theorem GeneratedFile.render_indented (file : GeneratedFile)
    (hnames : file.names.all fitsLine = true) :
    ∃ lines, file.render = file.headerText ++ textOfLines lines ∧ file.HasLines lines := by
  have hfits : ∀ name ∈ file.names, fitsLine name = true := List.all_eq_true.1 hnames
  have hbegin : ∀ name ∈ file.names, Begins name :=
    fun name hname => begins_of_fitsLine (hfits name hname)
  have hbegins : ∀ step ∈ file.declarationSteps, step.LineBegins :=
    lineBegins_of_isWritten (fun _ hmem => isWritten_of_mem_declarationSteps hmem) hbegin
  have htexts : ∀ text, .line text ∈ file.declarationSteps → '\n' ∉ text.toList := by
    intro text hmem hfeed
    obtain ⟨name, hname, hc⟩ :=
      (isWritten_of_mem_declarationSteps hmem).breaks '\n' hfeed (by decide)
    exact lineFeed_notMem_of_fitsLine (hfits name hname) hc
  obtain ⟨hbalanced, hspaced⟩ := file.isBalanced_declarationSteps
  refine ⟨layout file.declarationSteps, file.render_eq, ?_⟩
  exact
    { ended := fun line hmem => lineFeed_notMem_of_mem_layoutFrom htexts hmem
      indented := fun before line after hlayout hline =>
        leadingSpaces_of_layout hbalanced hbegins hlayout hline
      nonneg := fun before after hlayout => by
        obtain ⟨first, second, hsteps, rfl, -⟩ := exists_of_layoutFrom_eq_append hlayout
        rw [hsteps, List.forall_mem_append] at hbegins
        rw [openBlocks_layoutFrom hbegins.1]
        exact hbalanced.nonneg first second hsteps
      closed := by rw [layout, openBlocks_layoutFrom hbegins, hbalanced.closed]
      spaced := layout_ne_of_isSpaced hspaced hbegins
      classes := exists_blocks hbegin }

/-- A file with fields that stay together and members that are set apart. The literal in its method holds
a line feed and a brace. -/
def menuFile : GeneratedFile where
  header := some "// generated\n    // by hand"
  usings := ["UnityEngine", "UnityEngine.UIElements"]
  space := some "Game.UI"
  classes :=
    [{ name := "Menu"
       isPartial := true
       bases := ["MonoBehaviour"]
       members :=
         [.field { attributes := ["SerializeField"], typeName := "UIDocument", name := "_document" },
          .field { typeName := "Button", name := "_play" },
          .property
            { typeName := "VisualElement", name := "Root",
              body := .getter (.member (.ident "_document") "rootVisualElement" true) },
          .method
            { name := "InitializeDocument",
              body := [.assign (.ident "_play") (.cast "Button"
                (.call (.member (.ident "Root") "Q" true) [.string "Play\n\x7b"]))] }] },
     { name := "Empty" }]

theorem GeneratedFile.render_indented_menuFile :
    menuFile.names.all fitsLine = true ∧
      ∃ lines, menuFile.render = menuFile.headerText ++ textOfLines lines ∧ menuFile.HasLines lines :=
  ⟨by decide +kernel, menuFile.render_indented (by decide +kernel)⟩

end UxmlBindings.Code
