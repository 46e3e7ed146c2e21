import Mathlib.Data.List.Chain
import UxmlBindings.Code.Render

/-!
# Levels and numbers of lines

The steps of declarations are arranged: they are put together from lines and blocks, and between two
parts a single blank line may stand. Arranged steps close the blocks that they open and no others, so
the depth never has to stop at zero, and they are level: they end at the depth at which they began. So
a declaration is indented by the blocks around it and by nothing that precedes it in them. Members that
are no fields each follow a blank line, so the lines of a class are counted member by member.
-/

namespace UxmlBindings.Code

/-! ## Heights -/

/-- How many blocks a step opens, less those it closes. -/
def Step.change : Step → Int
  | .opening => 1
  | .closing => -1
  | _ => 0

/-- How many blocks the steps open, less those they close. -/
def height : List Step → Int
  | [] => 0
  | step :: rest => step.change + height rest

@[simp] theorem height_append (first second : List Step) :
    height (first ++ second) = height first + height second := by
  induction first with
  | nil => simp [height]
  | cons step rest ih =>
    simp only [List.cons_append, height, ih]
    omega

/-- Steps that close the blocks they open, and at no point more of them. -/
structure IsBalanced (steps : List Step) : Prop where
  closed : height steps = 0
  nonneg : ∀ before after, steps = before ++ after → 0 ≤ height before

theorem isBalanced_nil : IsBalanced [] := by
  refine ⟨rfl, fun before after hsplit => ?_⟩
  rw [(List.append_eq_nil_iff.1 hsplit.symm).1]
  exact Int.le_refl 0

/-- A step that opens and closes nothing. -/
theorem isBalanced_singleton {step : Step} (hstep : step.change = 0) : IsBalanced [step] := by
  refine ⟨by simp [height, hstep], fun before after hsplit => ?_⟩
  rcases List.append_eq_singleton_iff.1 hsplit.symm with ⟨rfl, -⟩ | ⟨rfl, -⟩ <;> simp [height, hstep]

theorem IsBalanced.append {first second : List Step} (hfirst : IsBalanced first)
    (hsecond : IsBalanced second) : IsBalanced (first ++ second) := by
  refine ⟨by rw [height_append, hfirst.closed, hsecond.closed]; rfl, fun before after hsplit => ?_⟩
  rcases List.append_eq_append_iff.1 hsplit with ⟨more, rfl, hmore⟩ | ⟨more, hmore, -⟩
  · rw [height_append, hfirst.closed, Int.zero_add]
    exact hsecond.nonneg more after hmore
  · exact hfirst.nonneg before more hmore

/-- A block is balanced if its contents are. -/
theorem IsBalanced.block {contents : List Step} (h : IsBalanced contents) :
    IsBalanced (Code.block contents) := by
  refine ⟨by simp [Code.block, height, Step.change, h.closed], fun before after hsplit => ?_⟩
  cases before with
  | nil => exact Int.le_refl 0
  | cons step before =>
    obtain ⟨rfl, hrest⟩ := List.cons_eq_cons.1 hsplit
    have hbefore : -1 ≤ height before := by
      rcases List.append_eq_append_iff.1 hrest with ⟨more, rfl, hmore⟩ | ⟨more, hmore, -⟩
      · -- only the closing brace can stand in what follows the contents
        rcases List.append_eq_singleton_iff.1 hmore.symm with ⟨rfl, -⟩ | ⟨rfl, -⟩ <;>
          simp [h.closed, height, Step.change]
      · have := h.nonneg before more hmore
        omega
    simp only [height, Step.change]
    omega

/-- As long as no more blocks are closed than have been opened, the depth is counted exactly. -/
theorem depthAfter_eq_height (depth : Nat) {steps : List Step}
    (hnonneg : ∀ before after, steps = before ++ after → 0 ≤ depth + height before) :
    (depthAfter depth steps : Int) = depth + height steps := by
  induction steps generalizing depth with
  | nil => simp [depthAfter, height]
  | cons step rest ih =>
    have hstep : (step.depthAfter depth : Int) = depth + step.change := by
      have hfirst := hnonneg [step] rest rfl
      cases step <;> simp only [height, Step.change, Step.depthAfter] at hfirst ⊢ <;> omega
    have hrest := ih (step.depthAfter depth) fun before after hsplit => by
      have := hnonneg (step :: before) after (by rw [hsplit, List.cons_append])
      rw [height] at this
      omega
    rw [height, ← Int.add_assoc, ← hstep]
    exact hrest

/-! ## Levels -/

/-- Steps that end at the depth at which they began. -/
def IsLevel (steps : List Step) : Prop :=
  ∀ depth, depthAfter depth steps = depth

theorem depthAfter_append (depth : Nat) (first second : List Step) :
    depthAfter depth (first ++ second) = depthAfter (depthAfter depth first) second :=
  List.foldl_append

theorem IsLevel.append {first second : List Step} (hfirst : IsLevel first)
    (hsecond : IsLevel second) : IsLevel (first ++ second) := by
  intro depth
  rw [depthAfter_append, hfirst, hsecond]

theorem isLevel_blank : IsLevel [.blank] := fun _ => rfl

/-- Balanced steps are level. -/
theorem IsBalanced.isLevel {steps : List Step} (h : IsBalanced steps) : IsLevel steps := by
  intro depth
  have hdepth := depthAfter_eq_height depth fun before after hsplit => by
    have := h.nonneg before after hsplit
    omega
  rw [h.closed] at hdepth
  omega

/-! ## Arrangement -/

/-- Steps that are put together from lines and blocks, with a blank line between parts at most. -/
inductive IsArranged : List Step → Prop where
  | nil : IsArranged []
  | line (text : String) : IsArranged [.line text]
  | block {contents : List Step} (hcontents : IsArranged contents) :
      IsArranged (Code.block contents)
  | append {first second : List Step} (hfirst : IsArranged first) (hsecond : IsArranged second) :
      IsArranged (first ++ second)
  | apart {first second : List Step} (hfirst : IsArranged first) (hsecond : IsArranged second)
      (hnonemptyFirst : first ≠ []) (hnonemptySecond : second ≠ []) :
      IsArranged (first ++ .blank :: second)

/-- Arranged steps are balanced. -/
theorem IsArranged.isBalanced {steps : List Step} (h : IsArranged steps) : IsBalanced steps := by
  induction h with
  | nil => exact isBalanced_nil
  | line text => exact isBalanced_singleton rfl
  | block _ ih => exact ih.block
  | append _ _ hfirst hsecond => exact hfirst.append hsecond
  | apart _ _ _ _ hfirst hsecond => exact hfirst.append ((isBalanced_singleton rfl).append hsecond)

theorem IsArranged.isLevel {steps : List Step} (h : IsArranged steps) : IsLevel steps :=
  h.isBalanced.isLevel

/-- Steps of which no two in a row are blank lines. -/
def IsSpaced (steps : List Step) : Prop :=
  steps.IsChain fun first second => ¬(first = .blank ∧ second = .blank)

theorem isSpaced_singleton (step : Step) : IsSpaced [step] :=
  List.isChain_singleton step

theorem IsSpaced.append {first second : List Step} (hfirst : IsSpaced first)
    (hsecond : IsSpaced second) (hends : first.getLast? ≠ some .blank ∨ second.head? ≠ some .blank) :
    IsSpaced (first ++ second) := by
  refine List.IsChain.append hfirst hsecond fun last hlast next hnext => ?_
  rintro ⟨rfl, rfl⟩
  exact hends.elim (fun h => h hlast) fun h => h hnext

/-- Spaced steps with no blank line at either end. -/
structure IsTrim (steps : List Step) : Prop where
  spaced : IsSpaced steps
  head : steps.head? ≠ some .blank
  last : steps.getLast? ≠ some .blank

theorem IsTrim.append {first second : List Step} (hfirst : IsTrim first) (hsecond : IsTrim second) :
    IsTrim (first ++ second) := by
  refine ⟨hfirst.spaced.append hsecond.spaced (.inl hfirst.last), ?_, ?_⟩
  · rw [List.head?_append]
    cases hhead : first.head? with
    | none => exact hsecond.head
    | some step =>
      rw [Option.some_or, ← hhead]
      exact hfirst.head
  · rw [List.getLast?_append]
    cases hlast : second.getLast? with
    | none => exact hfirst.last
    | some step =>
      rw [Option.some_or, ← hlast]
      exact hsecond.last

theorem isTrim_singleton {step : Step} (hstep : step ≠ .blank) : IsTrim [step] :=
  ⟨isSpaced_singleton step, by simpa using hstep, by simpa using hstep⟩

/-- One blank line leaves steps spaced, whatever they are. -/
theorem IsTrim.isSpaced_blank {first second : List Step} (hfirst : IsTrim first)
    (hsecond : IsTrim second) : IsSpaced (first ++ .blank :: second) :=
  hfirst.spaced.append ((isSpaced_singleton .blank).append hsecond.spaced (.inr hsecond.head))
    (.inl hfirst.last)

/-- Arranged steps have no two blank lines in a row and none at either end. -/
theorem IsArranged.isTrim {steps : List Step} (h : IsArranged steps) : IsTrim steps := by
  induction h with
  | nil => exact ⟨List.isChain_nil, by simp, by simp⟩
  | line text => exact isTrim_singleton (by simp)
  | block _ ih =>
    exact (isTrim_singleton (by simp)).append (ih.append (isTrim_singleton (by simp)))
  | append _ _ hfirst hsecond => exact hfirst.append hsecond
  | @apart first second _ _ hnonemptyFirst hnonemptySecond hfirst hsecond =>
    refine ⟨hfirst.isSpaced_blank hsecond, ?_, ?_⟩
    · rw [List.head?_append_of_ne_nil first hnonemptyFirst]
      exact hfirst.head
    · rw [List.getLast?_append_of_ne_nil first (List.cons_ne_nil _ _),
        List.getLast?_cons_of_ne_nil hnonemptySecond]
      exact hsecond.last

/-! ## Declarations -/

/-- Lines of text are arranged. -/
theorem isArranged_lines {α : Type} (items : List α) (text : α → String) :
    IsArranged (items.map fun item => .line (text item)) := by
  induction items with
  | nil => exact .nil
  | cons item rest ih => exact (IsArranged.line (text item)).append ih

/-- Lines of text are level. -/
theorem isLevel_lines {α : Type} (items : List α) (text : α → String) :
    IsLevel (items.map fun item => .line (text item)) :=
  (isArranged_lines items text).isLevel

/-- Lines of text are laid out at one depth. -/
theorem layoutFrom_lines {α : Type} (depth : Nat) (items : List α) (text : α → String) :
    layoutFrom depth (items.map fun item => .line (text item)) =
      items.map fun item => indentation depth ++ text item := by
  induction items with
  | nil => rfl
  | cons item rest ih =>
    rw [List.map_cons, layoutFrom]
    exact congrArg _ ih

/-- Every member is arranged. -/
theorem Member.isArranged_steps (className : String) (member : Member) :
    IsArranged (member.steps className) := by
  rcases member with field | ⟨_, _, _, value | value⟩ | constructor | method
  · exact (isArranged_lines _ _).append (.line _)
  · exact (IsArranged.line _).append
      (((IsArranged.line "get").append (IsArranged.line _).block).block)
  · exact .line _
  · exact (IsArranged.line _).append (isArranged_lines _ _).block
  · exact (IsArranged.line _).append (isArranged_lines _ _).block

/-- No member is left out. -/
theorem Member.steps_ne_nil (className : String) (member : Member) :
    member.steps className ≠ [] := by
  rcases member with field | ⟨_, _, _, value | value⟩ | constructor | method <;>
    simp [steps, FieldMember.steps, PropertyMember.steps, ConstructorMember.steps, MethodMember.steps]

/-- Arranged steps stay arranged if members follow them. -/
theorem IsArranged.append_followingSteps {before : List Step} (hbefore : IsArranged before)
    (hnonempty : before ≠ []) (className : String) (previous : Member) (members : List Member) :
    IsArranged (before ++ followingSteps className previous members) := by
  induction members generalizing before previous with
  | nil => exact hbefore.append .nil
  | cons next rest ih =>
    have hnext : IsArranged (before ++ (separation previous next ++ next.steps className)) := by
      unfold separation
      split
      · exact hbefore.append (next.isArranged_steps className)
      · exact hbefore.apart (next.isArranged_steps className) hnonempty (next.steps_ne_nil className)
    rw [followingSteps, ← List.append_assoc]
    exact ih hnext (List.append_ne_nil_of_left_ne_nil hnonempty _) next

/-- The members of a class are arranged. -/
theorem isArranged_memberSteps (className : String) (members : List Member) :
    IsArranged (memberSteps className members) := by
  cases members with
  | nil => exact .nil
  | cons first rest =>
    exact (first.isArranged_steps className).append_followingSteps (first.steps_ne_nil className)
      className first rest

theorem GeneratedClass.isArranged_steps (declaration : GeneratedClass) :
    IsArranged declaration.steps :=
  (IsArranged.line declaration.signature).append
    (isArranged_memberSteps declaration.name declaration.members).block

/-- The classes of a file are arranged. -/
theorem isArranged_classSteps (classes : List GeneratedClass) : IsArranged (classSteps classes) := by
  induction classes using classSteps.induct with
  | case1 => exact .nil
  | case2 only => exact only.isArranged_steps
  | case3 first second rest ih =>
    have hsecond : classSteps (second :: rest) ≠ [] := by
      cases rest <;> simp [classSteps, GeneratedClass.steps]
    exact first.isArranged_steps.apart ih (List.cons_ne_nil _ _) hsecond

/-- The part of a file with the classes is arranged. -/
theorem GeneratedFile.isArranged_bodySteps (file : GeneratedFile) : IsArranged file.bodySteps := by
  have hclasses := isArranged_classSteps file.classes
  unfold bodySteps
  split
  · exact hclasses
  · split
    · exact hclasses
    · exact (IsArranged.line _).append hclasses.block

theorem isLevel_headerSteps (header : String) : IsLevel (headerSteps header) :=
  (isLevel_lines _ _).append isLevel_blank

/-- The used namespaces are followed by one blank line. -/
theorem usingSteps_eq (usings : List String) :
    usingSteps usings = [] ∨ ∃ lines, IsArranged lines ∧ usingSteps usings = lines ++ [.blank] := by
  unfold usingSteps
  split
  · exact .inl rfl
  · exact .inr ⟨_, isArranged_lines _ _, rfl⟩

theorem isLevel_usingSteps (usings : List String) : IsLevel (usingSteps usings) := by
  rcases usingSteps_eq usings with husings | ⟨lines, hlines, husings⟩ <;> rw [husings]
  · exact fun _ => rfl
  · exact hlines.isLevel.append isLevel_blank

/-! ## Numbers of lines -/

/-- Members that are no fields, each after a blank line. -/
def setApart (className : String) (members : List Member) : List Step :=
  members.flatMap fun member => .blank :: member.steps className

theorem setApart_cons (className : String) (member : Member) (rest : List Member) :
    setApart className (member :: rest) =
      .blank :: member.steps className ++ setApart className rest := rfl

theorem setApart_append (className : String) (first second : List Member) :
    setApart className (first ++ second) =
      setApart className first ++ setApart className second :=
  List.flatMap_append

/-- Members that are no fields are set apart, whatever they follow. -/
theorem followingSteps_eq_setApart (className : String) (previous : Member) {members : List Member}
    (hothers : ∀ member ∈ members, member.isField = false) :
    followingSteps className previous members = setApart className members := by
  induction members generalizing previous with
  | nil => rfl
  | cons next rest ih =>
    obtain ⟨hnext, hrest⟩ := List.forall_mem_cons.1 hothers
    rw [followingSteps, separation, hnext, Bool.and_false, if_neg Bool.false_ne_true, ih next hrest]
    rfl

/-- Members that are no fields are set apart from the members before them. -/
theorem memberSteps_append (className : String) {members others : List Member}
    (hmembers : members ≠ []) (hothers : ∀ member ∈ others, member.isField = false) :
    memberSteps className (members ++ others) =
      memberSteps className members ++ setApart className others := by
  have hfollowing (previous : Member) (rest : List Member) :
      followingSteps className previous (rest ++ others) =
        followingSteps className previous rest ++ setApart className others := by
    induction rest generalizing previous with
    | nil => exact followingSteps_eq_setApart className previous hothers
    | cons next rest ih => simp [followingSteps, ih]
  obtain ⟨first, rest, rfl⟩ := List.exists_cons_of_ne_nil hmembers
  rw [List.cons_append, memberSteps, memberSteps, hfollowing, List.append_assoc]

/-- Fields stay together. -/
theorem memberSteps_fields (className : String) (fields : List FieldMember) :
    memberSteps className (fields.map Member.field) = fields.flatMap FieldMember.steps := by
  have hfollowing (previous : FieldMember) (rest : List FieldMember) :
      followingSteps className (.field previous) (rest.map Member.field) =
        rest.flatMap FieldMember.steps := by
    induction rest generalizing previous with
    | nil => rfl
    | cons next rest ih =>
      rw [List.map_cons, followingSteps, ih]
      rfl
  cases fields with
  | nil => rfl
  | cons first rest =>
    rw [List.map_cons, memberSteps, hfollowing]
    rfl

/-- Fields take their lines, and each member after them takes its lines and a blank one, except that
no blank line comes first. -/
theorem length_memberSteps (className : String) (fields : List FieldMember) {others : List Member}
    (hnonempty : others ≠ []) (hothers : ∀ member ∈ others, member.isField = false) :
    (memberSteps className (fields.map Member.field ++ others)).length + 1 =
      (fields.flatMap FieldMember.steps).length + min fields.length 1 +
        (setApart className others).length := by
  by_cases hfields : fields = []
  · obtain ⟨first, rest, rfl⟩ := List.exists_cons_of_ne_nil hnonempty
    have hrest := followingSteps_eq_setApart className first (List.forall_mem_cons.1 hothers).2
    rw [hfields, List.map_nil, List.nil_append, memberSteps, hrest, setApart_cons]
    simp only [List.length_append, List.length_cons, List.flatMap_nil, List.length_nil]
    omega
  · have hmap : fields.map Member.field ≠ [] := by simpa using hfields
    have hlength : 0 < fields.length := List.length_pos_iff.2 hfields
    rw [memberSteps_append className hmap hothers, memberSteps_fields, List.length_append]
    omega

end UxmlBindings.Code
