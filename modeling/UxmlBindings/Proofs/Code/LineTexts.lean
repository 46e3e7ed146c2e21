import UxmlBindings.Code.Render
import UxmlBindings.Proofs.Code.LineBreaks
import UxmlBindings.Proofs.Code.Names

/-!
# The texts of lines

A declaration is written in lines that are made of fixed words and of the names in it. A line break in
such a line stands in one of the names. If the names begin with anything but a space, every line does
too, and as no line has less than two characters, none is taken for a blank line or for a brace.
-/

namespace UxmlBindings.Code

/-! ## Line breaks -/

/-- Every line break in a text stands in one of the names. -/
def BreaksIn (names : List String) (text : String) : Prop :=
  ∀ c ∈ text.toList, isLineBreak c = true → ∃ name ∈ names, c ∈ name.toList

section

variable {names more : List String} {text first second : String}

theorem BreaksIn.mono (h : BreaksIn names text) (hsub : names ⊆ more) : BreaksIn more text := by
  intro c hmem hbreak
  obtain ⟨name, hname, hc⟩ := h c hmem hbreak
  exact ⟨name, hsub hname, hc⟩

theorem breaksIn_append :
    BreaksIn names (first ++ second) ↔ BreaksIn names first ∧ BreaksIn names second := by
  simp only [BreaksIn, String.toList_append, List.forall_mem_append]

theorem breaksIn_of_mem (hmem : text ∈ names) : BreaksIn names text :=
  fun _ hc _ => ⟨text, hmem, hc⟩

theorem breaksIn_of_isUnbroken (htext : isUnbroken text = true) : BreaksIn names text := by
  intro c hmem hbreak
  rw [isUnbroken_iff.1 htext c hmem] at hbreak
  cases hbreak

/-- A text whose line breaks stand in unbroken names is unbroken. -/
theorem BreaksIn.isUnbroken (h : BreaksIn names text)
    (hnames : ∀ name ∈ names, Code.isUnbroken name = true) : Code.isUnbroken text = true := by
  refine isUnbroken_iff.2 fun c hmem => Bool.eq_false_iff.2 fun hbreak => ?_
  obtain ⟨name, hname, hc⟩ := h c hmem hbreak
  rw [isUnbroken_iff.1 (hnames name hname) c hc] at hbreak
  cases hbreak

/-- Texts joined by an unbroken one have the line breaks that they had before. -/
theorem breaksIn_intercalate {joiner : String} {texts : List String}
    (hjoiner : isUnbroken joiner = true) (htexts : ∀ text ∈ texts, BreaksIn names text) :
    BreaksIn names (String.intercalate joiner texts) := by
  intro c hmem hbreak
  rcases mem_toList_intercalate hmem with hinside | ⟨text, htext, hc⟩
  · exact breaksIn_of_isUnbroken hjoiner c hinside hbreak
  · exact htexts text htext c hc hbreak

end

mutual

/-- A line break in the text of an expression stands in one of its names. -/
theorem Expression.breaksIn_render : (expression : Expression) →
    BreaksIn expression.names expression.render
  | .ident name => breaksIn_of_mem (List.mem_singleton_self name)
  | .string value => breaksIn_of_isUnbroken (isUnbroken_literal value)
  | .member target name guarded => by
    have haccess : isUnbroken (if guarded then "?." else ".") = true := by split <;> decide
    rw [render, breaksIn_append, breaksIn_append]
    exact ⟨⟨target.breaksIn_render.mono (List.subset_append_left _ _),
      breaksIn_of_isUnbroken haccess⟩, breaksIn_of_mem (by simp [names])⟩
  | .call callee arguments => by
    simp only [render, breaksIn_append]
    exact ⟨⟨⟨callee.breaksIn_render.mono (List.subset_append_left _ _),
      breaksIn_of_isUnbroken (by decide)⟩,
      (Expression.breaksIn_renderList arguments).mono (List.subset_append_right _ _)⟩,
      breaksIn_of_isUnbroken (by decide)⟩
  | .cast typeName value => by
    simp only [render, breaksIn_append]
    exact ⟨⟨⟨breaksIn_of_isUnbroken (by decide), breaksIn_of_mem List.mem_cons_self⟩,
      breaksIn_of_isUnbroken (by decide)⟩, value.breaksIn_render.mono (List.subset_cons_self _ _)⟩
  | .construct typeName arguments => by
    simp only [render, breaksIn_append]
    exact ⟨⟨⟨⟨breaksIn_of_isUnbroken (by decide), breaksIn_of_mem List.mem_cons_self⟩,
      breaksIn_of_isUnbroken (by decide)⟩,
      (Expression.breaksIn_renderList arguments).mono (List.subset_cons_self _ _)⟩,
      breaksIn_of_isUnbroken (by decide)⟩

/-- A line break in the text of arguments stands in one of their names. -/
theorem Expression.breaksIn_renderList : (arguments : List Expression) →
    BreaksIn (Expression.listNames arguments) (Expression.renderList arguments)
  | [] => breaksIn_of_isUnbroken rfl
  | [only] => only.breaksIn_render.mono (List.subset_append_left _ _)
  | first :: second :: rest => by
    simp only [renderList, breaksIn_append]
    exact ⟨⟨first.breaksIn_render.mono (List.subset_append_left _ _),
      breaksIn_of_isUnbroken (by decide)⟩,
      (Expression.breaksIn_renderList (second :: rest)).mono (List.subset_append_right _ _)⟩

end

/-- A line break in the text of a statement stands in one of its names. -/
theorem Statement.breaksIn_render (statement : Statement) :
    BreaksIn statement.names statement.render := by
  cases statement with
  | evaluate value =>
    rw [render, breaksIn_append]
    exact ⟨value.breaksIn_render, breaksIn_of_isUnbroken (by decide)⟩
  | assign target value =>
    simp only [render, breaksIn_append]
    exact ⟨⟨⟨target.breaksIn_render.mono (List.subset_append_left _ _),
      breaksIn_of_isUnbroken (by decide)⟩,
      value.breaksIn_render.mono (List.subset_append_right _ _)⟩,
      breaksIn_of_isUnbroken (by decide)⟩

/-! ## First characters -/

/-- A text that begins with anything but a space. -/
def Begins (text : String) : Prop :=
  ∃ c rest, text.toList = c :: rest ∧ c ≠ ' '

/-- A text that begins with anything but a space, and goes on. -/
def BeginsLine (text : String) : Prop :=
  ∃ c d rest, text.toList = c :: d :: rest ∧ c ≠ ' '

theorem begins_of_head {text : String} {c : Char} {rest : List Char}
    (hchars : text.toList = c :: rest) (hspace : c ≠ ' ') : Begins text :=
  ⟨c, rest, hchars, hspace⟩

theorem Begins.ne_nil {text : String} (h : Begins text) : text.toList ≠ [] := by
  obtain ⟨c, rest, hchars, -⟩ := h
  rw [hchars]
  exact List.cons_ne_nil c rest

theorem Begins.append {first : String} (hfirst : Begins first) (second : String) :
    Begins (first ++ second) := by
  obtain ⟨c, rest, hchars, hc⟩ := hfirst
  exact ⟨c, rest ++ second.toList, by rw [String.toList_append, hchars]; rfl, hc⟩

theorem BeginsLine.append {first : String} (hfirst : BeginsLine first) (second : String) :
    BeginsLine (first ++ second) := by
  obtain ⟨c, d, rest, hchars, hc⟩ := hfirst
  exact ⟨c, d, rest ++ second.toList, by rw [String.toList_append, hchars]; rfl, hc⟩

/-- What begins a text begins a line if something follows it. -/
theorem Begins.beginsLine_append {first second : String} (hfirst : Begins first)
    (hsecond : second.toList ≠ []) : BeginsLine (first ++ second) := by
  obtain ⟨c, rest, hchars, hc⟩ := hfirst
  obtain ⟨d, more, hmore⟩ := List.exists_cons_of_ne_nil
    (List.append_ne_nil_of_right_ne_nil rest hsecond)
  exact ⟨c, d, more, by rw [String.toList_append, hchars, List.cons_append, hmore], hc⟩

/-- An expression begins like a name of it, with a quote or with a fixed word. -/
theorem Expression.begins_render : (expression : Expression) →
    (∀ name ∈ expression.names, Begins name) → Begins expression.render
  | .ident name, hnames => hnames name (List.mem_singleton_self name)
  | .string value, _ => by
    have hquote : Begins "\"" := begins_of_head rfl (by decide)
    exact (hquote.append (escapeText value)).append "\""
  | .member target name guarded, hnames => by
    have htarget := target.begins_render fun name hmem => hnames name (List.mem_append_left _ hmem)
    exact (htarget.append (if guarded then "?." else ".")).append name
  | .call callee arguments, hnames => by
    have hcallee := callee.begins_render fun name hmem => hnames name (List.mem_append_left _ hmem)
    exact ((hcallee.append "(").append (Expression.renderList arguments)).append ")"
  | .cast typeName value, _ => by
    have hparenthesis : Begins "(" := begins_of_head rfl (by decide)
    exact ((hparenthesis.append typeName).append ")").append value.render
  | .construct typeName arguments, _ => by
    have hnew : Begins "new " := begins_of_head rfl (by decide)
    exact (((hnew.append typeName).append "(").append (Expression.renderList arguments)).append ")"

/-- A statement begins like its first expression, and a semicolon follows at least. -/
theorem Statement.beginsLine_render (statement : Statement)
    (hnames : ∀ name ∈ statement.names, Begins name) : BeginsLine statement.render := by
  cases statement with
  | evaluate value => exact (value.begins_render hnames).beginsLine_append (by decide)
  | assign target value =>
    have htarget : Begins target.render :=
      target.begins_render fun name hmem => hnames name (List.mem_append_left _ hmem)
    exact ((htarget.beginsLine_append (by decide)).append value.render).append ";"

/-! ## Lines of declarations -/

/-- A line that is made of fixed words and of the names. -/
structure IsWritten (names : List String) (text : String) : Prop where
  breaks : BreaksIn names text
  begins : (∀ name ∈ names, Begins name) → BeginsLine text

section

variable {names more : List String} {text first second : String}

theorem IsWritten.mono (h : IsWritten names text) (hsub : names ⊆ more) : IsWritten more text :=
  ⟨h.breaks.mono hsub, fun hmore => h.begins fun name hmem => hmore name (hsub hmem)⟩

/-- A fixed word that begins a line. -/
theorem isWritten_word {c d : Char} {rest : List Char} (hchars : text.toList = c :: d :: rest)
    (hspace : c ≠ ' ') (htext : isUnbroken text = true) : IsWritten names text :=
  ⟨breaksIn_of_isUnbroken htext, fun _ => ⟨c, d, rest, hchars, hspace⟩⟩

theorem IsWritten.append (hfirst : IsWritten names first) (hsecond : BreaksIn names second) :
    IsWritten names (first ++ second) :=
  ⟨breaksIn_append.2 ⟨hfirst.breaks, hsecond⟩, fun hnames => (hfirst.begins hnames).append second⟩

theorem IsWritten.append_name (hfirst : IsWritten names first) (hsecond : second ∈ names) :
    IsWritten names (first ++ second) :=
  hfirst.append (breaksIn_of_mem hsecond)

theorem IsWritten.append_fixed (hfirst : IsWritten names first)
    (hsecond : isUnbroken second = true) : IsWritten names (first ++ second) :=
  hfirst.append (breaksIn_of_isUnbroken hsecond)

end

theorem Visibility.isWritten_keyword (names : List String) (visibility : Visibility) :
    IsWritten names visibility.keyword := by
  cases visibility with
  | everyone => exact isWritten_word rfl (by decide) (by decide)
  | owner => exact isWritten_word rfl (by decide) (by decide)

theorem Statement.isWritten_render (statement : Statement) :
    IsWritten statement.names statement.render :=
  ⟨statement.breaksIn_render, statement.beginsLine_render⟩

/-- The lines of a block are those of its contents. -/
@[simp] theorem line_mem_block {text : String} {contents : List Step} :
    .line text ∈ block contents ↔ .line text ∈ contents := by
  simp [block]

/-- The lines of statements are made of their names. -/
theorem isWritten_of_mem_bodySteps {body : List Statement} {text : String}
    (hmem : .line text ∈ bodySteps body) : IsWritten (body.flatMap Statement.names) text := by
  obtain ⟨statement, hstatement, heq⟩ := List.mem_map.1 (line_mem_block.1 hmem)
  cases heq
  exact statement.isWritten_render.mono fun name hname => List.mem_flatMap_of_mem hstatement hname

/-- The lines of a field are made of its names. -/
theorem FieldMember.isWritten_of_mem_steps {field : FieldMember} {text : String}
    (hmem : .line text ∈ field.steps) : IsWritten field.names text := by
  rcases List.mem_append.1 hmem with hattribute | hdeclaration
  · obtain ⟨label, hlabel, heq⟩ := List.mem_map.1 hattribute
    cases heq
    have hname : label ∈ field.names := List.mem_append_left _ hlabel
    have hbracket : Begins "[" := begins_of_head rfl (by decide)
    have hopened : IsWritten field.names ("[" ++ label) :=
      ⟨breaksIn_append.2 ⟨breaksIn_of_isUnbroken (by decide), breaksIn_of_mem hname⟩,
        fun hnames => hbracket.beginsLine_append (hnames label hname).ne_nil⟩
    exact hopened.append_fixed (by decide)
  · cases List.mem_singleton.1 hdeclaration
    have hreadOnly : isUnbroken (if field.readOnly then " readonly" else "") = true := by
      split <;> decide
    have htype : field.typeName ∈ field.names := by simp [names]
    have hname : field.name ∈ field.names := by simp [names]
    exact ((((((field.visibility.isWritten_keyword _).append_fixed hreadOnly).append_fixed
      (by decide)).append_name htype).append_fixed (by decide)).append_name hname).append_fixed
      (by decide)

/-- The lines of a property are made of its names. -/
theorem PropertyMember.isWritten_of_mem_steps {property : PropertyMember} {text : String}
    (hmem : .line text ∈ property.steps) : IsWritten property.names text := by
  have htype : property.typeName ∈ property.names := by simp [names]
  have hname : property.name ∈ property.names := by simp [names]
  have hsignature : IsWritten property.names
      (property.visibility.keyword ++ " " ++ property.typeName ++ " " ++ property.name) :=
    ((((property.visibility.isWritten_keyword _).append_fixed (by decide)).append_name
      htype).append_fixed (by decide)).append_name hname
  have hvalue : BreaksIn property.names property.body.value.render :=
    property.body.value.breaksIn_render.mono fun name hmem => by simp [names, hmem]
  unfold steps at hmem
  rcases hbody : property.body with value | value
  all_goals
    rw [hbody] at hmem hvalue
    dsimp only at hmem
  · rw [List.mem_cons, line_mem_block, List.mem_cons, line_mem_block, List.mem_singleton] at hmem
    rcases hmem with heq | heq | heq <;> cases heq
    · exact hsignature
    · exact isWritten_word rfl (by decide) (by decide)
    · have hreturn : IsWritten property.names "return " :=
        isWritten_word rfl (by decide) (by decide)
      exact (hreturn.append hvalue).append_fixed (by decide)
  · cases List.mem_singleton.1 hmem
    exact ((hsignature.append_fixed (by decide)).append hvalue).append_fixed (by decide)

/-- The lines of a constructor are made of its names and the name of its class. -/
theorem ConstructorMember.isWritten_of_mem_steps {constructor : ConstructorMember}
    {className text : String} (hmem : .line text ∈ constructor.steps className) :
    IsWritten (className :: constructor.names) text := by
  rcases List.mem_cons.1 hmem with heq | hbody
  · cases heq
    have hparameters : BreaksIn (className :: constructor.names)
        (String.intercalate ", " (constructor.parameters.map Parameter.render)) := by
      refine breaksIn_intercalate (by decide) fun text htext => ?_
      obtain ⟨parameter, hparameter, rfl⟩ := List.mem_map.1 htext
      have hsub (name : String) (hname : name ∈ parameter.names) :
          name ∈ className :: constructor.names :=
        List.mem_cons_of_mem _ (List.mem_append_left _ (List.mem_flatMap_of_mem hparameter hname))
      simp only [Parameter.render, breaksIn_append]
      exact ⟨⟨breaksIn_of_mem (hsub _ (by simp [Parameter.names])),
        breaksIn_of_isUnbroken (by decide)⟩, breaksIn_of_mem (hsub _ (by simp [Parameter.names]))⟩
    exact (((((constructor.visibility.isWritten_keyword _).append_fixed (by decide)).append_name
      List.mem_cons_self).append_fixed (by decide)).append hparameters).append_fixed (by decide)
  · exact (isWritten_of_mem_bodySteps hbody).mono fun name hname =>
      List.mem_cons_of_mem _ (List.mem_append_right _ hname)

/-- The lines of a method are made of its names. -/
theorem MethodMember.isWritten_of_mem_steps {method : MethodMember} {text : String}
    (hmem : .line text ∈ method.steps) : IsWritten method.names text := by
  rcases List.mem_cons.1 hmem with heq | hbody
  · cases heq
    exact (((method.visibility.isWritten_keyword _).append_fixed (by decide)).append_name
      List.mem_cons_self).append_fixed (by decide)
  · exact (isWritten_of_mem_bodySteps hbody).mono (List.subset_cons_self _ _)

/-- The lines of a member are made of its names and the name of its class. -/
theorem Member.isWritten_of_mem_steps {member : Member} {className text : String}
    (hmem : .line text ∈ member.steps className) : IsWritten (className :: member.names) text := by
  cases member with
  | field declared =>
    exact (FieldMember.isWritten_of_mem_steps hmem).mono (List.subset_cons_self _ _)
  | property declared =>
    exact (PropertyMember.isWritten_of_mem_steps hmem).mono (List.subset_cons_self _ _)
  | constructor declared => exact ConstructorMember.isWritten_of_mem_steps hmem
  | method declared =>
    exact (MethodMember.isWritten_of_mem_steps hmem).mono (List.subset_cons_self _ _)

/-- Nothing but blank lines is written between members. -/
theorem line_mem_followingSteps {className text : String} {previous : Member}
    {members : List Member} :
    .line text ∈ followingSteps className previous members ↔
      ∃ member ∈ members, .line text ∈ member.steps className := by
  induction members generalizing previous with
  | nil => simp [followingSteps]
  | cons next rest ih =>
    have hseparation : .line text ∉ separation previous next := by
      unfold separation
      split <;> simp
    simp only [followingSteps, List.mem_append, hseparation, false_or, ih, List.mem_cons,
      exists_eq_or_imp]

/-- The lines in a class are those of its members. -/
theorem line_mem_memberSteps {className text : String} {members : List Member} :
    .line text ∈ memberSteps className members ↔
      ∃ member ∈ members, .line text ∈ member.steps className := by
  cases members with
  | nil => simp [memberSteps]
  | cons first rest =>
    simp only [memberSteps, List.mem_append, line_mem_followingSteps, List.mem_cons,
      exists_eq_or_imp]

/-- The lines of a class are made of its names. -/
theorem GeneratedClass.isWritten_of_mem_steps {declaration : GeneratedClass} {text : String}
    (hmem : .line text ∈ declaration.steps) : IsWritten declaration.names text := by
  rw [steps, List.mem_cons, line_mem_block, line_mem_memberSteps] at hmem
  rcases hmem with heq | ⟨member, hmember, hline⟩
  · cases heq
    have hpartial : isUnbroken (if declaration.isPartial then " partial" else "") = true := by
      split <;> decide
    have hname : declaration.name ∈ declaration.names := by simp [names]
    have hbases : BreaksIn declaration.names (if declaration.bases.isEmpty then ""
        else " : " ++ String.intercalate ", " declaration.bases) := by
      split
      · exact breaksIn_of_isUnbroken rfl
      · rw [breaksIn_append]
        exact ⟨breaksIn_of_isUnbroken (by decide), breaksIn_intercalate (by decide) fun base hbase =>
          breaksIn_of_mem (by simp [names, hbase])⟩
    exact ((((declaration.visibility.isWritten_keyword _).append_fixed hpartial).append_fixed
      (by decide)).append_name hname).append hbases
  · refine (Member.isWritten_of_mem_steps hline).mono fun name hname => ?_
    rcases List.mem_cons.1 hname with rfl | hname
    · simp [names]
    · exact List.mem_append_right _ (List.mem_flatMap_of_mem hmember hname)

/-- The lines of classes are those of each of them. -/
theorem line_mem_classSteps {text : String} {classes : List GeneratedClass} :
    .line text ∈ classSteps classes ↔ ∃ declaration ∈ classes, .line text ∈ declaration.steps := by
  induction classes using classSteps.induct with
  | case1 => simp [classSteps]
  | case2 only => simp [classSteps]
  | case3 first second rest ih =>
    rw [classSteps, List.mem_append, List.mem_cons, ih]
    simp

/-- The steps of a file after its header. -/
def GeneratedFile.declarationSteps (file : GeneratedFile) : List Step :=
  usingSteps file.usings ++ file.bodySteps

/-- After the header, the lines of a file are made of its names. -/
theorem GeneratedFile.isWritten_of_mem_declarationSteps {file : GeneratedFile} {text : String}
    (hmem : .line text ∈ file.declarationSteps) : IsWritten file.names text := by
  have hclasses (h : .line text ∈ classSteps file.classes) : IsWritten file.names text := by
    obtain ⟨declaration, hdeclaration, hline⟩ := line_mem_classSteps.1 h
    exact (GeneratedClass.isWritten_of_mem_steps hline).mono fun name hname =>
      List.mem_append_right _ (List.mem_flatMap_of_mem hdeclaration hname)
  rcases List.mem_append.1 hmem with husing | hbody
  · unfold usingSteps at husing
    split at husing
    · exact absurd husing List.not_mem_nil
    · rcases List.mem_append.1 husing with hline | hblank
      · obtain ⟨space, hspace, heq⟩ := List.mem_map.1 hline
        cases heq
        have hword : IsWritten file.names "using " := isWritten_word rfl (by decide) (by decide)
        exact (hword.append_name (by simp [names, hspace])).append_fixed (by decide)
      · cases List.mem_singleton.1 hblank
  · unfold bodySteps at hbody
    split at hbody
    · exact hclasses hbody
    · rename_i space hsome
      split at hbody
      · exact hclasses hbody
      · rename_i hnonempty
        rw [List.mem_cons, line_mem_block] at hbody
        rcases hbody with heq | hline
        · cases heq
          have hword : IsWritten file.names "namespace " :=
            isWritten_word rfl (by decide) (by decide)
          exact hword.append_name (by simp [names, hsome, hnonempty])
        · exact hclasses hline

end UxmlBindings.Code
