import UxmlBindings.Proofs.Code.Lexemes

/-!
# How the text of an expression groups

Expressions are written without parentheses around their parts. In their text a cast takes in all the
accesses and calls that follow it, so an access to the value of a cast has the same text as the cast of
an access. Apart from this the text fixes the tree: `read?` reads the text of an expression as its
grouped form, in which every cast stands outside the accesses and calls.
-/

namespace UxmlBindings.Code

/-! ## Grouped expressions -/

/-- What is done to an expression, done to what stands inside all casts around it. -/
def Expression.underCasts (act : Expression → Expression) : Expression → Expression
  | .cast typeName value => .cast typeName (value.underCasts act)
  | expression => act expression

mutual

/-- An expression as its text groups it: every cast takes in the accesses and calls that follow it. -/
def Expression.grouped : Expression → Expression
  | .ident name => .ident name
  | .string value => .string value
  | .member target name guarded => target.grouped.underCasts (.member · name guarded)
  | .call callee arguments =>
    callee.grouped.underCasts (.call · (Expression.listGrouped arguments))
  | .cast typeName value => .cast typeName value.grouped
  | .construct typeName arguments => .construct typeName (Expression.listGrouped arguments)

/-- Arguments as their text groups them. -/
def Expression.listGrouped : List Expression → List Expression
  | [] => []
  | first :: rest => first.grouped :: Expression.listGrouped rest

end

/-- Whether an expression is a cast. -/
def Expression.isCast : Expression → Bool
  | .cast _ _ => true
  | _ => false

mutual

/-- Whether no access and no call in an expression is made on a cast. -/
def Expression.isGrouped : Expression → Bool
  | .ident _ => true
  | .string _ => true
  | .member target _ _ => !target.isCast && target.isGrouped
  | .call callee arguments =>
    !callee.isCast && callee.isGrouped && Expression.allGrouped arguments
  | .cast _ value => value.isGrouped
  | .construct _ arguments => Expression.allGrouped arguments

/-- Whether all arguments are grouped. -/
def Expression.allGrouped : List Expression → Bool
  | [] => true
  | first :: rest => first.isGrouped && Expression.allGrouped rest

end

theorem Expression.underCasts_of_not_isCast {expression : Expression}
    (h : expression.isCast = false) (act : Expression → Expression) :
    expression.underCasts act = act expression := by
  cases expression with
  | cast => cases h
  | _ => rfl

mutual

/-- An expression without accesses to casts and calls of casts is grouped as it stands. -/
theorem Expression.grouped_of_isGrouped :
    (expression : Expression) → expression.isGrouped = true → expression.grouped = expression
  | .ident _, _ => rfl
  | .string _, _ => rfl
  | .member target name guarded, h => by
    simp only [isGrouped, Bool.and_eq_true, Bool.not_eq_true'] at h
    rw [grouped, target.grouped_of_isGrouped h.2, underCasts_of_not_isCast h.1]
  | .call callee arguments, h => by
    simp only [isGrouped, Bool.and_eq_true, Bool.not_eq_true'] at h
    rw [grouped, callee.grouped_of_isGrouped h.1.2,
      Expression.listGrouped_of_allGrouped arguments h.2, underCasts_of_not_isCast h.1.1]
  | .cast typeName value, h => by
    rw [grouped, value.grouped_of_isGrouped h]
  | .construct typeName arguments, h => by
    rw [grouped, Expression.listGrouped_of_allGrouped arguments h]

theorem Expression.listGrouped_of_allGrouped :
    (arguments : List Expression) → Expression.allGrouped arguments = true →
      Expression.listGrouped arguments = arguments
  | [], _ => rfl
  | first :: rest, h => by
    rw [allGrouped, Bool.and_eq_true] at h
    rw [listGrouped, first.grouped_of_isGrouped h.1, Expression.listGrouped_of_allGrouped rest h.2]

end

/-- What is done under the casts around a grouped expression leaves it grouped if it is not done to
casts. -/
theorem Expression.isGrouped_underCasts {act : Expression → Expression}
    (hact : ∀ expression, expression.isCast = false → expression.isGrouped = true →
      (act expression).isGrouped = true)
    (expression : Expression) (h : expression.isGrouped = true) :
    (expression.underCasts act).isGrouped = true := by
  fun_induction Expression.underCasts act expression with
  | case1 typeName value ih => exact ih h
  | case2 expression hcast =>
    refine hact expression ?_ h
    cases expression with
    | cast typeName value => exact absurd rfl (hcast typeName value)
    | _ => rfl

mutual

/-- The grouped form of an expression has no accesses to casts and no calls of casts. -/
theorem Expression.isGrouped_grouped : (expression : Expression) →
    expression.grouped.isGrouped = true
  | .ident _ => rfl
  | .string _ => rfl
  | .member target name guarded =>
    isGrouped_underCasts (fun _ hcast hgrouped => by simp [isGrouped, hcast, hgrouped])
      target.grouped target.isGrouped_grouped
  | .call callee arguments =>
    isGrouped_underCasts
      (fun _ hcast hgrouped => by
        simp [isGrouped, hcast, hgrouped, Expression.allGrouped_listGrouped arguments])
      callee.grouped callee.isGrouped_grouped
  | .cast _ value => value.isGrouped_grouped
  | .construct _ arguments => Expression.allGrouped_listGrouped arguments

theorem Expression.allGrouped_listGrouped : (arguments : List Expression) →
    Expression.allGrouped (Expression.listGrouped arguments) = true
  | [] => rfl
  | first :: rest => by
    rw [listGrouped, allGrouped, first.isGrouped_grouped, Expression.allGrouped_listGrouped rest]
    rfl

end

/-- An expression is grouped as it stands exactly if no access and no call in it is made on a cast. -/
theorem Expression.grouped_eq_self_iff (expression : Expression) :
    expression.grouped = expression ↔ expression.isGrouped = true := by
  constructor
  · intro h
    rw [← h]
    exact expression.isGrouped_grouped
  · exact expression.grouped_of_isGrouped

/-- What is written behind an expression is written behind all casts around it, too. -/
theorem Expression.render_underCasts {act : Expression → Expression} {suffix : String}
    (hact : ∀ expression, (act expression).render = expression.render ++ suffix)
    (expression : Expression) : (expression.underCasts act).render = expression.render ++ suffix := by
  fun_induction Expression.underCasts act expression with
  | case1 typeName value ih => simp only [render, ih, String.append_assoc]
  | case2 expression => exact hact expression

mutual

/-- Grouping an expression does not change its text. -/
theorem Expression.render_grouped : (expression : Expression) →
    expression.grouped.render = expression.render
  | .ident _ => rfl
  | .string _ => rfl
  | .member target name guarded => by
    have hact (expression : Expression) : (Expression.member expression name guarded).render =
        expression.render ++ ((if guarded then "?." else ".") ++ name) := by
      rw [render, String.append_assoc]
    rw [grouped, render_underCasts hact, target.render_grouped, hact]
  | .call callee arguments => by
    have hact (expression : Expression) :
        (Expression.call expression (Expression.listGrouped arguments)).render =
          expression.render ++ ("(" ++ (Expression.renderList arguments ++ ")")) := by
      rw [render, Expression.renderList_listGrouped arguments, String.append_assoc,
        String.append_assoc]
    rw [grouped, render_underCasts hact, callee.render_grouped, render, String.append_assoc,
      String.append_assoc]
  | .cast typeName value => by rw [grouped, render, value.render_grouped, render]
  | .construct typeName arguments => by
    rw [grouped, render, Expression.renderList_listGrouped arguments, render]

theorem Expression.renderList_listGrouped : (arguments : List Expression) →
    Expression.renderList (Expression.listGrouped arguments) = Expression.renderList arguments
  | [] => rfl
  | [only] => by simp only [listGrouped, renderList, only.render_grouped]
  | first :: second :: rest => by
    have hrest := Expression.renderList_listGrouped (second :: rest)
    rw [listGrouped] at hrest
    rw [listGrouped, listGrouped, renderList, first.render_grouped, hrest, renderList]

end

/-! ## Reading an expression -/

/-- What takes arguments: a call of an expression, or the construction of an object. -/
inductive Taker where
  | call (callee : Expression)
  | construct (typeName : String)

/-- The expression that a taker of arguments makes of them. -/
def Taker.expression : Taker → List Expression → Expression
  | .call callee, arguments => .call callee arguments
  | .construct typeName, arguments => .construct typeName arguments

/-- What is still open around the place where the reader stands. -/
inductive Pending where
  | cast (typeName : String)
  /-- Arguments, with those that have been read. -/
  | arguments (taker : Taker) (read : List Expression)

/-- What the reader expects next. -/
inductive Expected where
  | operand
  /-- The first of several arguments, or their end. -/
  | firstArgument
  | castType
  | castEnd (typeName : String)
  | constructedType
  | constructorArguments (typeName : String)
  | memberName (target : Expression) (guarded : Bool)
  /-- What follows a complete operand. -/
  | continuation (value : Expression)

/-- The expectation of the reader and what is open around it, innermost first. -/
abbrev Reader := Expected × List Pending

namespace Reader

/-- Begins an operand, or completes it if it is a word or a literal. -/
def takeOperand (stack : List Pending) : Lexeme → Option Reader
  | .word name =>
    if name = "new" then some (.constructedType, stack) else some (.continuation (.ident name), stack)
  | .literal value => some (.continuation (.string value), stack)
  | .opening => some (.castType, stack)
  | _ => none

/-- An operand that is complete, inside the casts that wait for it. -/
def castAround : Expression → List Pending → Expression × List Pending
  | value, .cast typeName :: stack => castAround (.cast typeName value) stack
  | value, stack => (value, stack)

/-- Goes on after the value of an argument. -/
def takeArgument : Expression × List Pending → Lexeme → Option Reader
  | (value, .arguments taker read :: stack), .comma =>
    some (.operand, .arguments taker (read ++ [value]) :: stack)
  | (value, .arguments taker read :: stack), .closing =>
    some (.continuation (taker.expression (read ++ [value])), stack)
  | _, _ => none

/-- The reader after one lexeme. -/
def next : Reader → Lexeme → Option Reader
  | (.operand, stack), lexeme => takeOperand stack lexeme
  | (.firstArgument, .arguments taker read :: stack), .closing =>
    some (.continuation (taker.expression read), stack)
  | (.firstArgument, stack), lexeme => takeOperand stack lexeme
  | (.castType, stack), .word typeName => some (.castEnd typeName, stack)
  | (.castEnd typeName, stack), .closing => some (.operand, .cast typeName :: stack)
  | (.constructedType, stack), .word typeName => some (.constructorArguments typeName, stack)
  | (.constructorArguments typeName, stack), .opening =>
    some (.firstArgument, .arguments (.construct typeName) [] :: stack)
  | (.memberName target guarded, stack), .word name =>
    some (.continuation (.member target name guarded), stack)
  | (.continuation value, stack), .dot => some (.memberName value false, stack)
  | (.continuation value, stack), .guardedDot => some (.memberName value true, stack)
  | (.continuation value, stack), .opening =>
    some (.firstArgument, .arguments (.call value) [] :: stack)
  | (.continuation value, stack), lexeme => takeArgument (castAround value stack) lexeme
  | _, _ => none

/-- The reader after a sequence of lexemes. -/
def run (reader : Reader) (lexemes : List Lexeme) : Option Reader :=
  lexemes.foldlM next reader

/-- The expression that has been read if nothing but casts is open. -/
def result? : Reader → Option Expression
  | (.continuation value, stack) =>
    match castAround value stack with
    | (expression, []) => some expression
    | _ => none
  | _ => none

theorem run_cons {reader later : Reader} {lexeme : Lexeme} (hnext : next reader lexeme = some later)
    (rest : List Lexeme) : run reader (lexeme :: rest) = run later rest := by
  simp [run, hnext]

theorem run_append {reader later : Reader} {first : List Lexeme}
    (hfirst : run reader first = some later) (second : List Lexeme) :
    run reader (first ++ second) = run later second := by
  rw [run] at hfirst
  simp [run, hfirst]

end Reader

/-- Reads the text of an expression. -/
def Expression.read? (text : String) : Option Expression :=
  (Lexeme.scan text.toList).bind fun lexemes =>
    (Reader.run (.operand, []) lexemes).bind Reader.result?

/-! ## The text is read back -/

/-- What stands inside all casts around an expression. -/
def Expression.innermost : Expression → Expression
  | .cast _ value => value.innermost
  | expression => expression

/-- The casts around an expression, innermost first. -/
def Expression.casts : Expression → List Pending
  | .cast typeName value => value.casts ++ [.cast typeName]
  | _ => []

theorem Expression.innermost_of_not_isCast {expression : Expression}
    (h : expression.isCast = false) : expression.innermost = expression := by
  cases expression with
  | cast => cases h
  | _ => rfl

theorem Expression.casts_of_not_isCast {expression : Expression} (h : expression.isCast = false) :
    expression.casts = [] := by
  cases expression with
  | cast => cases h
  | _ => rfl

section UnderCasts

variable {act : Expression → Expression} (hact : ∀ expression, (act expression).isCast = false)
include hact

theorem Expression.innermost_underCasts (expression : Expression) :
    (expression.underCasts act).innermost = act expression.innermost := by
  fun_induction Expression.underCasts act expression with
  | case1 typeName value ih => exact ih
  | case2 expression hcast =>
    rw [innermost_of_not_isCast (hact expression)]
    cases expression with
    | cast typeName value => exact absurd rfl (hcast typeName value)
    | _ => rfl

theorem Expression.casts_underCasts (expression : Expression) :
    (expression.underCasts act).casts = expression.casts := by
  fun_induction Expression.underCasts act expression with
  | case1 typeName value ih => rw [casts, casts, ih]
  | case2 expression hcast =>
    rw [casts_of_not_isCast (hact expression)]
    cases expression with
    | cast typeName value => exact absurd rfl (hcast typeName value)
    | _ => rfl

end UnderCasts

namespace Reader

/-- The casts around an expression are put around it again. -/
theorem castAround_innermost : (expression : Expression) → (stack : List Pending) →
    castAround expression.innermost (expression.casts ++ stack) = castAround expression stack
  | .cast typeName value, stack => by
    rw [Expression.innermost, Expression.casts, List.append_assoc, castAround_innermost value]
    rfl
  | .ident _, _ | .string _, _ | .member _ _ _, _ | .call _ _, _ | .construct _ _, _ => rfl

/-- The first argument is read like any other operand. -/
theorem run_firstArgument {lexemes : List Lexeme} {stack : List Pending} {reader : Reader}
    (hoperand : run (.operand, stack) lexemes = some reader) (hnonempty : lexemes ≠ []) :
    run (.firstArgument, stack) lexemes = some reader := by
  cases lexemes with
  | nil => exact absurd rfl hnonempty
  | cons lexeme rest =>
    obtain ⟨later, htake, hrest⟩ := Option.bind_eq_some_iff.1 hoperand
    have hnext : next (.firstArgument, stack) lexeme = some later := by
      -- no operand begins with a closing parenthesis
      cases lexeme with
      | closing => cases htake
      | _ => cases stack with
        | nil => exact htake
        | cons pending stack => cases pending <;> exact htake
    rw [run_cons hnext]
    exact hrest

end Reader

/-- No identifier is the word that begins the construction of an object. -/
theorem ne_new_of_isValid {name : String} (hname : Identifier.isValid name = true) : name ≠ "new" := by
  rintro rfl
  exact absurd hname (by decide)

open Reader in
mutual

/-- The lexemes of an expression are read as its grouped form. Its casts are still open after them,
since an access may follow. -/
theorem Expression.run_lexemes (expression : Expression)
    (hnames : ∀ name ∈ expression.names, Identifier.isValid name = true) (stack : List Pending) :
    run (.operand, stack) expression.lexemes =
      some (.continuation expression.grouped.innermost, expression.grouped.casts ++ stack) := by
  cases expression with
  | ident name =>
    have hnew := ne_new_of_isValid (hnames name (List.mem_singleton_self name))
    have hnext : next (.operand, stack) (.word name) = some (.continuation (.ident name), stack) :=
      if_neg hnew
    exact run_cons hnext []
  | string value => rfl
  | member target name guarded =>
    rw [names, List.forall_mem_append] at hnames
    rw [lexemes, run_append (target.run_lexemes hnames.1 stack), grouped,
      innermost_underCasts (fun _ => rfl), casts_underCasts (fun _ => rfl)]
    cases guarded <;> rfl
  | call callee arguments =>
    rw [names, List.forall_mem_append] at hnames
    have harguments := Expression.run_arguments arguments hnames.2
      (.call callee.grouped.innermost) (callee.grouped.casts ++ stack)
    rw [lexemes, List.append_assoc, run_append (callee.run_lexemes hnames.1 stack), grouped,
      innermost_underCasts (fun _ => rfl), casts_underCasts (fun _ => rfl)]
    exact (run_cons rfl _).trans harguments
  | cast typeName value =>
    rw [names, List.forall_mem_cons] at hnames
    have hvalue := value.run_lexemes hnames.2 (.cast typeName :: stack)
    rw [grouped, casts, innermost, List.append_assoc]
    exact hvalue
  | construct typeName arguments =>
    rw [names, List.forall_mem_cons] at hnames
    exact Expression.run_arguments arguments hnames.2 (.construct typeName) stack

/-- The lexemes of arguments and a closing parenthesis are read as what takes the arguments. -/
theorem Expression.run_arguments (arguments : List Expression)
    (hnames : ∀ name ∈ Expression.listNames arguments, Identifier.isValid name = true)
    (taker : Taker) (stack : List Pending) :
    run (.firstArgument, .arguments taker [] :: stack)
        (Expression.listLexemes arguments ++ [.closing]) =
      some (.continuation (taker.expression (Expression.listGrouped arguments)), stack) := by
  by_cases hempty : arguments = []
  · rw [hempty]
    rfl
  · refine run_firstArgument
      (Expression.run_listLexemes arguments hempty hnames taker [] stack) ?_
    simp

/-- The lexemes of the arguments from some argument on, and a closing parenthesis, are read as what
takes these arguments after those before them. -/
theorem Expression.run_listLexemes (arguments : List Expression) (hnonempty : arguments ≠ [])
    (hnames : ∀ name ∈ Expression.listNames arguments, Identifier.isValid name = true)
    (taker : Taker) (read : List Expression) (stack : List Pending) :
    run (.operand, .arguments taker read :: stack)
        (Expression.listLexemes arguments ++ [.closing]) =
      some (.continuation (taker.expression (read ++ Expression.listGrouped arguments)), stack) := by
  cases arguments with
  | nil => exact absurd rfl hnonempty
  | cons first rest =>
    rw [listNames, List.forall_mem_append] at hnames
    have hfirst := first.run_lexemes hnames.1 (.arguments taker read :: stack)
    have hcast := castAround_innermost first.grouped (.arguments taker read :: stack)
    cases rest with
    | nil =>
      have hclosing : next (.continuation first.grouped.innermost,
          first.grouped.casts ++ .arguments taker read :: stack) .closing =
          some (.continuation (taker.expression (read ++ [first.grouped])), stack) := by
        change takeArgument _ _ = _
        rw [hcast]
        rfl
      rw [listLexemes, run_append hfirst]
      exact run_cons hclosing []
    | cons second rest =>
      have hcomma : next (.continuation first.grouped.innermost,
          first.grouped.casts ++ .arguments taker read :: stack) .comma =
          some (.operand, .arguments taker (read ++ [first.grouped]) :: stack) := by
        change takeArgument _ _ = _
        rw [hcast]
        rfl
      have hrest := Expression.run_listLexemes (second :: rest) (List.cons_ne_nil _ _) hnames.2
        taker (read ++ [first.grouped]) stack
      rw [listLexemes, List.append_assoc, run_append hfirst, List.cons_append, run_cons hcomma,
        hrest, List.append_assoc]
      rfl

end

/-- The text of an expression whose names are identifiers is read as the grouped expression. -/
theorem Expression.read?_render_eq {expression : Expression}
    (hnames : ∀ name ∈ expression.names, Identifier.isValid name = true) :
    Expression.read? expression.render = some expression.grouped := by
  have hend : Lexeme.EndsWord [] := fun c hc => by cases hc
  have hscan := expression.scan_render_append hnames hend
  have hnothing : Lexeme.scan [] = some [] := by rw [Lexeme.scan]
  rw [List.append_nil, hnothing, Option.map_some, List.append_nil] at hscan
  rw [read?, hscan, Option.bind_some, expression.run_lexemes hnames, Option.bind_some,
    Reader.result?, Reader.castAround_innermost]
  rfl

/-- Two expressions whose names are identifiers have the same text exactly if they are grouped alike,
and the text is read as the grouped expression. An expression in which no access and no call is made
on a cast is grouped as it stands, so the text determines it among the expressions of this kind. -/
theorem Expression.render_eq_render_iff {first second : Expression}
    (hfirst : ∀ name ∈ first.names, Identifier.isValid name = true)
    (hsecond : ∀ name ∈ second.names, Identifier.isValid name = true) :
    (first.render = second.render ↔ first.grouped = second.grouped) ∧
      (first.isGrouped = true → second.isGrouped = true → first.render = second.render →
        first = second) ∧
      Expression.read? first.render = some first.grouped ∧
      (first.grouped = first ↔ first.isGrouped = true) := by
  have hiff : first.render = second.render ↔ first.grouped = second.grouped := by
    constructor
    · intro hsame
      have hread := Expression.read?_render_eq hfirst
      rw [hsame, Expression.read?_render_eq hsecond] at hread
      exact (Option.some.inj hread).symm
    · intro hsame
      rw [← first.render_grouped, hsame, second.render_grouped]
  refine ⟨hiff, fun hone htwo hsame => ?_, Expression.read?_render_eq hfirst,
    first.grouped_eq_self_iff⟩
  rw [← first.grouped_of_isGrouped hone, hiff.1 hsame, second.grouped_of_isGrouped htwo]

/-- A look-up with two arguments that hold parentheses, commas and quotes. -/
def deepLookup : Expression :=
  .call (.member (.ident "Root") "Q" true)
    [.string "a, (b)\")", .construct "Menu" [.cast "Label" (.ident "_title"), .string ""]]

theorem Expression.render_eq_render_iff_lookup :
    (∀ name ∈ (Expression.member (.cast "Button" deepLookup) "text" false).names,
        Identifier.isValid name = true) ∧
      (∀ name ∈ (Expression.cast "Button" (.member deepLookup "text" false)).names,
        Identifier.isValid name = true) ∧
      (Expression.member (.cast "Button" deepLookup) "text" false).render =
        (Expression.cast "Button" (.member deepLookup "text" false)).render ∧
      Expression.read? (Expression.cast "Button" (.member deepLookup "text" false)).render =
        some (Expression.cast "Button" (.member deepLookup "text" false)) := by
  have hmember : ∀ name ∈ (Expression.member (.cast "Button" deepLookup) "text" false).names,
      Identifier.isValid name = true := by
    decide +kernel
  have hcast : ∀ name ∈ (Expression.cast "Button" (.member deepLookup "text" false)).names,
      Identifier.isValid name = true := by
    decide +kernel
  refine ⟨hmember, hcast, (Expression.render_eq_render_iff hmember hcast).1.2 rfl, ?_⟩
  rw [(Expression.render_eq_render_iff hcast hmember).2.2.1]
  rfl

/-- Access to the value of a cast has the same text as the cast of an access, so the text alone does
not determine the expression. -/
theorem Expression.render_not_injective_castAccess :
    ¬ ∀ first second : Expression,
      (∀ name ∈ first.names, Identifier.isValid name = true) →
      (∀ name ∈ second.names, Identifier.isValid name = true) →
      first.render = second.render → first = second := by
  intro h
  have hsame := h (.member (.cast "Button" (.ident "Root")) "text" false)
    (.cast "Button" (.member (.ident "Root") "text" false))
    (by decide +kernel) (by decide +kernel) rfl
  cases hsame

end UxmlBindings.Code
