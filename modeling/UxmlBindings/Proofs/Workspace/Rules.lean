import UxmlBindings.Proofs.Workspace.Actions

/-!
# Rules that actions keep

A rule is a condition on workspaces together with a bound on how a workspace may differ from an
earlier one. An action keeps a rule from a workspace on if the condition holds afterwards, whether
the action fails or not, and the workspace differs no further than allowed. Rules are kept step by
step, through attempts and through loops, so an operation keeps a rule if its parts do.
-/

namespace UxmlBindings.Workspace

open Files Settings

/-- A condition on workspaces and a bound on their changes. Notices never matter. -/
structure Rule where
  holds : Workspace → Prop
  allows : Workspace → Workspace → Prop
  refl : ∀ workspace, allows workspace workspace
  trans : ∀ {first second third}, allows first second → allows second third → allows first third
  holds_quiet : ∀ workspace notices, holds workspace → holds (workspace.withNotices notices)
  allows_quiet : ∀ workspace notices, allows workspace (workspace.withNotices notices)

/-- From a workspace on, an action keeps a rule, and what it yields is as required. -/
structure Keeps {α : Type} (rule : Rule) (workspace : Workspace) (action : WorkspaceM α)
    (yields : α → Prop) : Prop where
  holds : rule.holds (action.execute workspace).2
  allows : rule.allows workspace (action.execute workspace).2
  yields : ∀ value, (action.execute workspace).1 = .ok value → yields value

variable {rule : Rule} {workspace later : Workspace} {α β : Type} {yields : α → Prop}

/-- An action that is known to end in a workspace keeps what holds there. -/
theorem Keeps.of_execute {action : WorkspaceM α} {outcome : Except Failure α}
    (hexecute : action.execute workspace = (outcome, later)) (hholds : rule.holds later)
    (hallows : rule.allows workspace later) (hyields : ∀ value, outcome = .ok value → yields value) :
    Keeps rule workspace action yields := by
  constructor <;> rw [hexecute] <;> assumption

/-- An action that changes no more than notices keeps every rule. -/
theorem Keeps.of_quiet {action : WorkspaceM α} {outcome : Except Failure α}
    (hexecute : ∃ notices, action.execute workspace = (outcome, workspace.withNotices notices))
    (hholds : rule.holds workspace) (hyields : ∀ value, outcome = .ok value → yields value) :
    Keeps rule workspace action yields := by
  obtain ⟨notices, hexecute⟩ := hexecute
  exact .of_execute hexecute (rule.holds_quiet _ _ hholds) (rule.allows_quiet _ _) hyields

theorem keeps_pure {value : α} (hholds : rule.holds workspace) (hyields : yields value) :
    Keeps rule workspace (pure value) yields :=
  .of_execute (execute_pure workspace value) hholds (rule.refl workspace) fun other hother => by
    rw [← Except.ok.inj hother]
    exact hyields

theorem keeps_throw (failure : Failure) (hholds : rule.holds workspace) :
    Keeps rule workspace (throw failure) yields :=
  .of_execute (execute_throw workspace failure) hholds (rule.refl workspace) nofun

theorem keeps_notify (notice : Notice) (hholds : rule.holds workspace) :
    Keeps rule workspace (notify notice) fun _ => True :=
  .of_quiet ⟨_, execute_notify workspace notice⟩ hholds fun _ _ => trivial

/-- An action that looks at the workspace is one for every workspace. -/
theorem keeps_get_bind {next : Workspace → WorkspaceM α}
    (hnext : Keeps rule workspace (next workspace) yields) :
    Keeps rule workspace (get >>= next) yields :=
  ⟨hnext.holds, hnext.allows, hnext.yields⟩

/-- What keeps a rule step by step keeps it. -/
theorem Keeps.bind {action : WorkspaceM α} {next : α → WorkspaceM β} {yields' : β → Prop}
    (haction : Keeps rule workspace action yields)
    (hnext : ∀ value later, yields value → rule.holds later → Keeps rule later (next value) yields') :
    Keeps rule workspace (action >>= next) yields' := by
  obtain ⟨hholds, hallows, hyields⟩ := haction
  rcases hexecute : action.execute workspace with ⟨outcome, later⟩
  rw [hexecute] at hholds hallows hyields
  cases outcome with
  | error failure => exact .of_execute (execute_bind_error hexecute next) hholds hallows nofun
  | ok value =>
    obtain ⟨hholds', hallows', hyields'⟩ := hnext value later (hyields value rfl) hholds
    have hbind := execute_bind_ok hexecute next
    constructor <;> rw [hbind]
    · exact hholds'
    · exact rule.trans hallows hallows'
    · exact hyields'

/-- An attempt keeps the rule that the action keeps. -/
theorem keeps_attempt {action : WorkspaceM α} (haction : Keeps rule workspace action yields) :
    Keeps rule workspace (attempt action) fun outcome =>
      ∀ value, outcome = .ok value → yields value :=
  .of_execute (execute_attempt workspace action) haction.holds haction.allows fun outcome houtcome => by
    rw [← Except.ok.inj houtcome]
    exact haction.yields

/-- A loop keeps the rule that every step of it keeps. -/
theorem keeps_foldlM {step : α → β → WorkspaceM α} {values : List β}
    (hstep : ∀ value ∈ values, ∀ result later, rule.holds later →
      Keeps rule later (step result value) fun _ => True)
    (result : α) (hholds : rule.holds workspace) :
    Keeps rule workspace (values.foldlM step result) fun _ => True := by
  induction values generalizing workspace result with
  | nil => exact keeps_pure hholds trivial
  | cons value rest ih =>
    rw [List.foldlM_cons]
    refine (hstep value (by simp) result workspace hholds).bind fun next later _ hlater => ?_
    exact ih (fun other hother => hstep other (List.mem_cons_of_mem value hother)) next hlater

/-- Runs for the bindings of several files keep the rule that every run keeps. -/
theorem keeps_writeEach
    (hrun : ∀ path later, rule.holds later → Keeps rule later (writeBindings path) fun _ => True)
    (paths : List String) (hholds : rule.holds workspace) :
    Keeps rule workspace (writeEach paths) fun _ => True := by
  induction paths generalizing workspace with
  | nil => exact keeps_pure hholds trivial
  | cons path rest ih =>
    rw [writeEach]
    refine (keeps_attempt (hrun path workspace hholds)).bind fun outcome later _ hlater => ?_
    cases outcome with
    | ok report => exact (ih hlater).bind fun _ _ _ hlast => keeps_pure hlast trivial
    | error failure =>
      refine (keeps_notify _ hlater).bind fun _ noted _ hnoted => ?_
      exact (ih hnoted).bind fun _ _ _ hlast => keeps_pure hlast trivial

/-- A rule permits that bindings files are removed, and the files that describe them. -/
def Rule.PermitsRemoval (rule : Rule) : Prop :=
  ∀ workspace path tree, rule.holds workspace → isBindingsPath path = true →
    workspace.tree.removeFile path = .ok tree →
    rule.holds (workspace.withTree tree) ∧ rule.allows workspace (workspace.withTree tree)

section Removal

variable {report : RemovalReport}

theorem keeps_removeListed (hrule : rule.PermitsRemoval) {path : Pathname}
    (hpath : isBindingsPath path = true) (hholds : rule.holds workspace) :
    Keeps rule workspace (removeListed report path) fun _ => True := by
  apply keeps_get_bind
  split
  · rename_i tree htree
    obtain ⟨hremoved, hallows⟩ := hrule workspace path tree hholds hpath htree
    have hset : Keeps rule workspace (setTree tree) fun _ => True :=
      .of_execute (execute_setTree workspace tree) hremoved hallows fun _ _ => trivial
    exact hset.bind fun _ _ _ hlast => keeps_pure hlast trivial
  · exact (keeps_notify _ hholds).bind fun _ _ _ hnoted => keeps_pure hnoted trivial

theorem keeps_removeSighted (hrule : rule.PermitsRemoval) (sighting : FileTree.Sighting)
    (hholds : rule.holds workspace) :
    Keeps rule workspace (removeSighted report sighting) fun _ => True := by
  cases sighting with
  | file path =>
    rw [removeSighted]
    split
    · rename_i hpath
      exact keeps_removeListed hrule hpath hholds
    · exact keeps_pure hholds trivial
  | closed directory fault =>
    exact (keeps_notify _ hholds).bind fun _ _ _ hnoted => keeps_pure hnoted trivial

/-- Removing all bindings files below a directory keeps a rule that permits it for each of them. -/
theorem keeps_removeBelow (hrule : rule.PermitsRemoval) (directory : Pathname)
    (hholds : rule.holds workspace) :
    Keeps rule workspace (removeBelow report directory) fun _ => True := by
  apply keeps_get_bind
  split
  · exact keeps_foldlM (fun sighting _ _ _ => keeps_removeSighted hrule sighting) report hholds
  · exact keeps_pure hholds trivial

end Removal

end UxmlBindings.Workspace
