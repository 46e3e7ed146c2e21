import UxmlBindings.Workspace.Operations

/-!
# Runs of operations

A project goes from one workspace to the next by operations, in any order and with any arguments. A
failure ends that operation but not the run. That settings could not be saved shows in what the
operation yields: it is the failure of the operation, or is reported among the failures of a batch.
Between operations, the files of a project can be changed by others.
-/

namespace UxmlBindings.Workspace

open Files

/-- An operation on a project with its arguments. -/
inductive Operation where
  | enable (path : String)
  | disable (path : String)
  | change (path : String) (edit : AssetOptions → AssetOptions)
  | openAsset (path : String)
  | writeBindings (path : String)
  | writeScript (path : String)
  | writeAllBindings
  | removeBindings (path : String)
  | removeAllBindings

/-- The workspace after an operation, whether it failed or not. -/
def Operation.after (operation : Operation) (workspace : Workspace) : Workspace :=
  match operation with
  | .enable path => ((Workspace.enable path).execute workspace).2
  | .disable path => ((Workspace.disable path).execute workspace).2
  | .change path edit => ((Workspace.change path edit).execute workspace).2
  | .openAsset path => ((Workspace.openAsset path).execute workspace).2
  | .writeBindings path => ((Workspace.writeBindings path).execute workspace).2
  | .writeScript path => ((Workspace.writeScript path).execute workspace).2
  | .writeAllBindings => (Workspace.writeAllBindings.execute workspace).2
  | .removeBindings path => ((Workspace.removeBindings path).execute workspace).2
  | .removeAllBindings => (Workspace.removeAllBindings.execute workspace).2

/-- The workspace after a sequence of operations. -/
def afterAll (operations : List Operation) (workspace : Workspace) : Workspace :=
  operations.foldl (fun workspace operation => operation.after workspace) workspace

/-- What an operation yields. -/
inductive Yield where
  | nothing
  | setting (setting : Option AssetOptions)
  | asset (asset : Asset)
  | report (report : Report)
  | batch (result : BatchResult)
  | removed (path : Option Pathname)
  | removal (report : RemovalReport)

/-- What comes of an operation. -/
def Operation.outcome (operation : Operation) (workspace : Workspace) : Except Failure Yield :=
  match operation with
  | .enable path =>
    ((Workspace.enable path).execute workspace).1.map fun setting => .setting (some setting)
  | .disable path => ((Workspace.disable path).execute workspace).1.map .setting
  | .change path edit => ((Workspace.change path edit).execute workspace).1.map fun _ => .nothing
  | .openAsset path => ((Workspace.openAsset path).execute workspace).1.map .asset
  | .writeBindings path => ((Workspace.writeBindings path).execute workspace).1.map .report
  | .writeScript path => ((Workspace.writeScript path).execute workspace).1.map .report
  | .writeAllBindings => (Workspace.writeAllBindings.execute workspace).1.map .batch
  | .removeBindings path => ((Workspace.removeBindings path).execute workspace).1.map .removed
  | .removeAllBindings => (Workspace.removeAllBindings.execute workspace).1.map .removal

/-- Whether a failure is one of saving the settings. -/
def Failure.isUnsaved : Failure → Bool
  | .settings _ => true
  | _ => false

/-- The failures that an outcome tells of. -/
def failuresOf : Except Failure Yield → List Failure
  | .error failure => [failure]
  | .ok (.batch result) => result.failed.map (·.2)
  | .ok (.removal report) => report.failures
  | .ok _ => []

/-- Whether the settings could not be saved in the course of an operation. -/
def Operation.saveFails (operation : Operation) (workspace : Workspace) : Bool :=
  (failuresOf (operation.outcome workspace)).any Failure.isUnsaved

/-- A change of a setting keeps the path of the last bindings. -/
def Operation.KeepsRecords : Operation → Prop
  | .change _ edit => ∀ setting, (edit setting).lastBindings = setting.lastBindings
  | _ => True

/-- What every operation preserves, a run preserves. -/
theorem afterAll_induction {invariant : Workspace → Prop} {operations : List Operation}
    {workspace : Workspace} (hstart : invariant workspace)
    (hstep : ∀ operation ∈ operations, ∀ workspace, invariant workspace →
      invariant (operation.after workspace)) :
    invariant (afterAll operations workspace) := by
  induction operations generalizing workspace with
  | nil => exact hstart
  | cons operation rest ih =>
    refine ih (hstep operation (by simp) workspace hstart) fun other hother => ?_
    exact hstep other (List.mem_cons_of_mem operation hother)

/-- What happens to a project: an operation, or a change of its files by others. -/
inductive Event where
  | own (operation : Operation)
  | outside (tree : FileTree)

/-- The workspace after an event. -/
def Event.after : Event → Workspace → Workspace
  | .own operation, workspace => operation.after workspace
  | .outside tree, workspace => { workspace with tree }

/-- What comes of an event, if it is an operation. -/
def Event.outcome? : Event → Workspace → Option (Except Failure Yield)
  | .own operation, workspace => some (operation.outcome workspace)
  | .outside _, _ => none

/-- The workspace after a sequence of events. -/
def afterEvents (events : List Event) (workspace : Workspace) : Workspace :=
  events.foldl (fun workspace event => event.after workspace) workspace

/-- What comes of the operations in a sequence of events. -/
def outcomes : List Event → Workspace → List (Except Failure Yield)
  | [], _ => []
  | event :: rest, workspace => (event.outcome? workspace).toList ++ outcomes rest (event.after workspace)

/-- A condition holds of every event of a sequence, in the workspace in which it happens. -/
def Throughout (holds : Event → Workspace → Prop) : List Event → Workspace → Prop
  | [], _ => True
  | event :: rest, workspace => holds event workspace ∧ Throughout holds rest (event.after workspace)

theorem throughout_append {holds : Event → Workspace → Prop} {before after : List Event}
    {workspace : Workspace} :
    Throughout holds (before ++ after) workspace ↔
      Throughout holds before workspace ∧ Throughout holds after (afterEvents before workspace) := by
  induction before generalizing workspace with
  | nil => exact ⟨fun h => ⟨trivial, h⟩, fun h => h.2⟩
  | cons event rest ih => exact (and_congr_right fun _ => ih).trans and_assoc.symm

theorem afterEvents_concat (events : List Event) (event : Event) (workspace : Workspace) :
    afterEvents (events ++ [event]) workspace = event.after (afterEvents events workspace) := by
  rw [afterEvents, List.foldl_append]
  rfl

end UxmlBindings.Workspace
