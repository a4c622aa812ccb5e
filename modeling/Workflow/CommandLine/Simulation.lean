import Workflow.CommandLine.Command
import Workflow.CommandLine.Files
import Workflow.Engine.Operation
import Workflow.Json.Parser

/-! The command that runs a definition. It starts an instance and completes the first pending task,
as somebody who is to do it, until none is left or it has done so often enough. A simulation is a
program like the operations it is made of, and leaves a record of events. -/

namespace Workflow

/-- What a simulation does, in the order in which it does it. -/
inductive SimulationEvent where
  | started (target : Uuid)
  | completed (number : Nat) (stepId principal : String) (created : List String)
  | reached (target : Uuid) (status : InstanceStatus) (data : Json.Members)

def SimulationEvent.text : SimulationEvent → String
  | started target => "started instance " ++ target.text
  | completed number stepId principal created =>
    "#" ++ CommandFault.count number ++ " " ++ stepId ++ " completed by " ++ principal ++ " -> " ++
      CommandFault.listed created
  | reached target status data =>
    "instance " ++ target.text ++ " is " ++ Named.name status ++ " with data " ++
      (Json.object data).render

/-- A program that leaves events behind, also where it fails. -/
abbrev Simulation (α : Type) := ExceptT CommandFault (StateT (List SimulationEvent) Program) α

structure Plan where
  data : Json.Members
  completions : List (String × Json.Members)
  directory : Directory
  principal : String
  maxSteps : Nat

namespace Simulation

def perform {α : Type} (operation : Operation α) : Simulation α := do
  match ← ExceptT.lift (StateT.lift operation.run) with
  | .ok value => return value
  | .error failure => throw (.operation failure)

def record (event : SimulationEvent) : Simulation Unit :=
  ExceptT.lift (modify (· ++ [event]))

def readObject (text : String) : Except ObjectFault Json.Members :=
  match Json.parse text with
  | .ok (.object members) => .ok members
  | .ok value => .error (.otherValue value)
  | .error fault => .error (.malformed fault)

/-- Reads a step and the data to complete it with, which an equals sign parts. -/
def readCompletion (text : String) : Except CommandFault (String × Json.Members) :=
  let chars := text.toList
  match chars.dropWhile (· ≠ '=') with
  | _ :: object => do
    let data ← (readObject (String.ofList object)).mapError .invalidCompletion
    return (String.ofList (chars.takeWhile (· ≠ '=')), data)
  | [] => .error (.noCompletion text)

/-- The plan that options ask for; `directoryFile` is the directory where they name none. -/
def plan (files : Files) (directoryFile : Option String) (options : SimulateOptions) :
    Except CommandFault Plan := do
  let data ← (readObject options.data).mapError .invalidData
  let completions ← options.completions.mapM readCompletion
  let directory ← match options.directory.or directoryFile with
    | some path => files.directory path
    | none => pure {}
  return {
    data
    completions
    directory
    principal := options.principal
    maxSteps := options.maxSteps }

/-- Who completes a task: its assignee, else the first holder of its role, else somebody else. -/
def completer (directory : Directory) (fallback : String) (task : Task) : String :=
  match task.assignee with
  | some principal => principal
  | none => (task.assignedRole.bind fun role => (directory.holders role).head?).getD fallback

def dataFor (plan : Plan) (stepId : String) : Json.Members :=
  (plan.completions.lookup stepId).getD []

/-- Stores a definition, or takes the stored one of the same name and version. -/
def store (definition : Definition) : Simulation Uuid := do
  match ← ExceptT.lift (StateT.lift (Engine.define definition).run) with
  | .ok id => return id
  | .error failure =>
    if failure.kind = .invalidState then
      match ← perform (Operation.store (.findDefinition definition.name definition.version)) with
      | some stored => return stored.id
      | none => throw (.definitionGone definition.name definition.version)
    else throw (.operation failure)

def register (files : Files) (path : String) : Simulation Uuid := do
  let fresh ← perform (Operation.ask .freshId)
  let definition ← ExceptT.mk (pure (files.definition path fresh))
  let id ← store definition
  if (← perform (Engine.loadDefinition id)).status = .draft then
    perform (Engine.activate id)
  return id

/-- Completes pending tasks until none or no step is left. -/
def completeTasks (plan : Plan) (target : Uuid) : Nat → Simulation Unit
  | 0 => return
  | left + 1 => do
    match (← perform (Engine.status target)).pendingTasks with
    | [] => return
    | task :: _ =>
      let principal := completer plan.directory plan.principal task
      let completion ← perform (Engine.complete task.id (dataFor plan task.stepId) principal)
      record (.completed (plan.maxSteps - left) task.stepId principal
        (completion.createdTasks.map (·.stepId)))
      completeTasks plan target left

def simulate (files : Files) (path : String) (plan : Plan) : Simulation Unit := do
  let definition ← register files path
  let target ← perform (Engine.start definition plan.data plan.principal)
  record (.started target)
  completeTasks plan target plan.maxSteps
  let view ← perform (Engine.status target)
  record (.reached target view.target.status view.target.data)
  if view.target.status ≠ .completed then
    throw (.stopped plan.maxSteps (view.pendingTasks.map (·.stepId)))

end Simulation

end Workflow
