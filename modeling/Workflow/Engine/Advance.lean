import Workflow.Engine.Assignee
import Workflow.Engine.Routing
import Workflow.Timestamp.Span

/-! How instances begin and move on. Each operation takes the records it needs and gives back what
is to be written, as one unit; it does not write anything itself. -/

namespace Workflow

/-- The time by which a task for a step is due, as far as it can be represented. -/
def Step.dueAt (step : Step) (now : Timestamp) : Option Timestamp :=
  ((step.dueInSeconds.bind signedWord?).bind Span.ofSeconds?).bind now.add?

namespace Instance

def begin (id : Uuid) (definition : Definition) (data : Json.Members) (startedBy : String)
    (now : Timestamp) : Instance :=
  { id
    definitionId := definition.id
    definitionVersion := definition.version
    status := .running
    data
    pendingSteps := []
    startedBy
    startedAt := now }

def isCompleted (target : Instance) : Bool :=
  target.status = .completed

/-- The instance with these pending steps; without any it is complete. -/
def withPending (steps : List String) (now : Timestamp) (target : Instance) : Instance :=
  if steps.isEmpty then
    { target with pendingSteps := steps, status := .completed, completedAt := some now }
  else
    { target with pendingSteps := steps }

end Instance

namespace Task

def make (id : Uuid) (target : Instance) (step : Step) (assignment : Assignment)
    (now : Timestamp) : Task :=
  { id
    instanceId := target.id
    stepId := step.id
    status := .pending
    assignee := assignment.principal
    assignedRole := assignment.role
    priority := step.priority
    dueAt := step.dueAt now
    createdAt := now }

def complete (data : Json.Members) (principal : String) (now : Timestamp) (task : Task) : Task :=
  { task with
    status := .completed
    data
    completedBy := some principal
    completedAt := some now }

end Task

namespace Engine

def createTask (target : Instance) (step : Step) (principal : String) (now : Timestamp) :
    Operation Task := do
  let assignment ← AssignmentRule.resolve step.assign target.data principal
  let id ← Operation.ask .freshId
  return Task.make id target step assignment now

/-- Makes the tasks for arrivals in order. A transition to a step that is not there ends it. -/
def createTasks (target : Instance) (principal : String) (now : Timestamp) :
    List Arrival → Operation (List Task)
  | [] => return []
  | .dangling source missing :: _ => throw (.danglingTransition source missing)
  | .step step :: rest => do
    let task ← createTask target step principal now
    return task :: (← createTasks target principal now rest)

/-- Begins an instance of an active definition with one task, for the start step. -/
def begin (definition : Definition) (data : Json.Members) (startedBy : String)
    (now : Timestamp) : Operation ChangeSet := do
  if !definition.isActive then
    throw (.notActive definition.name definition.version definition.status)
  match definition.startStep? with
  | none => throw (.startStepMissing definition.start definition.name)
  | some start =>
    let id ← Operation.ask .freshId
    let target := Instance.begin id definition data startedBy now
    let task ← createTask target start startedBy now
    return { target := { target with pendingSteps := [task.stepId] }, tasks := [task] }

/-- Passes where a principal may complete a task: as its assignee, as a holder of its role, or
because it has neither. -/
def authorize (task : Task) (principal : String) : Operation Unit := do
  if task.assignee = some principal then return ()
  match task.assignedRole, task.assignee with
  | some role, _ =>
    if ← Operation.attempt (.hasRole principal role) then return ()
    else throw (.notAllowed principal task.id)
  | none, none => return ()
  | none, some _ => throw (.notAllowed principal task.id)

/-- The steps of the tasks that stay pending and of those that are new. -/
def pendingSteps (completed : Uuid) (pending created : List Task) : List String :=
  ((pending.filter fun task => task.id ≠ completed ∧ task.isPending) ++ created).map (·.stepId)

/-- Completes a task of an instance whose pending tasks are known, and makes the tasks that follow
it. Its data is put over the data of the instance first. -/
def advance (definition : Definition) (target : Instance) (task : Task) (pending : List Task)
    (data : Json.Members) (principal : String) (now : Timestamp) : Operation ChangeSet := do
  if !task.isPending then throw (.taskAlreadyCompleted task.id)
  if target.isCompleted then throw (.instanceAlreadyCompleted target.id)
  if task.instanceId ≠ target.id ∨ target.definitionId ≠ definition.id then
    throw (.foreignTask task.id target.id)
  authorize task principal
  match definition.step? task.stepId with
  | none => throw (.stepMissing task.stepId definition.name)
  | some step =>
    let target := { target with data := Json.Members.overlay target.data data }
    let created ← createTasks target principal now (definition.arrivals target.data step)
    return {
      target := target.withPending (pendingSteps task.id pending created) now
      tasks := task.complete data principal now :: created }

end Engine

end Workflow
