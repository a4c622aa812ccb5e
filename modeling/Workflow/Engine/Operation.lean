import Workflow.Definition.Validation
import Workflow.Engine.Advance

/-! The operations that the engine offers. Completions of tasks of one instance take turns under
the lock of the instance; principals are told about new tasks when it has been given back. -/

namespace Workflow.Engine

open Operation

def loadDefinition (id : Uuid) : Operation Definition := do
  found (.noDefinition id) (← store (.loadDefinition id))

def loadInstance (id : Uuid) : Operation Instance := do
  found (.noInstance id) (← store (.loadInstance id))

def loadTask (id : Uuid) : Operation Task := do
  found (.noTask id) (← store (.loadTask id))

/-- Stores a definition as a draft, unless it has errors, or its name and version or its
identifier are taken. -/
def define (definition : Definition) : Operation Uuid := do
  let report := definition.validate
  if !report.isOk then throw (.invalidDefinition report)
  if (← store (.findDefinition definition.name definition.version)).isSome then
    throw (.alreadyDefined definition.name definition.version)
  if (← store (.loadDefinition definition.id)).isSome then throw (.idTaken definition.id)
  let now ← ask .now
  store (.saveDefinition { definition with status := .draft, createdAt := some now })
  return definition.id

/-- Makes a draft active. Of several attempts at once one succeeds. -/
def activate (id : Uuid) : Operation Unit := do
  let definition ← loadDefinition id
  if definition.isActive then throw (.alreadyActive id)
  let report := definition.validate
  if !report.isOk then throw (.invalidDefinition report)
  if !(← store (.transition id .draft .active)) then throw (.activatedConcurrently id)

/-- Tells principals about their new tasks. Nothing depends on what becomes of the messages. -/
def announce (changes : ChangeSet) : Operation Unit := do
  let _ ← ask (.notify (changes.createdTasks.filterMap TaskAssignment.forTask?))

def start (definition : Uuid) (data : Json.Members) (startedBy : String) : Operation Uuid := do
  if Text.Blank startedBy then throw .noStarter
  let definition ← loadDefinition definition
  let now ← ask .now
  let changes ← begin definition data startedBy now
  store (.commit changes)
  announce changes
  return changes.target.id

/-- What completing a task does while the lock of its instance is held. The task is read again,
because somebody else may have completed it. -/
def completeLocked (task : Uuid) (data : Json.Members) (principal : String) :
    Operation ChangeSet := do
  let task ← loadTask task
  let target ← loadInstance task.instanceId
  let definition ← loadDefinition target.definitionId
  let pending ← store (.pendingTasks target.id)
  let now ← ask .now
  let changes ← advance definition target task pending data principal now
  store (.commit changes)
  return changes

def complete (task : Uuid) (data : Json.Members) (principal : String) :
    Operation TaskCompletion := do
  let target := (← loadTask task).instanceId
  ask (.acquire target)
  let result ← ExceptT.lift (completeLocked task data principal).run
  ask (.leave target)
  match result with
  | .error failure =>
    ask (.release target)
    throw failure
  | .ok changes =>
    if changes.target.isCompleted then ask (.release target)
    announce changes
    return {
      instanceId := changes.target.id
      instanceStatus := changes.target.status
      createdTasks := changes.createdTasks }

/-- An instance with its tasks, the pending ones apart from the completed ones. -/
def status (id : Uuid) : Operation StatusView := do
  let target ← loadInstance id
  let tasks ← store (.tasksOf id)
  return {
    target
    pendingTasks := tasks.filter Task.isPending
    completedTasks := tasks.filter fun task => !task.isPending }

def loadInstances : List Uuid → Operation (List Instance)
  | [] => return []
  | id :: rest => do
    let target ← loadInstance id
    return target :: (← loadInstances rest)

/-- The instances in which a principal has pending tasks, in the order of the first such task. -/
def instancesFor (principal : String) : Operation (List Instance) := do
  let tasks ← store (.assignedTasks principal .pending)
  loadInstances (tasks.map (·.instanceId)).eraseDups

def tasksFor (principal : String) (filter : TaskFilter) : Operation (List Task) :=
  store (.assignedTasks principal filter)

end Workflow.Engine
