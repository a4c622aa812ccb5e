import Workflow.Definition.Basic

/-! Running instances of definitions and the tasks they give to principals. -/

namespace Workflow

/-- A completed instance has no pending task and never gets one again. -/
inductive InstanceStatus where
  | running
  | completed
deriving DecidableEq, Repr, Inhabited

instance : Named InstanceStatus where
  noun := "instance status"
  all := [.running, .completed]
  name
    | .running => "running"
    | .completed => "completed"

inductive TaskStatus where
  | pending
  | completed
deriving DecidableEq, Repr, Inhabited

instance : Named TaskStatus where
  noun := "task status"
  all := [.pending, .completed]
  name
    | .pending => "pending"
    | .completed => "completed"

/-- One run of a definition. `pendingSteps` names the step of every pending task, one entry for
each task. -/
structure Instance where
  id : Uuid
  definitionId : Uuid
  definitionVersion : String
  status : InstanceStatus
  data : Json.Members
  pendingSteps : List String
  startedBy : String
  startedAt : Timestamp
  completedAt : Option Timestamp := none
deriving Repr, Inhabited

/-- A unit of work for one step of one instance. -/
structure Task where
  id : Uuid
  instanceId : Uuid
  stepId : String
  status : TaskStatus
  assignee : Option String
  assignedRole : Option String
  priority : Priority
  dueAt : Option Timestamp
  data : Json.Members := []
  completedBy : Option String := none
  completedAt : Option Timestamp := none
  createdAt : Timestamp
deriving Repr, Inhabited

def Task.isPending (task : Task) : Bool :=
  task.status = .pending

/-- The principal and the role that a rule resolves to. -/
structure Assignment where
  principal : Option String := none
  role : Option String := none
deriving DecidableEq, Repr, Inhabited

/-- Which tasks of a principal are listed, and how many at most. -/
structure TaskFilter where
  status : Option TaskStatus := none
  instanceId : Option Uuid := none
  limit : Option Nat := none
deriving DecidableEq, Repr, Inhabited

namespace TaskFilter

def pending : TaskFilter :=
  { status := some .pending }

def admits (filter : TaskFilter) (task : Task) : Bool :=
  (filter.status.all fun status => task.status = status) &&
    (filter.instanceId.all fun id => task.instanceId = id)

end TaskFilter

/-- What one operation writes: the new state of its instance and the tasks made or changed. -/
structure ChangeSet where
  target : Instance
  tasks : List Task
deriving Repr, Inhabited

def ChangeSet.createdTasks (changes : ChangeSet) : List Task :=
  changes.tasks.filter Task.isPending

structure StatusView where
  target : Instance
  pendingTasks : List Task
  completedTasks : List Task
deriving Repr, Inhabited

structure TaskCompletion where
  instanceId : Uuid
  instanceStatus : InstanceStatus
  createdTasks : List Task
deriving Repr, Inhabited

/-- What a principal is told about a task of theirs. -/
structure TaskAssignment where
  taskId : Uuid
  instanceId : Uuid
  stepId : String
  principal : String
  priority : Priority
  dueAt : Option Timestamp
deriving DecidableEq, Repr, Inhabited

/-- A task without an assignee has nobody to tell. -/
def TaskAssignment.forTask? (task : Task) : Option TaskAssignment :=
  task.assignee.map fun principal =>
    { taskId := task.id
      instanceId := task.instanceId
      stepId := task.stepId
      principal
      priority := task.priority
      dueAt := task.dueAt }

end Workflow
