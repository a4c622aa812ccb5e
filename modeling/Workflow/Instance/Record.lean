import Workflow.Definition.Record
import Workflow.Instance.Basic

/-! The written form of instances, tasks and what is said about them, and how it is read. -/

namespace Workflow

open Document

variable {Node : Type}

namespace Instance

def toJson (target : Instance) : Json :=
  .record [("id", some (writeId target.id)),
    ("definition_id", some (writeId target.definitionId)),
    ("definition_version", some (.string target.definitionVersion)),
    ("status", some (writeNamed target.status)), ("data", some (.object target.data)),
    ("pending_steps", some (Json.ofStrings target.pendingSteps)),
    ("started_by", some (.string target.startedBy)),
    ("started_at", some (writeTime target.startedAt)),
    ("completed_at", target.completedAt.map writeTime)]

def fields : List String :=
  ["id", "definition_id", "definition_version", "status", "data", "pending_steps", "started_by",
    "started_at", "completed_at"]

def noun : String := "struct Instance"

def read (format : Format Node) : Place → Node → Reading Instance :=
  format.readRecord noun fields fun source => do
    let id := source.field "id" (readUuid format)
    let definitionId := source.field "definition_id" (readUuid format)
    let definitionVersion := source.field "definition_version" (readText format)
    let status := source.field "status" (readNamed format)
    let data := source.field "data" (readObject format)
    let pendingSteps := source.field "pending_steps" (format.readSequence (readText format))
    let startedBy := source.field "started_by" (readText format)
    let startedAt := source.field "started_at" (readTimestamp format)
    let completedAt := source.optional "completed_at" (readTimestamp format)
    source.check [("id", id.problem?), ("definition_id", definitionId.problem?),
      ("definition_version", definitionVersion.problem?), ("status", status.problem?),
      ("data", data.problem?), ("pending_steps", pendingSteps.problem?),
      ("started_by", startedBy.problem?), ("started_at", startedAt.problem?),
      ("completed_at", completedAt.problem?)]
    return {
      id := ← source.required "id" noun id
      definitionId := ← source.required "definition_id" noun definitionId
      definitionVersion := ← source.required "definition_version" noun definitionVersion
      status := ← source.required "status" noun status
      data := ← source.required "data" noun data
      pendingSteps := ← source.required "pending_steps" noun pendingSteps
      startedBy := ← source.required "started_by" noun startedBy
      startedAt := ← source.required "started_at" noun startedAt
      completedAt := ← source.unsetUnlessListed "completed_at" noun completedAt }

end Instance

namespace Task

def toJson (task : Task) : Json :=
  .record [("id", some (writeId task.id)), ("instance_id", some (writeId task.instanceId)),
    ("step_id", some (.string task.stepId)), ("status", some (writeNamed task.status)),
    ("assignee", task.assignee.map .string), ("assigned_role", task.assignedRole.map .string),
    ("priority", some (writeNamed task.priority)), ("due_at", task.dueAt.map writeTime),
    ("data", some (.object task.data)), ("completed_by", task.completedBy.map .string),
    ("completed_at", task.completedAt.map writeTime),
    ("created_at", some (writeTime task.createdAt))]

def fields : List String :=
  ["id", "instance_id", "step_id", "status", "assignee", "assigned_role", "priority", "due_at",
    "data", "completed_by", "completed_at", "created_at"]

def noun : String := "struct Task"

def read (format : Format Node) : Place → Node → Reading Task :=
  format.readRecord noun fields fun source => do
    let id := source.field "id" (readUuid format)
    let instanceId := source.field "instance_id" (readUuid format)
    let stepId := source.field "step_id" (readText format)
    let status := source.field "status" (readNamed format)
    let assignee := source.optional "assignee" (readText format)
    let assignedRole := source.optional "assigned_role" (readText format)
    let priority := source.field "priority" (readNamed format)
    let dueAt := source.optional "due_at" (readTimestamp format)
    let data := source.field "data" (readObject format)
    let completedBy := source.optional "completed_by" (readText format)
    let completedAt := source.optional "completed_at" (readTimestamp format)
    let createdAt := source.field "created_at" (readTimestamp format)
    source.check [("id", id.problem?), ("instance_id", instanceId.problem?),
      ("step_id", stepId.problem?), ("status", status.problem?),
      ("assignee", assignee.problem?), ("assigned_role", assignedRole.problem?),
      ("priority", priority.problem?), ("due_at", dueAt.problem?), ("data", data.problem?),
      ("completed_by", completedBy.problem?), ("completed_at", completedAt.problem?),
      ("created_at", createdAt.problem?)]
    return {
      id := ← source.required "id" noun id
      instanceId := ← source.required "instance_id" noun instanceId
      stepId := ← source.required "step_id" noun stepId
      status := ← source.required "status" noun status
      assignee := ← source.unsetUnlessListed "assignee" noun assignee
      assignedRole := ← source.unsetUnlessListed "assigned_role" noun assignedRole
      priority := ← source.required "priority" noun priority
      dueAt := ← source.unsetUnlessListed "due_at" noun dueAt
      data := ← data.orDefault []
      completedBy := ← source.unsetUnlessListed "completed_by" noun completedBy
      completedAt := ← source.unsetUnlessListed "completed_at" noun completedAt
      createdAt := ← source.required "created_at" noun createdAt }

end Task

namespace Assignment

def toJson (assignment : Assignment) : Json :=
  .record [("principal", some (.optional (assignment.principal.map .string))),
    ("role", some (.optional (assignment.role.map .string)))]

def fields : List String := ["principal", "role"]

def noun : String := "struct Assignment"

def read (format : Format Node) : Place → Node → Reading Assignment :=
  format.readRecord noun fields fun source => do
    let principal := source.optional "principal" (readText format)
    let role := source.optional "role" (readText format)
    source.check [("principal", principal.problem?), ("role", role.problem?)]
    return {
      principal := ← source.unsetUnlessListed "principal" noun principal
      role := ← source.unsetUnlessListed "role" noun role }

end Assignment

namespace TaskFilter

def toJson (filter : TaskFilter) : Json :=
  .record [("status", some (.optional (filter.status.map writeNamed))),
    ("instance_id", some (.optional (filter.instanceId.map writeId))),
    ("limit", some (.optional (filter.limit.map Json.nat)))]

def fields : List String := ["status", "instance_id", "limit"]

def noun : String := "struct TaskFilter"

def read (format : Format Node) : Place → Node → Reading TaskFilter :=
  format.readRecord noun fields fun source => do
    let status := source.optional "status" (readNamed format)
    let instanceId := source.optional "instance_id" (readUuid format)
    let limit := source.optional "limit" (readSize format)
    source.check [("status", status.problem?), ("instance_id", instanceId.problem?),
      ("limit", limit.problem?)]
    return {
      status := ← source.unsetUnlessListed "status" noun status
      instanceId := ← source.unsetUnlessListed "instance_id" noun instanceId
      limit := ← source.unsetUnlessListed "limit" noun limit }

end TaskFilter

def writeTasks (tasks : List Task) : Json :=
  .array (tasks.map (·.toJson))

namespace ChangeSet

def toJson (changes : ChangeSet) : Json :=
  .record [("instance", some changes.target.toJson), ("tasks", some (writeTasks changes.tasks))]

def fields : List String := ["instance", "tasks"]

def noun : String := "struct ChangeSet"

def read (format : Format Node) : Place → Node → Reading ChangeSet :=
  format.readRecord noun fields fun source => do
    let target := source.field "instance" (Instance.read format)
    let tasks := source.field "tasks" (format.readSequence (Task.read format))
    source.check [("instance", target.problem?), ("tasks", tasks.problem?)]
    return {
      target := ← source.required "instance" noun target
      tasks := ← source.required "tasks" noun tasks }

end ChangeSet

namespace StatusView

def toJson (view : StatusView) : Json :=
  .record [("instance", some view.target.toJson),
    ("pending_tasks", some (writeTasks view.pendingTasks)),
    ("completed_tasks", some (writeTasks view.completedTasks))]

def fields : List String := ["instance", "pending_tasks", "completed_tasks"]

def noun : String := "struct InstanceStatusView"

def read (format : Format Node) : Place → Node → Reading StatusView :=
  format.readRecord noun fields fun source => do
    let target := source.field "instance" (Instance.read format)
    let pendingTasks := source.field "pending_tasks" (format.readSequence (Task.read format))
    let completedTasks := source.field "completed_tasks" (format.readSequence (Task.read format))
    source.check [("instance", target.problem?), ("pending_tasks", pendingTasks.problem?),
      ("completed_tasks", completedTasks.problem?)]
    return {
      target := ← source.required "instance" noun target
      pendingTasks := ← source.required "pending_tasks" noun pendingTasks
      completedTasks := ← source.required "completed_tasks" noun completedTasks }

end StatusView

namespace TaskCompletion

def toJson (completion : TaskCompletion) : Json :=
  .record [("instance_id", some (writeId completion.instanceId)),
    ("instance_status", some (writeNamed completion.instanceStatus)),
    ("created_tasks", some (writeTasks completion.createdTasks))]

def fields : List String := ["instance_id", "instance_status", "created_tasks"]

def noun : String := "struct TaskCompletion"

def read (format : Format Node) : Place → Node → Reading TaskCompletion :=
  format.readRecord noun fields fun source => do
    let instanceId := source.field "instance_id" (readUuid format)
    let instanceStatus := source.field "instance_status" (readNamed format)
    let createdTasks := source.field "created_tasks" (format.readSequence (Task.read format))
    source.check [("instance_id", instanceId.problem?),
      ("instance_status", instanceStatus.problem?), ("created_tasks", createdTasks.problem?)]
    return {
      instanceId := ← source.required "instance_id" noun instanceId
      instanceStatus := ← source.required "instance_status" noun instanceStatus
      createdTasks := ← source.required "created_tasks" noun createdTasks }

end TaskCompletion

end Workflow
