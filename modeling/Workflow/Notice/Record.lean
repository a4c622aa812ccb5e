import Workflow.Instance.Record
import Workflow.Json.Format
import Workflow.Notice.Basic

/-! The written form of a notice: the members of the assignment and the event side by side. All
members but the event are taken as plain values first and looked at afterwards. -/

namespace Workflow

open Document

variable {Node : Type}

namespace TaskAssignment

def members (assignment : TaskAssignment) : List (String × Option Json) :=
  [("task_id", some (writeId assignment.taskId)),
    ("instance_id", some (writeId assignment.instanceId)),
    ("step_id", some (.string assignment.stepId)),
    ("principal", some (.string assignment.principal)),
    ("priority", some (writeNamed assignment.priority)),
    ("due_at", assignment.dueAt.map writeTime)]

def toJson (assignment : TaskAssignment) : Json :=
  .record assignment.members

def fields : List String :=
  ["task_id", "instance_id", "step_id", "principal", "priority", "due_at"]

def noun : String := "struct TaskAssignment"

def readFrom (source : Source Node) : Reading TaskAssignment := do
  let format := source.format
  let taskId := source.field "task_id" (readUuid format)
  let instanceId := source.field "instance_id" (readUuid format)
  let stepId := source.field "step_id" (readText format)
  let principal := source.field "principal" (readText format)
  let priority := source.field "priority" (readNamed format)
  let dueAt := source.optional "due_at" (readTimestamp format)
  source.check [("task_id", taskId.problem?), ("instance_id", instanceId.problem?),
    ("step_id", stepId.problem?), ("principal", principal.problem?),
    ("priority", priority.problem?), ("due_at", dueAt.problem?)]
  return {
    taskId := ← source.required "task_id" noun taskId
    instanceId := ← source.required "instance_id" noun instanceId
    stepId := ← source.required "step_id" noun stepId
    principal := ← source.required "principal" noun principal
    priority := ← source.required "priority" noun priority
    dueAt := ← source.unsetUnlessListed "due_at" noun dueAt }

end TaskAssignment

namespace Notice

def toJson (notice : Notice) : Json :=
  .record (notice.assignment.members ++ [("event", some (.string notice.event))])

def noun : String := "struct TaskAssignedNotification"

/-- A name out of a list, where the text was taken as a value before. -/
def choice (names : List String) (place : Place) (draft : Json.Draft) : Reading String :=
  match draft with
  | .string _ => Json.Draft.choice names place draft
  | .object [_] none => Json.Draft.choice names place draft
  | .object .. => mismatched (.invalidValue .map "map with a single key")
  | draft => draft.refuse "string or map"

/-- JSON whose values were taken before anything is read from them. -/
def valueFormat : Format Json.Draft :=
  { Json.format with choice := choice }

/-- What becomes of the members in the order of the text: the event, once, and the rest as
values. -/
def readEvent (place : Place) (event : Option String) :
    List (Json.StringDraft × Json.Draft) → Reading (Option String × List (String × Json.Draft))
  | [] => .ok (event, [])
  | (key, draft) :: rest => do
    let key ← Json.Draft.key key
    if key = "event" then
      if event.isSome then mismatched (.duplicateField key)
      else readEvent place (some (← readText Json.format place draft)) rest
    else
      let _ ← Json.Draft.value (.key key :: place) draft
      let (event, members) ← readEvent place event rest
      return (event, (key, draft) :: members)

def read (place : Place) : Json.Draft → Reading Notice
  | .object members ending => do
    let (event, members) ← readEvent place none members
    if ending.isSome then Json.Draft.unreadable
    match event with
    | none => mismatched (.missingField "event")
    | some event =>
      let members := members.filter fun (name, _) => name ∈ TaskAssignment.fields
      let assignment ← TaskAssignment.readFrom
        { format := valueFormat
          place
          fields := TaskAssignment.fields
          members := .named ⟨members.map fun (name, draft) => (.ok name, draft), none⟩ }
      return ⟨assignment, event⟩
  | draft => draft.refuse noun

end Notice

end Workflow
