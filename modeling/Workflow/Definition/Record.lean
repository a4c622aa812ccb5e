import Workflow.Definition.Basic
import Workflow.Document.Basic

/-! The written form of definitions and their parts, and how it is read. Fields that are unset are
left out of the written form. -/

namespace Workflow

open Document

variable {Node : Type}

def writeId (id : Uuid) : Json :=
  .string id.text

def writeTime (time : Timestamp) : Json :=
  .string time.text

def writeNamed {α : Type} [Named α] (value : α) : Json :=
  .string (Named.name value)

namespace StepKind

def toJson (kind : StepKind) : Json :=
  .string kind.name

def read (format : Format Node) (place : Place) (node : Node) : Reading StepKind := do
  return ofText (← readText format place node)

end StepKind

namespace AssignmentRule

def toJson (rule : AssignmentRule) : Json :=
  .record [("principal", rule.principal.map .string), ("field", rule.field.map .string),
    ("role", rule.role.map .string)]

def fields : List String := ["principal", "field", "role"]

def read (format : Format Node) : Place → Node → Reading AssignmentRule :=
  format.readRecord "struct AssignmentRule" fields fun source => do
    let principal := source.optional "principal" (readText format)
    let field := source.optional "field" (readText format)
    let role := source.optional "role" (readText format)
    source.check [("principal", principal.problem?), ("field", field.problem?),
      ("role", role.problem?)]
    return {
      principal := ← principal.orDefault none
      field := ← field.orDefault none
      role := ← role.orDefault none }

end AssignmentRule

namespace Operator

def toJson (op : Operator) : Json :=
  .string op.name

def read (format : Format Node) (place : Place) (node : Node) : Reading Operator := do
  match spellings.lookup (← format.choice (spellings.map (·.1)) place node) with
  | some op => return op
  | none => .error .unreadable

end Operator

namespace Condition

def toJson (condition : Condition) : Json :=
  .record [("field", some (.string condition.field)), ("op", some condition.op.toJson),
    ("value", some condition.value)]

def fields : List String := ["field", "op", "value"]

def read (format : Format Node) : Place → Node → Reading Condition :=
  format.readRecord "struct Condition" fields fun source => do
    let field := source.field "field" (readText format)
    let op := source.field "op" (Operator.read format)
    let value := source.field "value" format.value
    source.check [("field", field.problem?), ("op", op.problem?), ("value", value.problem?)]
    return {
      field := ← source.required "field" "struct Condition" field
      op := ← source.required "op" "struct Condition" op
      value := ← value.orDefault .null }

end Condition

namespace Transition

def toJson (transition : Transition) : Json :=
  .record [("to", some (.string transition.target)), ("when", transition.guard.map (·.toJson)),
    ("otherwise", if transition.otherwise then some (.bool true) else none)]

def fields : List String := ["to", "when", "otherwise"]

def read (format : Format Node) : Place → Node → Reading Transition :=
  format.readRecord "struct Transition" fields fun source => do
    let target := source.field "to" (readText format)
    let guard := source.optional "when" (Condition.read format)
    let otherwise := source.field "otherwise" format.flag
    source.check [("to", target.problem?), ("when", guard.problem?),
      ("otherwise", otherwise.problem?)]
    return {
      target := ← source.required "to" "struct Transition" target
      guard := ← guard.orDefault none
      otherwise := ← otherwise.orDefault false }

end Transition

namespace Step

def toJson (step : Step) : Json :=
  .record [("id", some (.string step.id)), ("name", step.label.map .string),
    ("kind", some step.kind.toJson), ("assign", step.assign.map (·.toJson)),
    ("due_in_seconds", step.dueInSeconds.map Json.nat),
    ("priority", some (writeNamed step.priority)),
    ("transitions", some (.array (step.transitions.map (·.toJson))))]

def fields : List String :=
  ["id", "name", "kind", "assign", "due_in_seconds", "priority", "transitions"]

def read (format : Format Node) : Place → Node → Reading Step :=
  format.readRecord "struct Step" fields fun source => do
    let id := source.field "id" (readText format)
    let label := source.optional "name" (readText format)
    let kind := source.field "kind" (StepKind.read format)
    let assign := source.optional "assign" (AssignmentRule.read format)
    let dueInSeconds := source.optional "due_in_seconds" (readWord format)
    let priority := source.field "priority" (readNamed format)
    let transitions := source.field "transitions" (format.readSequence (Transition.read format))
    source.check [("id", id.problem?), ("name", label.problem?), ("kind", kind.problem?),
      ("assign", assign.problem?), ("due_in_seconds", dueInSeconds.problem?),
      ("priority", priority.problem?), ("transitions", transitions.problem?)]
    return {
      id := ← source.required "id" "struct Step" id
      label := ← label.orDefault none
      kind := ← source.required "kind" "struct Step" kind
      assign := ← assign.orDefault none
      dueInSeconds := ← dueInSeconds.orDefault none
      priority := ← priority.orDefault .normal
      transitions := ← transitions.orDefault [] }

end Step

namespace Definition

def toJson (definition : Definition) : Json :=
  .record [("id", some (writeId definition.id)), ("version", some (.string definition.version)),
    ("name", some (.string definition.name)),
    ("description", definition.description.map .string),
    ("start", some (.string definition.start)),
    ("steps", some (.array (definition.steps.map (·.toJson)))),
    ("status", some (writeNamed definition.status)),
    ("created_at", definition.createdAt.map writeTime)]

def fields : List String :=
  ["id", "version", "name", "description", "start", "steps", "status", "created_at"]

/-- Reads a definition; one without an identifier gets the fresh one. -/
def read (fresh : Uuid) (format : Format Node) : Place → Node → Reading Definition :=
  format.readRecord "struct Definition" fields fun source => do
    let id := source.field "id" (readUuid format)
    let version := source.field "version" (readText format)
    let name := source.field "name" (readText format)
    let description := source.optional "description" (readText format)
    let start := source.field "start" (readText format)
    let steps := source.field "steps" (format.readSequence (Step.read format))
    let status := source.field "status" (readNamed format)
    let createdAt := source.optional "created_at" (readTimestamp format)
    source.check [("id", id.problem?), ("version", version.problem?), ("name", name.problem?),
      ("description", description.problem?), ("start", start.problem?),
      ("steps", steps.problem?), ("status", status.problem?),
      ("created_at", createdAt.problem?)]
    return {
      id := ← id.orDefault fresh
      version := ← source.required "version" "struct Definition" version
      name := ← source.required "name" "struct Definition" name
      description := ← description.orDefault none
      start := ← source.required "start" "struct Definition" start
      steps := ← source.required "steps" "struct Definition" steps
      status := ← status.orDefault .draft
      createdAt := ← createdAt.orDefault none }

end Definition

end Workflow
