import Workflow.Definition.Record
import Workflow.Failure
import Workflow.Instance.Record
import Workflow.Json.Format
import Workflow.Json.Printer

/-! Rows of the tables of a relational store. Names are kept as text and read again when a row is
taken out; times are kept to the microsecond; a definition and open data are kept as the text of a
JSON document, which is refused where no such document would be read. A row that is written again
keeps what its record never changes, and a row of a task the number that it was inserted with. -/

namespace Workflow

open Document

/-- A row of a definition: in a table with the text of its body, and fetched with the body itself. -/
structure DefinitionRow (β : Type := Definition) where
  id : Uuid
  name : String
  version : String
  status : String
  body : β
  createdAt : Timestamp
deriving Repr

structure InstanceRow (δ : Type := Json.Members) (π : Type := List String) where
  id : Uuid
  definitionId : Uuid
  definitionVersion : String
  status : String
  data : δ
  pendingSteps : π
  startedBy : String
  startedAt : Timestamp
  completedAt : Option Timestamp
deriving Repr

structure TaskRow (δ : Type := Json.Members) where
  /-- Rows are listed by these numbers; a row that is not inserted yet has none of its own. -/
  seq : Nat := 0
  id : Uuid
  instanceId : Uuid
  stepId : String
  status : String
  assignee : Option String
  assignedRole : Option String
  priority : String
  dueAt : Option Timestamp
  data : δ
  completedBy : Option String
  completedAt : Option Timestamp
  createdAt : Timestamp
deriving Repr

def readColumn {α : Type} [Named α] (noun : String) (id : Uuid) (text : String) :
    Except Failure α :=
  (Named.ofText text).mapError (.storedRecordInvalid noun id)

/-- What is known of why a document was refused: how its shape differs, or the first fault in its
text. -/
def refusal? (text : String) (problem : Problem) : Option String :=
  problem.text?.or <|
    match Json.parse text with
    | .error fault => some fault.message
    | .ok _ => none

/-- Reads the document in a column of JSON. -/
def decodeColumn {α : Type} (column : String)
    (read : Format Json.Draft → Place → Json.Draft → Reading α) (text : String) :
    Except Failure α :=
  (Json.readDocument read text).mapError fun problem =>
    .database (.undecodable column (refusal? text problem))

namespace DefinitionRow

variable {β : Type}

/-- The row for a definition; one without a date is dated now. -/
def ofDefinition (now : Timestamp) (definition : Definition) : DefinitionRow :=
  { id := definition.id
    name := definition.name
    version := definition.version
    status := Named.name definition.status
    body := definition
    createdAt := (definition.createdAt.getD now).toMicros }

def updated (old new : DefinitionRow β) : DefinitionRow β :=
  { new with createdAt := old.createdAt }

def encode (row : DefinitionRow) : DefinitionRow String :=
  { row with body := row.body.toJson.render }

def decode (row : DefinitionRow String) : Except Failure DefinitionRow := do
  let body ← decodeColumn "body" (Definition.read row.id) row.body
  return { row with body }

/-- The definition in a row: identifier, status and date are those of the columns. -/
def toDefinition (row : DefinitionRow) : Except Failure Definition := do
  let status ← readColumn "definition" row.id row.status
  return { row.body with id := row.id, status, createdAt := some row.createdAt }

def read (row : DefinitionRow String) : Except Failure Definition := do
  (← row.decode).toDefinition

end DefinitionRow

namespace InstanceRow

variable {δ π : Type}

def ofInstance (target : Instance) : InstanceRow :=
  { id := target.id
    definitionId := target.definitionId
    definitionVersion := target.definitionVersion
    status := Named.name target.status
    data := target.data
    pendingSteps := target.pendingSteps
    startedBy := target.startedBy
    startedAt := target.startedAt.toMicros
    completedAt := target.completedAt.map Timestamp.toMicros }

def updated (old new : InstanceRow δ π) : InstanceRow δ π :=
  { old with
    status := new.status
    data := new.data
    pendingSteps := new.pendingSteps
    completedAt := new.completedAt }

def encode (row : InstanceRow) : InstanceRow String String :=
  { row with
    data := (Json.object row.data).render
    pendingSteps := (Json.ofStrings row.pendingSteps).render }

def decode (row : InstanceRow String String) : Except Failure InstanceRow := do
  let data ← decodeColumn "data" readObject row.data
  let pendingSteps ←
    decodeColumn "pending_steps" (fun format => format.readSequence (readText format))
      row.pendingSteps
  return { row with data, pendingSteps }

def toInstance (row : InstanceRow) : Except Failure Instance := do
  let status ← readColumn "instance" row.id row.status
  return {
    id := row.id
    definitionId := row.definitionId
    definitionVersion := row.definitionVersion
    status
    data := row.data
    pendingSteps := row.pendingSteps
    startedBy := row.startedBy
    startedAt := row.startedAt
    completedAt := row.completedAt }

def read (row : InstanceRow String String) : Except Failure Instance := do
  (← row.decode).toInstance

end InstanceRow

namespace TaskRow

variable {δ : Type}

def ofTask (task : Task) : TaskRow :=
  { id := task.id
    instanceId := task.instanceId
    stepId := task.stepId
    status := Named.name task.status
    assignee := task.assignee
    assignedRole := task.assignedRole
    priority := Named.name task.priority
    dueAt := task.dueAt.map Timestamp.toMicros
    data := task.data
    completedBy := task.completedBy
    completedAt := task.completedAt.map Timestamp.toMicros
    createdAt := task.createdAt.toMicros }

def updated (old new : TaskRow δ) : TaskRow δ :=
  { old with
    status := new.status
    data := new.data
    completedBy := new.completedBy
    completedAt := new.completedAt }

def encode (row : TaskRow) : TaskRow String :=
  { row with data := (Json.object row.data).render }

def decode (row : TaskRow String) : Except Failure TaskRow := do
  let data ← decodeColumn "data" readObject row.data
  return { row with data }

def toTask (row : TaskRow) : Except Failure Task := do
  let status ← readColumn "task" row.id row.status
  let priority ← readColumn "task" row.id row.priority
  return {
    id := row.id
    instanceId := row.instanceId
    stepId := row.stepId
    status
    assignee := row.assignee
    assignedRole := row.assignedRole
    priority
    dueAt := row.dueAt
    data := row.data
    completedBy := row.completedBy
    completedAt := row.completedAt
    createdAt := row.createdAt }

/-- The tasks in some rows; one that cannot be read spoils the list. -/
def toTasks (rows : List TaskRow) : Except Failure (List Task) :=
  rows.mapM toTask

def read (row : TaskRow String) : Except Failure Task := do
  (← row.decode).toTask

/-- All rows of a list are decoded before the first of them is a task. -/
def readAll (rows : List (TaskRow String)) : Except Failure (List Task) := do
  toTasks (← rows.mapM decode)

end TaskRow

end Workflow
