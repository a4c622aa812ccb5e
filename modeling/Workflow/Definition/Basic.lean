import Workflow.Json.Printer
import Workflow.Naming
import Workflow.Timestamp.Basic
import Workflow.Uuid

/-! Process definitions: an ordered list of steps joined by transitions, which may be guarded by a
condition on the data of an instance or kept for when no other transition fires. -/

namespace Workflow

/-- A draft can be changed; an active definition is frozen and may be started. -/
inductive DefinitionStatus where
  | draft
  | active
deriving DecidableEq, Repr, Inhabited

instance : Named DefinitionStatus where
  noun := "definition status"
  all := [.draft, .active]
  name
    | .draft => "draft"
    | .active => "active"

/-- The kinds of steps. A name that is none of the recognized ones is kept as it was written, so
that it can be reported. -/
inductive StepKind where
  | start
  | task
  | approval
  | gateway
  | timer
  | finish
  | subprocess
  | script
  | other (name : String)
deriving DecidableEq, Repr, Inhabited

namespace StepKind

def recognizedKinds : List StepKind :=
  [start, task, approval, gateway, timer, finish, subprocess, script]

def name : StepKind → String
  | start => "start"
  | task => "task"
  | approval => "approval"
  | gateway => "gateway"
  | timer => "timer"
  | finish => "end"
  | subprocess => "subprocess"
  | script => "script"
  | other name => name

def ofText (text : String) : StepKind :=
  (recognizedKinds.find? fun kind => kind.name = Text.lower text).getD (other text)

def isRecognized : StepKind → Bool
  | other _ => false
  | _ => true

/-- Entering a step makes a task for somebody, unless it ends a branch or only routes. -/
def createsTask : StepKind → Bool
  | finish => false
  | gateway => false
  | _ => true

end StepKind

inductive Priority where
  | low
  | normal
  | high
  | urgent
deriving DecidableEq, Repr

instance : Inhabited Priority := ⟨.normal⟩

instance : Named Priority where
  noun := "task priority"
  all := [.low, .normal, .high, .urgent]
  name
    | .low => "low"
    | .normal => "normal"
    | .high => "high"
    | .urgent => "urgent"

/-- Who owns the tasks of a step: a principal, the principal that a field of the data names, or a
holder of a role, in this order of preference. -/
structure AssignmentRule where
  principal : Option String := none
  field : Option String := none
  role : Option String := none
deriving DecidableEq, Repr, Inhabited

inductive Operator where
  | equals
  | notEquals
  | greaterThan
  | lessThan
  | contains
deriving DecidableEq, Repr, Inhabited

namespace Operator

def symbol : Operator → String
  | equals => "=="
  | notEquals => "!="
  | greaterThan => ">"
  | lessThan => "<"
  | contains => "contains"

def name : Operator → String
  | equals => "equals"
  | notEquals => "not_equals"
  | greaterThan => "greater_than"
  | lessThan => "less_than"
  | contains => "contains"

/-- Every name an operator can be given, with the operator. -/
def spellings : List (String × Operator) :=
  [("==", equals), ("eq", equals), ("equals", equals),
    ("!=", notEquals), ("ne", notEquals), ("not_equals", notEquals),
    (">", greaterThan), ("greater_than", greaterThan), ("gt", greaterThan),
    ("<", lessThan), ("less_than", lessThan), ("lt", lessThan),
    ("contains", contains)]

end Operator

/-- A comparison of one field of the data with a fixed value. -/
structure Condition where
  field : String
  op : Operator
  value : Json := .null
deriving Repr, Inhabited

def Condition.text (condition : Condition) : String :=
  condition.field ++ " " ++ condition.op.symbol ++ " " ++ condition.value.render

structure Transition where
  target : String
  guard : Option Condition := none
  otherwise : Bool := false
deriving Repr, Inhabited

namespace Transition

def always (target : String) : Transition :=
  { target }

def onlyWhen (target : String) (condition : Condition) : Transition :=
  { target, guard := some condition }

def ifNoneFires (target : String) : Transition :=
  { target, otherwise := true }

end Transition

structure Step where
  id : String
  label : Option String := none
  kind : StepKind
  assign : Option AssignmentRule := none
  dueInSeconds : Option Nat := none
  priority : Priority := .normal
  transitions : List Transition := []
deriving Repr, Inhabited

def Step.displayName (step : Step) : String :=
  step.label.getD step.id

structure Definition where
  id : Uuid
  version : String
  name : String
  description : Option String := none
  start : String
  steps : List Step
  status : DefinitionStatus := .draft
  createdAt : Option Timestamp := none
deriving Repr, Inhabited

namespace Definition

def step? (definition : Definition) (id : String) : Option Step :=
  definition.steps.find? fun step => step.id = id

def startStep? (definition : Definition) : Option Step :=
  definition.step? definition.start

def isActive (definition : Definition) : Bool :=
  definition.status = .active

/-- A definition as its author makes it: a draft without description or date. -/
def make (id : Uuid) (name version start : String) (steps : List Step) : Definition :=
  { id, version, name, start, steps }

end Definition

end Workflow
