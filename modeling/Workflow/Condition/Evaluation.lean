import Workflow.Condition.Comparison
import Workflow.Definition.Basic

/-! When a condition holds on the data of an instance, and which transitions of a step fire. -/

namespace Workflow

namespace Condition

/-- What a field that is missing or null counts as: the zero of the type of the value it is
compared with. A numeric string has a numeric zero where the comparison is one of order. -/
def zero (op : Operator) (value : Json) : Json :=
  match value with
  | .number _ => .number Json.Number.zero
  | .string _ =>
    if (op = .greaterThan ∨ op = .lessThan) ∧ value.real?.isSome then .number Json.Number.zero
    else .string ""
  | .bool _ => .bool false
  | _ => .string ""

/-- The value of the condition's field, or its zero. -/
def actual (condition : Condition) (data : Json.Members) : Json :=
  match Json.Members.value? condition.field data with
  | none | some .null => zero condition.op condition.value
  | some value => value

def holds (condition : Condition) (data : Json.Members) : Bool :=
  let actual := condition.actual data
  match condition.op with
  | .equals => actual.looselyEqual condition.value
  | .notEquals => !actual.looselyEqual condition.value
  | .greaterThan => actual.order? condition.value == some .gt
  | .lessThan => actual.order? condition.value == some .lt
  | .contains => actual.holds condition.value

end Condition

def guardHolds (guard : Option Condition) (data : Json.Members) : Bool :=
  guard.all fun condition => condition.holds data

def Transition.isSatisfied (transition : Transition) (data : Json.Members) : Bool :=
  !transition.otherwise && guardHolds transition.guard data

/-- The transitions that fire, in declared order: those that are satisfied, or, when there are
none, those kept for that case. Nothing leaves a step that ends a branch. -/
def Step.fired (step : Step) (data : Json.Members) : List Transition :=
  if step.kind = .finish then []
  else
    let satisfied := step.transitions.filter fun transition => transition.isSatisfied data
    if satisfied.isEmpty then step.transitions.filter (·.otherwise) else satisfied

end Workflow
