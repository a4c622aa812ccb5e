import Workflow.Program
import Workflow.Text.Blank

/-! Who gets a new task: the fixed principal of the rule, the principal in a field of the data, the
first holder of a role, or the principal that acts, in this order of preference. -/

namespace Workflow

/-- The principal that a value of the data names: a text that is not blank, or a number. -/
def principal? : Json → Option String
  | .string text => if Text.Blank text then none else some text
  | .number value => some (String.ofList value.chars)
  | _ => none

def nonEmpty (text : String) : Option String :=
  if text.isEmpty then none else some text

def least (texts : List String) : Option String :=
  texts.foldl (fun best text => match best with
    | some best => some (if text < best then text else best)
    | none => some text) none

namespace AssignmentRule

/-- The principal that a rule names without asking for a role. -/
def direct? (rule : AssignmentRule) (data : Json.Members) : Option String :=
  (rule.principal.bind nonEmpty).or
    (rule.field.bind fun field => (Json.Members.value? field data).bind principal?)

/-- Resolves a rule on behalf of an acting principal. A role without holders leaves the task
unassigned. -/
def resolve (rule : Option AssignmentRule) (data : Json.Members) (acting : String) :
    Operation Assignment := do
  match rule with
  | none => return { principal := some acting }
  | some rule =>
    match rule.direct? data, rule.role.bind nonEmpty with
    | some principal, _ => return { principal := some principal }
    | none, some role =>
      let holders ← Operation.attempt (.holders role)
      return { principal := least holders, role := some role }
    | none, none => return { principal := some acting }

end AssignmentRule

end Workflow
