import Workflow.Definition.Basic

/-! Which steps the transitions of a definition can lead to from its start. -/

namespace Workflow.Definition

/-- The step whose transitions an identifier stands for: the last of several. -/
def lastStep? (definition : Definition) (id : String) : Option Step :=
  definition.steps.reverse.find? fun step => step.id = id

def successors (definition : Definition) (id : String) : List String :=
  match definition.lastStep? id with
  | none => []
  | some step =>
    (step.transitions.map (·.target)).filter fun target => (definition.step? target).isSome

/-- Adds what one more transition leads to, for as many rounds as may be needed. -/
def reach (definition : Definition) : Nat → List String → List String
  | 0, seen => seen
  | rounds + 1, seen =>
    let found := (seen.flatMap definition.successors).filter fun id => id ∉ seen
    if found.isEmpty then seen else reach definition rounds (seen ++ found.eraseDups)

/-- The identifiers of the steps that the start leads to, itself among them. -/
def reachable (definition : Definition) : List String :=
  definition.reach definition.steps.length [definition.start]

/-- The identifiers of steps that cannot be reached, in declared order; none when there is no
start to begin at. -/
def unreachable (definition : Definition) : List String :=
  if definition.startStep?.isSome then
    (definition.steps.map (·.id)).filter fun id => id ∉ definition.reachable
  else
    []

end Workflow.Definition
