import Workflow.Condition.Evaluation

/-! Where the transitions of a step lead. Gateways make no task: what leaves a gateway is followed
at once, level by level, and on each path a gateway is entered once only. -/

namespace Workflow

/-- A step to make a task for, or a transition to a step that is not there. -/
inductive Arrival where
  | step (target : Step)
  | dangling (source target : String)
deriving Inhabited

/-- A step whose transitions are followed next, with the gateways on the path to it. -/
structure Visit where
  step : Step
  path : List String := []
deriving Inhabited

inductive Move where
  | arrive (arrival : Arrival)
  | enter (visit : Visit)
  /-- The end of a branch, or a gateway that is on the path already. -/
  | stop
deriving Inhabited

namespace Move

def arrival? : Move → Option Arrival
  | arrive arrival => some arrival
  | _ => none

def visit? : Move → Option Visit
  | enter visit => some visit
  | _ => none

def isDangling : Move → Bool
  | arrive (.dangling ..) => true
  | _ => false

end Move

namespace Definition

def move (definition : Definition) (visit : Visit) (transition : Transition) : Move :=
  match definition.step? transition.target with
  | none => .arrive (.dangling visit.step.id transition.target)
  | some target =>
    match target.kind with
    | .finish => .stop
    | .gateway =>
      if target.id ∈ visit.path then .stop
      else .enter { step := target, path := target.id :: visit.path }
    | _ => .arrive (.step target)

/-- The moves out of one level of visits, in order. -/
def moves (definition : Definition) (data : Json.Members) (visits : List Visit) : List Move :=
  visits.flatMap fun visit => (visit.step.fired data).map (definition.move visit)

/-- Follows levels of visits; nothing is followed beyond a level with a dangling transition. -/
def follow (definition : Definition) (data : Json.Members) : Nat → List Visit → List Arrival
  | 0, _ => []
  | levels + 1, visits =>
    let moves := definition.moves data visits
    let arrivals := moves.filterMap Move.arrival?
    if moves.any Move.isDangling then arrivals
    else arrivals ++ definition.follow data levels (moves.filterMap Move.visit?)

/-- Everything that leaving a step arrives at. A path enters as many gateways as it has levels, so
that there are no more levels than steps and one. -/
def arrivals (definition : Definition) (data : Json.Members) (source : Step) : List Arrival :=
  definition.follow data (definition.steps.length + 1) [{ step := source }]

end Definition

end Workflow
