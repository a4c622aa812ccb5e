import Workflow.Definition.Reachability
import Workflow.Report.Basic
import Workflow.Text.Blank

/-! The structural rules of definitions. A definition that breaks one cannot be stored; warnings
only point out what is probably not meant. -/

namespace Workflow.Definition

open Text

/-- Identifiers that transitions may name: those that are not blank. -/
def knownIds (definition : Definition) : List String :=
  (definition.steps.map (·.id)).filter fun id => ¬ Blank id

def whenever (condition : Prop) [Decidable condition] (issue : Issue) : List Issue :=
  if condition then [issue] else []

def headerErrors (definition : Definition) : List Issue :=
  whenever (Blank definition.name) (.general .nameMissing) ++
    whenever (Blank definition.version) (.general .versionMissing)

/-- Blank and repeated identifiers, in declared order. -/
def idErrors (seen : List String) : List Step → List Issue
  | [] => []
  | step :: rest =>
    if Blank step.id then .general .blankStepId :: idErrors seen rest
    else if step.id ∈ seen then .about step.id .duplicateStepId :: idErrors seen rest
    else idErrors (step.id :: seen) rest

def startErrors (definition : Definition) : List Issue :=
  match definition.startStep? with
  | none => [.general (.startMissing definition.start)]
  | some start =>
    whenever (start.kind.createsTask = false) (.about start.id (.startMakesNoTask start.kind))

def startKinds (definition : Definition) : Nat :=
  definition.steps.countP fun step => step.kind = .start

def startCountErrors (definition : Definition) : List Issue :=
  whenever (1 < definition.startKinds) (.general (.severalStarts definition.startKinds))

def guardErrors (step : Step) (transition : Transition) : List Issue :=
  match transition.guard with
  | none => []
  | some condition =>
    whenever (Blank condition.field) (.about step.id (.fieldMissing transition.target)) ++
      whenever (transition.otherwise = true) (.about step.id (.guardedOtherwise transition.target))

def transitionErrors (known : List String) (step : Step) (transition : Transition) : List Issue :=
  whenever (transition.target ∉ known) (.about step.id (.unknownTarget transition.target)) ++
    guardErrors step transition

def stepErrors (known : List String) (step : Step) : List Issue :=
  whenever (step.kind.isRecognized = false) (.about step.id (.unrecognizedKind step.kind)) ++
    step.transitions.flatMap (transitionErrors known step)

def errors (definition : Definition) : List Issue :=
  definition.headerErrors ++
    if definition.steps.isEmpty then [.general .noSteps]
    else
      idErrors [] definition.steps ++ definition.startErrors ++ definition.startCountErrors ++
        definition.steps.flatMap (stepErrors definition.knownIds)

/-- A transition back to its own step that always fires. -/
def isEndlessLoop (step : Step) (transition : Transition) : Bool :=
  transition.target = step.id && transition.guard.isNone && !transition.otherwise

def otherwiseCount (step : Step) : Nat :=
  step.transitions.countP (·.otherwise)

def stepWarnings (step : Step) : List Issue :=
  whenever (step.kind = .finish ∧ step.transitions ≠ []) (.about step.id .endHasTransitions) ++
    step.transitions.flatMap (fun transition =>
      whenever (isEndlessLoop step transition = true) (.about step.id .endlessLoop)) ++
    whenever (1 < otherwiseCount step) (.about step.id (.severalOtherwise (otherwiseCount step)))

def warnings (definition : Definition) : List Issue :=
  definition.steps.flatMap stepWarnings ++
    definition.unreachable.map fun id => .about id .unreachable

/-- Checks a definition. Without steps there is nothing more to check. -/
def validate (definition : Definition) : Report :=
  { errors := definition.errors
    warnings := if definition.steps.isEmpty then [] else definition.warnings }

end Workflow.Definition
