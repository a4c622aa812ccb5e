import Workflow.Definition.Basic

/-! What a check of a definition finds: errors, which keep it from being used, and warnings. Each
issue is about a step or about the definition as a whole. -/

namespace Workflow

/-- The findings a definition can give rise to. -/
inductive Finding where
  | nameMissing
  | versionMissing
  | noSteps
  | blankStepId
  | duplicateStepId
  | startMissing (start : String)
  | startMakesNoTask (kind : StepKind)
  | severalStarts (count : Nat)
  | unrecognizedKind (kind : StepKind)
  | unknownTarget (target : String)
  | fieldMissing (target : String)
  | guardedOtherwise (target : String)
  | endHasTransitions
  | endlessLoop
  | severalOtherwise (count : Nat)
  | unreachable
deriving DecidableEq, Repr

def Finding.message : Finding → String
  | nameMissing => "definition name is required"
  | versionMissing => "definition version is required"
  | noSteps => "definition must have at least one step"
  | blankStepId => "step identifier must not be empty"
  | duplicateStepId => "duplicate step identifier"
  | startMissing start => "start step '" ++ start ++ "' does not exist"
  | startMakesNoTask kind => "start step cannot be of kind '" ++ kind.name ++ "'"
  | severalStarts count =>
    "exactly one start step is allowed, found " ++ String.ofList (Text.decimal count)
  | unrecognizedKind kind => "unrecognized step kind '" ++ kind.name ++ "'"
  | unknownTarget target => "transition targets unknown step '" ++ target ++ "'"
  | fieldMissing target => "condition on transition to '" ++ target ++ "' has no field"
  | guardedOtherwise target =>
    "transition to '" ++ target ++ "' cannot be both conditional and 'otherwise'"
  | endHasTransitions => "transitions on an end step are ignored"
  | endlessLoop => "unconditional transition to itself loops forever"
  | severalOtherwise count =>
    String.ofList (Text.decimal count) ++ " 'otherwise' transitions; all of them fire together"
  | unreachable => "step is unreachable from the start step"

structure Issue where
  step : Option String := none
  message : String
deriving DecidableEq, Repr, Inhabited

namespace Issue

def general (finding : Finding) : Issue :=
  { message := finding.message }

def about (step : String) (finding : Finding) : Issue :=
  { step := some step, message := finding.message }

def text (issue : Issue) : String :=
  match issue.step with
  | some step => "step '" ++ step ++ "': " ++ issue.message
  | none => issue.message

end Issue

structure Report where
  errors : List Issue := []
  warnings : List Issue := []
deriving DecidableEq, Repr, Inhabited

namespace Report

def isOk (report : Report) : Bool :=
  report.errors.isEmpty

def text (report : Report) : String :=
  "; ".intercalate (report.errors.map Issue.text)

end Report

end Workflow
