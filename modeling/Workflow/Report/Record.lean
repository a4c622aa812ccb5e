import Workflow.Definition.Record
import Workflow.Report.Basic

/-! The written form of a report. -/

namespace Workflow

open Document

variable {Node : Type}

namespace Issue

def toJson (issue : Issue) : Json :=
  .record [("step", issue.step.map .string), ("message", some (.string issue.message))]

def fields : List String := ["step", "message"]

def read (format : Format Node) : Place → Node → Reading Issue :=
  format.readRecord "struct ValidationIssue" fields fun source => do
    let step := source.optional "step" (readText format)
    let message := source.field "message" (readText format)
    source.check [("step", step.problem?), ("message", message.problem?)]
    return {
      step := ← source.unsetUnlessListed "step" "struct ValidationIssue" step
      message := ← source.required "message" "struct ValidationIssue" message }

end Issue

namespace Report

def toJson (report : Report) : Json :=
  .record [("errors", some (.array (report.errors.map (·.toJson)))),
    ("warnings", some (.array (report.warnings.map (·.toJson))))]

def fields : List String := ["errors", "warnings"]

def read (format : Format Node) : Place → Node → Reading Report :=
  format.readRecord "struct ValidationReport" fields fun source => do
    let errors := source.field "errors" (format.readSequence (Issue.read format))
    let warnings := source.field "warnings" (format.readSequence (Issue.read format))
    source.check [("errors", errors.problem?), ("warnings", warnings.problem?)]
    return {
      errors := ← source.required "errors" "struct ValidationReport" errors
      warnings := ← source.required "warnings" "struct ValidationReport" warnings }

end Report

end Workflow
