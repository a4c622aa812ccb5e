import Workflow.CommandLine.Files
import Workflow.Definition.Validation

/-! The command that validates definition files, each on its own. -/

namespace Workflow.Validation

def describe (path : String) (definition : Definition) (report : Report) : List String :=
  report.errors.map (fun issue => path ++ ": error: " ++ issue.text) ++
    report.warnings.map (fun issue => path ++ ": warning: " ++ issue.text) ++
    if report.isOk then
      [path ++ ": ok (" ++ definition.name ++ " " ++ definition.version ++ ", " ++
        CommandFault.count definition.steps.length ++ " steps)"]
    else []

/-- The lines about a file, and whether it holds a valid definition. -/
def check (files : Files) (path : String) : List String × Bool :=
  match files.definition path default with
  | .ok definition =>
    let report := definition.validate
    (describe path definition report, report.isOk)
  | .error fault => (fault.texts.map fun text => path ++ ": " ++ text, false)

def run (files : Files) (paths : List String) : Outcome :=
  let checks := paths.map (check files)
  let output := checks.flatMap (·.1)
  let failed := checks.countP fun check => !check.2
  if failed = 0 then { output }
  else { code := 1, output, errors := (CommandFault.invalidDefinitions failed paths.length).lines }

end Workflow.Validation
