import Workflow.Directory.Basic
import Workflow.Document.Basic
import Workflow.Yaml.Format

/-! Directory files: a table of roles with a list of principals for each. -/

namespace Workflow.Directory

open Document

variable {Node : Type}

def fields : List String := ["roles"]

def read (format : Format Node) : Place → Node → Reading Directory :=
  format.readRecord "struct DirectoryFile" fields fun source => do
    let roles := source.field "roles"
      (format.readTable (format.readSequence (readText format)))
    source.check [("roles", roles.problem?)]
    return ofTable (← roles.orDefault [])

/-- Reads a directory file, which is YAML. -/
def ofText (text : String) : Reading Directory :=
  Yaml.readDocument read text

end Workflow.Directory
