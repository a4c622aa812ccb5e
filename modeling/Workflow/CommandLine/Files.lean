import Workflow.CommandLine.Outcome
import Workflow.Definition.Markup
import Workflow.Directory.Record

/-! Files as commands see them: the bytes in each, or the reason why it cannot be read. -/

namespace Workflow

abbrev Files := List (String × Except String ByteArray)

namespace Files

def content (files : Files) (path : String) : Except String ByteArray :=
  (files.lookup path).getD (.error ConnectionFault.missingFile)

/-- Reads a definition; one without an identifier gets the fresh one. -/
def definition (files : Files) (path : String) (fresh : Uuid) : Except CommandFault Definition := do
  let bytes ← (files.content path).mapError (.unreadable .parse path)
  (Definition.ofFile path fresh bytes).mapError .malformed

def directory (files : Files) (path : String) : Except CommandFault Directory := do
  let bytes ← (files.content path).mapError (.unreadable .config path)
  match String.fromUTF8? bytes with
  | some text => (Directory.ofText text).mapError .malformed
  | none => .error (.unreadable .config path "stream did not contain valid UTF-8")

end Files

end Workflow
