import Workflow.Document.Format
import Workflow.Naming
import Workflow.Timestamp.Text
import Workflow.Uuid

/-! Content that records of every kind share: identifiers, time stamps, names and words of 64
bits. -/

namespace Workflow.Document

variable {Node : Type}

def readText (format : Format Node) (place : Place) (node : Node) : Reading String :=
  format.text "a string" place node

def readUuid (format : Format Node) (place : Place) (node : Node) : Reading Uuid := do
  match Uuid.ofText? (← format.text "a formatted UUID string" place node) with
  | some id => return id
  | none => .error .unreadable

def readTimestamp (format : Format Node) (place : Place) (node : Node) : Reading Timestamp := do
  let text ← format.text "an RFC 3339 formatted date and time string" place node
  match Timestamp.ofText? text with
  | some time => return time
  | none => .error .unreadable

def readWord (format : Format Node) (place : Place) (node : Node) : Reading Nat :=
  format.natural "u64" place node

def readSize (format : Format Node) (place : Place) (node : Node) : Reading Nat :=
  format.natural "usize" place node

/-- Reads one of the names of a type, exactly as it is written out. -/
def readNamed {α : Type} [Named α] (format : Format Node) (place : Place) (node : Node) :
    Reading α := do
  match Named.named? (← format.choice (Named.names α) place node) with
  | some value => return value
  | none => .error .unreadable

def readObject (format : Format Node) (place : Place) (node : Node) : Reading Json.Members := do
  return Json.Members.ofList (← format.readTable format.value place node)

end Workflow.Document
