import Workflow.Instance.Basic

/-! The message that tells a principal about a new task. -/

namespace Workflow

structure Notice where
  assignment : TaskAssignment
  event : String
deriving DecidableEq, Repr, Inhabited

namespace Notice

def taskAssigned : String := "task.assigned"

def ofAssignment (assignment : TaskAssignment) : Notice :=
  ⟨assignment, taskAssigned⟩

/-- The message about a task, where there is somebody to send it to. -/
def forTask? (task : Task) : Option Notice :=
  (TaskAssignment.forTask? task).map ofAssignment

end Notice

inductive DeliveryFailure where
  | notConnected (reason : String)
  | notPublished (reason : String)
  | timedOut (milliseconds : Nat)
deriving DecidableEq, Repr

def DeliveryFailure.message : DeliveryFailure → String
  | notConnected reason => "Notification connection error: " ++ reason
  | notPublished reason => "Notification publish error: " ++ reason
  | timedOut milliseconds =>
    "Notification timed out after " ++ String.ofList (Text.decimal milliseconds) ++ " ms"

end Workflow
