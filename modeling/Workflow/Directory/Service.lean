import Workflow.Directory.Basic
import Workflow.Failure

/-! A directory as the engine meets it: it may answer, fail, or not answer at all. -/

namespace Workflow

/-- What comes of a call: an answer in time, or none. -/
inductive Reply (α : Type) where
  | answered (result : Except Failure α)
  | silent

/-- A directory with the roles for which it fails or stays silent. For a role in `listings` a look
at its holders gives that list, in whatever order it is. -/
structure DirectoryService where
  directory : Directory := {}
  listings : List (String × List String) := []
  failing : List String := []
  hanging : List String := []
deriving Inhabited

namespace DirectoryService

def answer {α : Type} (service : DirectoryService) (role : String) (value : α) : Reply α :=
  if role ∈ service.hanging then .silent
  else if role ∈ service.failing then .answered (.error (.directoryFailed role))
  else .answered (.ok value)

def holders (service : DirectoryService) (role : String) : Reply (List String) :=
  service.answer role ((service.listings.lookup role).getD (service.directory.holders role))

def hasRole (service : DirectoryService) (principal role : String) : Reply Bool :=
  service.answer role (service.directory.hasRole principal role)

end DirectoryService

end Workflow
