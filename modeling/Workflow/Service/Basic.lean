import Workflow.Directory.Service
import Workflow.Locks
import Workflow.Program
import Workflow.Store.Backend

/-! An engine at work: the store, the directory and the locks it uses, and what befalls its calls.
Nothing takes time except a call that is not answered, which costs as long as the engine waits for
it. -/

namespace Workflow

/-- Calls of the store that fail or are never answered, by name. -/
structure Outage where
  failing : List String := []
  stalling : List String := []
  /-- Definitions are not moved to another status, as if somebody else had done it. -/
  losesRaces : Bool := false
deriving Inhabited

/-- How long the engine waits for an answer, in milliseconds. -/
structure Patience where
  collaborator : Nat := 5000
  delivery : Nat := 2000
deriving Inhabited

structure Service where
  store : Store := .memory {}
  directory : DirectoryService := {}
  outage : Outage := {}
  patience : Patience := {}
  /-- Principals to whom a message takes forever. -/
  unreachable : List String := []
  /-- Principals to whom no message can be published. -/
  refusing : List String := []
  clock : Timestamp := .epoch
  nextId : Nat := 0
  locks : LockTable Unit := {}
  /-- When the locks of instances were last given back. -/
  freeAt : List (Uuid × Nat) := []
  /-- The messages attempted since somebody last looked. -/
  sent : List TaskAssignment := []
  /-- Milliseconds since the current operation began. -/
  elapsed : Nat := 0
deriving Inhabited

namespace Service

def wait (milliseconds : Nat) (service : Service) : Service :=
  { service with elapsed := service.elapsed + milliseconds }

def await {α : Type} (service : Service) : Reply α → Except Failure α × Service
  | .answered result => (result, service)
  | .silent => (.error .timedOut, service.wait service.patience.collaborator)

/-- Answers a call of the store with what was lost before it was tried. -/
def lose {α : Type} (outage : Outage) : StoreCall α → Option α
  | .transition .. => if outage.losesRaces then some false else none
  | _ => none

def callStore {α : Type} (service : Service) (call : StoreCall α) : Except Failure α × Service :=
  if call.name ∈ service.outage.stalling then service.await .silent
  else if call.name ∈ service.outage.failing then (.error (.storeFailed call.name), service)
  else
    match lose service.outage call with
    | some value => (.ok value, service)
    | none =>
      let (result, store) := service.store.answer service.clock call
      (result, { service with store })

/-- Takes the lock of an instance when it is given back. -/
def acquire (target : Uuid) (service : Service) : Service :=
  { service with
    locks := service.locks.acquire target ()
    elapsed := max service.elapsed ((service.freeAt.lookup target).getD 0) }

def leave (target : Uuid) (service : Service) : Service :=
  { service with
    locks := service.locks.leave target ()
    freeAt := (target, service.elapsed) :: service.freeAt }

/-- What becomes of a message. -/
def delivery (service : Service) (assignment : TaskAssignment) : Except DeliveryFailure Unit :=
  if assignment.principal ∈ service.unreachable then .error (.timedOut service.patience.delivery)
  else if assignment.principal ∈ service.refusing then .error (.notPublished assignment.principal)
  else .ok ()

/-- Attempts all deliveries at once. They take time only where one is not answered. -/
def notify (assignments : List TaskAssignment) (service : Service) : Service :=
  let service := { service with sent := service.sent ++ assignments }
  if assignments.any fun assignment => assignment.principal ∈ service.unreachable then
    service.wait service.patience.delivery
  else service

def answer {α : Type} (service : Service) : Request α → α × Service
  | .store call => service.callStore call
  | .holders role => service.await (service.directory.holders role)
  | .hasRole principal role => service.await (service.directory.hasRole principal role)
  | .acquire target => ((), service.acquire target)
  | .leave target => ((), service.leave target)
  | .release target => ((), { service with locks := service.locks.release target })
  | .now => (service.clock, service)
  | .freshId => (Uuid.ofNat service.nextId, { service with nextId := service.nextId + 1 })
  | .notify assignments => (assignments.map service.delivery, service.notify assignments)

def runProgram {α : Type} (program : Program α) (service : Service) : α × Service :=
  match program with
  | .done result => (result, service)
  | .request operation next =>
    let (answer, service) := service.answer operation
    runProgram (next answer) service

def run {α : Type} (operation : Operation α) (service : Service) : Except Failure α × Service :=
  runProgram operation { service with elapsed := 0, freeAt := [] }

/-- Runs operations that begin at once, each until it has to wait for a lock that another holds;
the time they take together is that of the last one. -/
def runTogether {α : Type} (operations : List (Operation α)) (service : Service) :
    List (Except Failure α) × Service :=
  let begun := { service with elapsed := 0, freeAt := [] }
  let (results, ended, longest) := operations.foldl (fun (results, service, longest) operation =>
    let (result, service) := runProgram operation { service with elapsed := 0 }
    (results ++ [result], service, max longest service.elapsed)) ([], begun, 0)
  (results, { ended with elapsed := longest })

def takeSent (service : Service) : List TaskAssignment × Service :=
  (service.sent, { service with sent := [] })

end Service

end Workflow
