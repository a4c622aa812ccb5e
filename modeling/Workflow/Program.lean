import Workflow.Failure
import Workflow.Notice.Basic
import Workflow.Store.Call

/-! Operations as programs of requests. A program says what is asked of the store, the directory,
the locks, the clock and the notifier, and how it goes on with each answer; who answers, and what
other programs do in between, is not its business. -/

namespace Workflow

/-- A request with the type of its answer. Calls of the store and of the directory may fail. -/
inductive Request : Type → Type 1 where
  | store {α : Type} (call : StoreCall α) : Request (Except Failure α)
  | holders (role : String) : Request (Except Failure (List String))
  | hasRole (principal role : String) : Request (Except Failure Bool)
  /-- Waits for the lock of an instance. -/
  | acquire (target : Uuid) : Request Unit
  | leave (target : Uuid) : Request Unit
  | release (target : Uuid) : Request Unit
  | now : Request Timestamp
  | freshId : Request Uuid
  /-- Tells principals about their tasks, all at once. The answer says what became of each message. -/
  | notify (assignments : List TaskAssignment) : Request (List (Except DeliveryFailure Unit))

inductive Program (α : Type) : Type 1 where
  | done (result : α)
  | request {β : Type} (operation : Request β) (next : β → Program α)

namespace Program

def bind {α β : Type} (program : Program α) (next : α → Program β) : Program β :=
  match program with
  | .done result => next result
  | .request operation rest => .request operation fun answer => (rest answer).bind next

instance : Monad Program where
  pure := .done
  bind := bind

end Program

abbrev Operation (α : Type) := ExceptT Failure Program α

namespace Operation

def ask {α : Type} (operation : Request α) : Operation α :=
  ExceptT.lift (Program.request operation Program.done)

/-- Makes a request whose failure is a failure of the operation. -/
def attempt {α : Type} (operation : Request (Except Failure α)) : Operation α := do
  match ← ask operation with
  | .ok value => return value
  | .error failure => throw failure

def store {α : Type} (call : StoreCall α) : Operation α :=
  attempt (.store call)

/-- Fails for a given cause where a record is missing. -/
def found {α : Type} (failure : Failure) : Option α → Operation α
  | some value => return value
  | none => throw failure

end Operation

end Workflow
