import Workflow.Store.Database
import Workflow.Store.Memory

/-! The stores an engine can run on. -/

namespace Workflow

inductive Store where
  | memory (records : MemoryStore)
  | relational (database : Database)
deriving Inhabited

namespace Store

def answer {α : Type} (now : Timestamp) (store : Store) (call : StoreCall α) :
    Except Failure α × Store :=
  match store with
  | .memory records =>
    let (value, records) := records.answer call
    (.ok value, .memory records)
  | .relational database =>
    let (result, database) := database.answer now call
    (result, .relational database)

def taskCount : Store → Nat
  | .memory records => records.taskCount
  | .relational database => database.tables.tasks.length

end Store

end Workflow
