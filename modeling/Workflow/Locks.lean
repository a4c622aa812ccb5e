import Workflow.Uuid

/-! Locks of instances. A client that asks for a lock holds it or waits for it, in order of
arrival. The entry of a lock stays in the table until it is released by somebody while nobody
holds it or waits for it. -/

namespace Workflow

structure Lock (Client : Type) where
  holder : Option Client
  waiting : List Client
deriving Repr

namespace Lock

variable {Client : Type} [DecidableEq Client]

def isFree (lock : Lock Client) : Bool :=
  lock.holder.isNone && lock.waiting.isEmpty

/-- Takes the lock where nobody holds it, and waits behind the others where somebody does. -/
def acquire (client : Client) (lock : Lock Client) : Lock Client :=
  match lock.holder with
  | none => { lock with holder := some client }
  | some _ => { lock with waiting := lock.waiting ++ [client] }

/-- Hands the lock of its holder to the first that waits, or forgets one that waits. -/
def leave (client : Client) (lock : Lock Client) : Lock Client :=
  if lock.holder = some client then ⟨lock.waiting.head?, lock.waiting.tail⟩
  else { lock with waiting := lock.waiting.erase client }

end Lock

structure LockTable (Client : Type) where
  entries : List (Uuid × Lock Client) := []
deriving Repr

namespace LockTable

variable {Client : Type} [DecidableEq Client]

def put (id : Uuid) (update : Lock Client → Lock Client) :
    List (Uuid × Lock Client) → List (Uuid × Lock Client)
  | [] => [(id, update ⟨none, []⟩)]
  | (other, lock) :: rest =>
    if other = id then (other, update lock) :: rest else (other, lock) :: put id update rest

/-- Asks for the lock of an instance, which makes an entry for it where there is none. -/
def acquire (id : Uuid) (client : Client) (table : LockTable Client) : LockTable Client :=
  ⟨put id (Lock.acquire client) table.entries⟩

/-- Gives back the lock of an instance that a client holds, or ends its waiting. -/
def leave (id : Uuid) (client : Client) (table : LockTable Client) : LockTable Client :=
  ⟨table.entries.map fun (other, lock) =>
    (other, if other = id then lock.leave client else lock)⟩

/-- Removes the entry of an instance whose lock nobody holds or waits for. -/
def release (id : Uuid) (table : LockTable Client) : LockTable Client :=
  ⟨table.entries.filter fun (other, lock) => !(other = id && lock.isFree)⟩

def size (table : LockTable Client) : Nat :=
  table.entries.length

def isEmpty (table : LockTable Client) : Bool :=
  table.entries.isEmpty

def holders (table : LockTable Client) : List Client :=
  table.entries.filterMap fun (_, lock) => lock.holder

def waiting (table : LockTable Client) : List Client :=
  table.entries.flatMap fun (_, lock) => lock.waiting

end LockTable

end Workflow
