import Workflow.Store.Call

/-! A store in memory. Every call succeeds, and a record that is written again keeps its place. -/

namespace Workflow

structure MemoryStore where
  definitions : List Definition := []
  instances : List Instance := []
  tasks : List Task := []
deriving Inhabited

/-- Writes a record: in place of the one with the same key, or at the end. -/
def upsert {α κ : Type} [DecidableEq κ] (key : α → κ) (record : α) : List α → List α
  | [] => [record]
  | other :: rest =>
    if key other = key record then record :: rest else other :: upsert key record rest

namespace MemoryStore

def definition? (store : MemoryStore) (id : Uuid) : Option Definition :=
  store.definitions.find? fun definition => definition.id = id

def named? (store : MemoryStore) (name version : String) : Option Definition :=
  store.definitions.find? fun definition => definition.name = name ∧ definition.version = version

def instance? (store : MemoryStore) (id : Uuid) : Option Instance :=
  store.instances.find? fun target => target.id = id

def task? (store : MemoryStore) (id : Uuid) : Option Task :=
  store.tasks.find? fun task => task.id = id

def saveDefinition (definition : Definition) (store : MemoryStore) : MemoryStore :=
  { store with definitions := upsert (·.id) definition store.definitions }

def saveInstance (target : Instance) (store : MemoryStore) : MemoryStore :=
  { store with instances := upsert (·.id) target store.instances }

def saveTask (task : Task) (store : MemoryStore) : MemoryStore :=
  { store with tasks := upsert (·.id) task store.tasks }

def commit (changes : ChangeSet) (store : MemoryStore) : MemoryStore :=
  changes.tasks.foldl (fun store task => store.saveTask task) (store.saveInstance changes.target)

/-- Moves a definition to a status if it has the expected one, and says whether it had. -/
def transition (id : Uuid) (source target : DefinitionStatus) (store : MemoryStore) :
    Bool × MemoryStore :=
  match store.definition? id with
  | some definition =>
    if definition.status = source then
      (true, store.saveDefinition { definition with status := target })
    else (false, store)
  | none => (false, store)

def tasksOf (store : MemoryStore) (target : Uuid) : List Task :=
  store.tasks.filter fun task => task.instanceId = target

def pendingTasks (store : MemoryStore) (target : Uuid) : List Task :=
  store.tasks.filter fun task => task.instanceId = target && task.isPending

/-- The tasks assigned to a principal that a filter admits, up to its limit. -/
def assignedTasks (store : MemoryStore) (principal : String) (filter : TaskFilter) : List Task :=
  let matching := store.tasks.filter fun task =>
    task.assignee = some principal && filter.admits task
  match filter.limit with
  | some limit => matching.take limit
  | none => matching

def taskCount (store : MemoryStore) : Nat :=
  store.tasks.length

def answer {α : Type} (store : MemoryStore) : StoreCall α → α × MemoryStore
  | .saveDefinition definition => ((), store.saveDefinition definition)
  | .loadDefinition id => (store.definition? id, store)
  | .findDefinition name version => (store.named? name version, store)
  | .transition id source target => store.transition id source target
  | .saveInstance target => ((), store.saveInstance target)
  | .loadInstance id => (store.instance? id, store)
  | .saveTask task => ((), store.saveTask task)
  | .loadTask id => (store.task? id, store)
  | .pendingTasks target => (store.pendingTasks target, store)
  | .tasksOf target => (store.tasksOf target, store)
  | .assignedTasks principal filter => (store.assignedTasks principal filter, store)
  | .commit changes => ((), store.commit changes)

end MemoryStore

end Workflow
