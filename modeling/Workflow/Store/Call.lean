import Workflow.Instance.Basic

/-! The calls that a store of definitions, instances and tasks answers. -/

namespace Workflow

/-- A call with the type of its answer. Records that are asked for may be missing, and lists of
tasks are in the order in which the tasks were first written. -/
inductive StoreCall : Type → Type where
  | saveDefinition (definition : Definition) : StoreCall Unit
  | loadDefinition (id : Uuid) : StoreCall (Option Definition)
  | findDefinition (name version : String) : StoreCall (Option Definition)
  /-- Moves a definition from one status to another, unless it has a different one. -/
  | transition (id : Uuid) (source target : DefinitionStatus) : StoreCall Bool
  | saveInstance (target : Instance) : StoreCall Unit
  | loadInstance (id : Uuid) : StoreCall (Option Instance)
  | saveTask (task : Task) : StoreCall Unit
  | loadTask (id : Uuid) : StoreCall (Option Task)
  | pendingTasks (target : Uuid) : StoreCall (List Task)
  | tasksOf (target : Uuid) : StoreCall (List Task)
  | assignedTasks (principal : String) (filter : TaskFilter) : StoreCall (List Task)
  /-- Writes an instance and tasks of it, all of them or none. -/
  | commit (changes : ChangeSet) : StoreCall Unit

def StoreCall.name {α : Type} : StoreCall α → String
  | saveDefinition _ => "save_definition"
  | loadDefinition _ => "load_definition"
  | findDefinition .. => "find_definition"
  | transition .. => "transition_definition_status"
  | saveInstance _ => "save_instance"
  | loadInstance _ => "load_instance"
  | saveTask _ => "save_task"
  | loadTask _ => "load_task"
  | pendingTasks _ => "list_pending_tasks_for_instance"
  | tasksOf _ => "list_tasks_for_instance"
  | assignedTasks .. => "list_tasks_for_assignee"
  | commit _ => "commit"

end Workflow
