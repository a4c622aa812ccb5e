import Workflow.Store.Call
import Workflow.Store.Memory
import Workflow.Store.Row
import Workflow.Store.Statement
import Workflow.Text.Digits

/-! A relational store: three tables with their keys, uniqueness and references. References are
checked when a row is inserted, and a transaction that fails leaves the tables as they were. Tasks
are numbered by a sequence, which no transaction turns back. -/

namespace Workflow

/-- A statement of the future that fails: the `remaining`-th whose text holds the pattern. -/
structure StatementFault where
  pattern : String
  remaining : Nat
  error : DatabaseError
deriving Repr

def uniqueViolationCode : String := "23505"

def StatementFault.make (pattern : String) (count : Nat) (code message : String) :
    StatementFault :=
  let error :=
    if code = uniqueViolationCode then .uniqueViolation message else .rejected message
  { pattern, remaining := count, error }

structure Tables where
  definitions : List (DefinitionRow String) := []
  instances : List (InstanceRow String String) := []
  tasks : List (TaskRow String) := []
deriving Inhabited

structure Database where
  tables : Tables := {}
  /-- The number for the next task. -/
  nextSeq : Nat := 1
  faults : List StatementFault := []
deriving Inhabited

/-- What a statement answers, or how it fails, and the database after it. -/
abbrev Query (α : Type) := ExceptT Failure (StateM Database) α

namespace Database

/-- Counts a statement against the faults that are waiting; the first that is due strikes. -/
def strike (statement : String) : List StatementFault → Option DatabaseError × List StatementFault
  | [] => (none, [])
  | fault :: rest =>
    if Text.occursIn fault.pattern.toList statement.toList then
      if fault.remaining ≤ 1 then (some fault.error, rest)
      else
        let (error, rest) := strike statement rest
        (error, { fault with remaining := fault.remaining - 1 } :: rest)
    else
      let (error, rest) := strike statement rest
      (error, fault :: rest)

/-- Sends a statement, which fails without an effect where a fault strikes. -/
def send (statement : String) : Query Unit := do
  let database ← get
  let (error, faults) := strike statement database.faults
  set { database with faults }
  match error with
  | some error => throw (.database error)
  | none => return ()

def getTables : Query Tables := do
  return (← get).tables

def setTables (tables : Tables) : Query Unit :=
  modify fun database => { database with tables }

/-- Takes a number from the sequence of tasks. One that is not used after all is missing later. -/
def takeSeq : Query Nat := do
  let database ← get
  set { database with nextSeq := database.nextSeq + 1 }
  return database.nextSeq

def reject {α : Type} (error : DatabaseError) : Query α :=
  throw (.database error)

def ofResult {α : Type} (result : Except Failure α) : Query α :=
  ExceptT.mk (pure result)

def referenceMissing (table column : String) : DatabaseError :=
  .rejected ("insert or update on table \"" ++ table ++ "\" violates foreign key constraint \"" ++
    table ++ "_" ++ column ++ "_fkey\"")

def nameTaken : DatabaseError :=
  .uniqueViolation
    "duplicate key value violates unique constraint \"definition_name_version_key\""

/-- Inserts a row, or updates the one with its key. -/
def write {ρ : Type} (key : ρ → Uuid) (update : ρ → ρ → ρ) (row : ρ) (rows : List ρ) : List ρ :=
  match rows.find? fun other => key other = key row with
  | some old => upsert key (update old row) rows
  | none => rows ++ [row]

def sameName (row other : DefinitionRow String) : Bool :=
  other.id ≠ row.id && other.name = row.name && other.version = row.version

def saveDefinition (now : Timestamp) (definition : Definition) : Query Unit := do
  send Statement.upsertDefinition
  let tables ← getTables
  let row := (DefinitionRow.ofDefinition now definition).encode
  if tables.definitions.any (sameName row) then reject nameTaken
  setTables { tables with
    definitions := write (·.id) DefinitionRow.updated row tables.definitions }

def loadDefinition (id : Uuid) : Query (Option Definition) := do
  send Statement.selectDefinition
  let row := (← getTables).definitions.find? fun row => row.id = id
  ofResult (row.mapM DefinitionRow.read)

def findDefinition (name version : String) : Query (Option Definition) := do
  send Statement.selectDefinitionByName
  let row := (← getTables).definitions.find? fun row => row.name = name ∧ row.version = version
  ofResult (row.mapM DefinitionRow.read)

def transition (id : Uuid) (source target : DefinitionStatus) : Query Bool := do
  send Statement.updateDefinitionStatus
  let tables ← getTables
  let concerned (row : DefinitionRow String) : Bool :=
    row.id = id && row.status = Named.name source
  let change (row : DefinitionRow String) : DefinitionRow String :=
    if concerned row then { row with status := Named.name target } else row
  setTables { tables with definitions := tables.definitions.map change }
  return tables.definitions.any concerned

def saveInstance (target : Instance) : Query Unit := do
  send Statement.upsertInstance
  let tables ← getTables
  let row := (InstanceRow.ofInstance target).encode
  let present := tables.instances.any fun other => other.id = row.id
  let referred := tables.definitions.any fun other => other.id = row.definitionId
  if !present && !referred then reject (referenceMissing "instance" "definition_id")
  setTables { tables with instances := write (·.id) InstanceRow.updated row tables.instances }

def loadInstance (id : Uuid) : Query (Option Instance) := do
  send Statement.selectInstance
  let row := (← getTables).instances.find? fun row => row.id = id
  ofResult (row.mapM InstanceRow.read)

/-- A number is taken before it is known whether the task is new. -/
def saveTask (task : Task) : Query Unit := do
  send Statement.upsertTask
  let seq ← takeSeq
  let tables ← getTables
  let row := { (TaskRow.ofTask task).encode with seq }
  let present := tables.tasks.any fun other => other.id = row.id
  let referred := tables.instances.any fun other => other.id = row.instanceId
  if !present && !referred then reject (referenceMissing "task" "instance_id")
  setTables { tables with tasks := write (·.id) TaskRow.updated row tables.tasks }

def loadTask (id : Uuid) : Query (Option Task) := do
  send Statement.selectTask
  let row := (← getTables).tasks.find? fun row => row.id = id
  ofResult (row.mapM TaskRow.read)

def inOrder (rows : List (TaskRow String)) : List (TaskRow String) :=
  rows.mergeSort fun row other => row.seq ≤ other.seq

/-- The tasks of an instance, all of them or those whose status column has a text. -/
def tasksOf (target : Uuid) (status : Option TaskStatus) : Query (List Task) := do
  send Statement.selectTasksOfInstance
  let rows := (← getTables).tasks.filter fun row =>
    row.instanceId = target && status.all fun status => row.status = Named.name status
  ofResult (TaskRow.readAll (inOrder rows))

/-- The rows of tasks assigned to a principal that a filter admits by their columns. -/
def assignedRows (principal : String) (filter : TaskFilter) (rows : List (TaskRow String)) :
    List (TaskRow String) :=
  rows.filter fun row => row.assignee = some principal &&
    (filter.status.all fun status => row.status = Named.name status) &&
    filter.instanceId.all fun id => row.instanceId = id

/-- A limit that does not fit a signed word of 64 bits is none. -/
def assignedTasks (principal : String) (filter : TaskFilter) : Query (List Task) := do
  send Statement.selectAssignedTasks
  let rows := inOrder (assignedRows principal filter (← getTables).tasks)
  match filter.limit.filter (· < 0x8000000000000000) with
  | some limit => ofResult (TaskRow.readAll (rows.take limit))
  | none => ofResult (TaskRow.readAll rows)

/-- Runs a query that leaves the tables as they were when it fails. -/
def transaction {α : Type} (query : Query α) : Query α := fun before =>
  match query before with
  | (.ok value, after) => (.ok value, after)
  | (.error failure, after) => (.error failure, { after with tables := before.tables })

def commit (changes : ChangeSet) : Query Unit :=
  transaction do
    send Statement.beginTransaction
    saveInstance changes.target
    changes.tasks.forM saveTask
    send Statement.commitTransaction

def ensureSchema : Query Unit :=
  Statement.createSchema.forM send

def query {α : Type} (now : Timestamp) : StoreCall α → Query α
  | .saveDefinition definition => saveDefinition now definition
  | .loadDefinition id => loadDefinition id
  | .findDefinition name version => findDefinition name version
  | .transition id source target => transition id source target
  | .saveInstance target => saveInstance target
  | .loadInstance id => loadInstance id
  | .saveTask task => saveTask task
  | .loadTask id => loadTask id
  | .pendingTasks target => tasksOf target (some .pending)
  | .tasksOf target => tasksOf target none
  | .assignedTasks principal filter => assignedTasks principal filter
  | .commit changes => commit changes

def answer {α : Type} (now : Timestamp) (database : Database) (call : StoreCall α) :
    Except Failure α × Database :=
  query now call database

def setDefinitionColumn (column : String) (value : Option String) (row : DefinitionRow String) :
    DefinitionRow String :=
  match column, value with
  | "name", some name => { row with name }
  | "version", some version => { row with version }
  | "status", some status => { row with status }
  | _, _ => row

def setInstanceColumn (column : String) (value : Option String)
    (row : InstanceRow String String) : InstanceRow String String :=
  match column, value with
  | "definition_version", some definitionVersion => { row with definitionVersion }
  | "status", some status => { row with status }
  | "started_by", some startedBy => { row with startedBy }
  | _, _ => row

def setTaskColumn (column : String) (value : Option String) (row : TaskRow String) :
    TaskRow String :=
  match column, value with
  | "step_id", some stepId => { row with stepId }
  | "status", some status => { row with status }
  | "priority", some priority => { row with priority }
  | "assignee", assignee => { row with assignee }
  | "assigned_role", assignedRole => { row with assignedRole }
  | "completed_by", completedBy => { row with completedBy }
  | _, _ => row

/-- Changes the row with a key, and says how many there were. -/
def setWhere {ρ : Type} (key : ρ → Uuid) (id : Uuid) (change : ρ → ρ) (rows : List ρ) :
    Nat × List ρ :=
  (rows.countP fun row => key row = id,
    rows.map fun row => if key row = id then change row else row)

def setColumn (table column : String) (id : Uuid) (value : Option String) (database : Database) :
    Nat × Database :=
  let tables := database.tables
  match table with
  | "definition" =>
    let (count, definitions) :=
      setWhere (·.id) id (setDefinitionColumn column value) tables.definitions
    (count, { database with tables := { tables with definitions } })
  | "instance" =>
    let (count, instances) :=
      setWhere (·.id) id (setInstanceColumn column value) tables.instances
    (count, { database with tables := { tables with instances } })
  | "task" =>
    let (count, tasks) := setWhere (·.id) id (setTaskColumn column value) tables.tasks
    (count, { database with tables := { tables with tasks } })
  | _ => (0, database)

end Database

end Workflow
