import Mathlib.Data.List.Forall2
import Workflow.Proofs.Columns
import Workflow.Proofs.Endurance
import Workflow.Proofs.Reading

/-! Rows that show the same as records in memory. A row has the fields that its record never changes
from the day on which it was inserted, and the others from the last write; rows of tasks are
numbered in the order of the records. -/

namespace Workflow

section Lists

variable {ρ α β κ : Type} {R : ρ → α → Prop} {rows : List ρ} {records : List α}

theorem find?_shows {p : ρ → Bool} {q : α → Bool} (all : List.Forall₂ R rows records)
    (same : ∀ row record, R row record → p row = q record) :
    Option.Rel R (rows.find? p) (records.find? q) := by
  induction all with
  | nil => exact .none
  | @cons row record _ _ here _ ih =>
    rw [List.find?_cons, List.find?_cons, same row record here]
    cases q record with
    | true => exact .some here
    | false => exact ih

theorem any_shows {p : ρ → Bool} {q : α → Bool} (all : List.Forall₂ R rows records)
    (same : ∀ row record, R row record → p row = q record) : rows.any p = records.any q := by
  induction all with
  | nil => rfl
  | cons here _ ih => rw [List.any_cons, List.any_cons, same _ _ here, ih]

theorem filter_shows {p : ρ → Bool} {q : α → Bool} (all : List.Forall₂ R rows records)
    (same : ∀ row record, R row record → p row = q record) :
    List.Forall₂ R (rows.filter p) (records.filter q) := by
  induction all with
  | nil => exact .nil
  | @cons row record _ _ here _ ih =>
    rw [List.filter_cons, List.filter_cons, same row record here]
    split
    · exact .cons here ih
    · exact ih

theorem upsert_shows [DecidableEq κ] {rowKey : ρ → κ} {key : α → κ} {row : ρ} {record : α}
    (all : List.Forall₂ R rows records) (same : ∀ row record, R row record → rowKey row = key record)
    (here : R row record) :
    List.Forall₂ R (upsert rowKey row rows) (upsert key record records) := by
  induction all with
  | nil => exact .cons here .nil
  | cons first rest ih =>
    rw [upsert, upsert, same _ _ first, same _ _ here]
    split
    · exact .cons here rest
    · exact .cons first ih

/-- A row that is written shows the record that is, if it does where there was none of its key, and
where there was one. -/
theorem write_shows {rowKey : ρ → Uuid} {key : α → Uuid} {update : ρ → ρ → ρ} {row : ρ} {record : α}
    (all : List.Forall₂ R rows records) (same : ∀ row record, R row record → rowKey row = key record)
    (keyed : rowKey row = key record)
    (new : records.find? (fun other => key other = key record) = none → R row record)
    (known : ∀ old stored, R old stored →
      records.find? (fun other => key other = key record) = some stored → R (update old row) record) :
    List.Forall₂ R (Database.write rowKey update row rows) (upsert key record records) := by
  have found := find?_shows all (p := fun other => rowKey other = rowKey row)
    (q := fun other => key other = key record) fun other stored here => by
      rw [same other stored here, keyed]
  unfold Database.write
  cases before : records.find? (fun other => key other = key record) with
  | none =>
    rw [before] at found
    cases absent : rows.find? (fun other => rowKey other = rowKey row) with
    | some old => rw [absent] at found; cases found
    | none =>
      have fresh : key record ∉ records.map key := by
        intro member
        obtain ⟨other, stored, equal⟩ := List.mem_map.mp member
        simpa [equal] using List.find?_eq_none.mp before other stored
      rw [upsert_new fresh]
      exact List.rel_append all (.cons (new before) .nil)
  | some stored =>
    rw [before] at found
    cases present : rows.find? (fun other => rowKey other = rowKey row) with
    | none => rw [present] at found; cases found
    | some old =>
      rw [present] at found
      cases found with
      | some here => exact upsert_shows all same (known old stored here before)

end Lists

namespace Timestamp

/-- A time of whole microseconds that is not in a leap second. -/
def IsWhole (time : Timestamp) : Prop :=
  time.isLeap = false ∧ time.nanos % 1000 = 0

theorem make?_valid {seconds : Int} {nanos : Nat} (valid : Valid seconds nanos) :
    make? seconds nanos = some ⟨seconds, nanos, valid⟩ :=
  dif_pos valid

theorem IsWhole.toMicros {time : Timestamp} (whole : time.IsWhole) : time.toMicros = time := by
  obtain ⟨seconds, nanos, valid⟩ := time
  obtain ⟨unleapt, rounded⟩ := whole
  have below : nanos < 1_000_000_000 := by simpa [isLeap] using unleapt
  have rounded : nanos % 1000 = 0 := rounded
  have scaled : (seconds - 946684800) * 1_000_000_000 + (nanos : Int) =
      ((seconds - 946684800) * 1_000_000 + (nanos / 1000 : Nat)) * 1000 := by omega
  have micros : microsSince2000 ⟨seconds, nanos, valid⟩ =
      (seconds - 946684800) * 1_000_000 + (nanos / 1000 : Nat) := by
    simp only [microsSince2000]
    rw [scaled, Int.mul_tdiv_cancel _ (by decide)]
  have sameSeconds : 946684800 + ((seconds - 946684800) * 1_000_000 + (nanos / 1000 : Nat)) / 1_000_000 =
      seconds := by omega
  have sameNanos : (((seconds - 946684800) * 1_000_000 + (nanos / 1000 : Nat)) % 1_000_000).toNat * 1000 =
      nanos := by omega
  simp only [Timestamp.toMicros, ofMicrosSince2000?, micros, sameSeconds, sameNanos,
    make?_valid valid, Option.getD_some]

theorem IsWhole.add? {time later : Timestamp} (whole : time.IsWhole) {span : Span}
    (reached : time.add? span = some later) : later.IsWhole := by
  rw [add?_eq whole.1] at reached
  obtain ⟨_, nanos⟩ := make?_eq_some.mp reached
  unfold IsWhole isLeap
  rw [nanos]
  exact whole

end Timestamp

class LawfulNamed (α : Type) [Named α] : Prop where
  ofText_name : ∀ value : α, Named.ofText (Named.name value) = .ok value

instance : LawfulNamed DefinitionStatus :=
  ⟨fun status => by cases status <;> decide +kernel⟩

instance : LawfulNamed InstanceStatus :=
  ⟨fun status => by cases status <;> decide +kernel⟩

instance : LawfulNamed TaskStatus :=
  ⟨fun status => by cases status <;> decide +kernel⟩

instance : LawfulNamed Priority :=
  ⟨fun priority => by cases priority <;> decide +kernel⟩

section Columns

variable {α : Type} [Named α] [LawfulNamed α]

theorem readColumn_name (noun : String) (id : Uuid) (value : α) :
    readColumn noun id (Named.name value) = .ok value := by
  rw [readColumn, LawfulNamed.ofText_name]
  rfl

theorem name_eq_name {first second : α} : Named.name first = Named.name second ↔ first = second := by
  refine ⟨fun same => ?_, congrArg _⟩
  have read := LawfulNamed.ofText_name first
  rw [same, LawfulNamed.ofText_name second] at read
  exact (Except.ok.inj read).symm

end Columns

namespace Instance

structure IsWhole (target : Instance) : Prop where
  startedAt : target.startedAt.IsWhole
  completedAt : ∀ time, target.completedAt = some time → time.IsWhole

end Instance

namespace Task

structure IsWhole (task : Task) : Prop where
  createdAt : task.createdAt.IsWhole
  dueAt : ∀ time, task.dueAt = some time → time.IsWhole
  completedAt : ∀ time, task.completedAt = some time → time.IsWhole

end Task

theorem map_toMicros {time : Option Timestamp} (whole : ∀ one, time = some one → one.IsWhole) :
    time.map Timestamp.toMicros = time := by
  cases time with
  | none => rfl
  | some one => rw [Option.map_some, (whole one rfl).toMicros]

namespace DefinitionRow

/-- The row of a definition. Its body may have an older status. -/
structure Shows (row : DefinitionRow String) (definition : Definition) : Prop where
  id : row.id = definition.id
  name : row.name = definition.name
  version : row.version = definition.version
  status : row.status = Named.name definition.status
  body : ∃ body, decodeColumn "body" (Definition.read row.id) row.body = .ok body ∧
    { body with id := definition.id, status := definition.status, createdAt := some row.createdAt } =
      definition

theorem Shows.read {row : DefinitionRow String} {definition : Definition}
    (shown : row.Shows definition) : row.read = .ok definition := by
  obtain ⟨body, decoded, same⟩ := shown.body
  have fetched : row.decode = .ok { row with body } := by
    simp only [decode, decoded, bind, Except.bind]
    rfl
  have told : row.read = { row with body }.toDefinition := by
    rw [DefinitionRow.read, fetched]
    rfl
  rw [told, toDefinition]
  simp only [shown.status, readColumn_name, shown.id]
  exact congrArg Except.ok same

/-- A row for a definition that is read back shows it as of the date that is kept of it. -/
theorem ofDefinition_shows (now : Timestamp) {definition : Definition} (back : definition.ReadsBack)
    (recognized : ∀ step ∈ definition.steps, step.kind ∈ StepKind.recognizedKinds) :
    (ofDefinition now definition).encode.Shows
      { definition with createdAt := some (ofDefinition now definition).createdAt } :=
  ⟨rfl, rfl, rfl, rfl, definition, back.decodeColumn recognized _, rfl⟩

theorem shows_ofDefinition {now time : Timestamp} {definition : Definition}
    (back : definition.ReadsBack)
    (recognized : ∀ step ∈ definition.steps, step.kind ∈ StepKind.recognizedKinds)
    (dated : definition.createdAt = some time) (whole : time.IsWhole) :
    (ofDefinition now definition).encode.Shows definition := by
  have kept : (ofDefinition now definition).createdAt = time := by
    rw [ofDefinition, dated, Option.getD_some, whole.toMicros]
  have shown := ofDefinition_shows now back recognized
  rw [kept, ← dated] at shown
  exact shown

theorem Shows.move {row : DefinitionRow String} {definition : Definition}
    (shown : row.Shows definition) (status : DefinitionStatus) :
    { row with status := Named.name status }.Shows { definition with status } where
  id := shown.id
  name := shown.name
  version := shown.version
  status := rfl
  body := by
    obtain ⟨body, decoded, same⟩ := shown.body
    refine ⟨body, decoded, ?_⟩
    conv_rhs => rw [← same]

end DefinitionRow

namespace InstanceRow

def Shows (row : InstanceRow String String) (target : Instance) : Prop :=
  row = (ofInstance target).encode ∧ target.IsWhole

theorem Shows.read_data {row : InstanceRow String String} {target : Instance}
    (shown : row.Shows target) {data : Json.Members}
    (told : decodeColumn "data" Document.readObject (Json.object target.data).render = .ok data) :
    row.read = .ok { target with data } := by
  obtain ⟨rfl, whole⟩ := shown
  have decoded : (ofInstance target).encode.decode = .ok { ofInstance target with data } := by
    have steps := decodeColumn_steps target.pendingSteps
    simp only [decode, encode, ofInstance, told, steps, bind, Except.bind]
    rfl
  have reads : (ofInstance target).encode.read = { ofInstance target with data }.toInstance := by
    rw [InstanceRow.read, decoded]
    rfl
  rw [reads, toInstance]
  simp only [ofInstance, readColumn_name, whole.startedAt.toMicros, map_toMicros whole.completedAt]
  rfl

theorem Shows.read {row : InstanceRow String String} {target : Instance} (shown : row.Shows target)
    (back : (Json.object target.data).ReadsBack) : row.read = .ok target :=
  shown.read_data (decodeColumn_data back)

theorem Shows.updated {row : InstanceRow String String} {old new : Instance} (shown : row.Shows old)
    (continues : old.Continues new) (whole : new.IsWhole) :
    (row.updated (ofInstance new).encode).Shows new := by
  obtain ⟨rfl, _⟩ := shown
  refine ⟨?_, whole⟩
  simp only [InstanceRow.updated, encode, ofInstance, continues.id, continues.definitionId,
    continues.definitionVersion, continues.startedBy, continues.startedAt]

end InstanceRow

namespace TaskRow

def Shows (row : TaskRow String) (task : Task) : Prop :=
  row = { (ofTask task).encode with seq := row.seq } ∧ task.IsWhole

theorem Shows.decode {row : TaskRow String} {task : Task} (shown : row.Shows task)
    (back : (Json.object task.data).ReadsBack) :
    row.decode = .ok { ofTask task with seq := row.seq } := by
  rw [shown.1]
  have data : decodeColumn "data" Document.readObject (ofTask task).encode.data = .ok task.data :=
    decodeColumn_data back
  simp only [TaskRow.decode, data, bind, Except.bind]
  rfl

theorem toTask_ofTask {task : Task} (whole : task.IsWhole) (seq : Nat) :
    { ofTask task with seq }.toTask = .ok task := by
  rw [toTask]
  simp only [ofTask, readColumn_name, whole.createdAt.toMicros, map_toMicros whole.dueAt,
    map_toMicros whole.completedAt]
  rfl

theorem Shows.read {row : TaskRow String} {task : Task} (shown : row.Shows task)
    (back : (Json.object task.data).ReadsBack) : row.read = .ok task := by
  rw [TaskRow.read, shown.decode back]
  exact toTask_ofTask shown.2 row.seq

theorem Shows.updated {row new : TaskRow String} {old task : Task} (shown : row.Shows old)
    (written : new.Shows task) (continues : old.Continues task) : (row.updated new).Shows task := by
  obtain ⟨same, _⟩ := shown
  obtain ⟨made, whole⟩ := written
  refine ⟨?_, whole⟩
  rw [same, made]
  simp only [TaskRow.updated, encode, ofTask, continues.id, continues.instanceId, continues.stepId,
    continues.assignee, continues.assignedRole, continues.priority, continues.dueAt,
    continues.createdAt]

end TaskRow

/-- With distinct keys a record that is known is written by a change of the records with its key. -/
theorem upsert_eq_map {α κ : Type} [DecidableEq κ] {key : α → κ} {record : α} {records : List α}
    (distinct : (records.map key).Nodup) (known : key record ∈ records.map key) :
    upsert key record records =
      records.map fun other => if key other = key record then record else other := by
  induction records with
  | nil => cases known
  | cons first rest ih =>
    obtain ⟨new, distinct⟩ := List.nodup_cons.mp distinct
    rw [upsert, List.map_cons]
    by_cases here : key first = key record
    · rw [if_pos here, if_pos here]
      refine congrArg (record :: ·) ((List.map_congr_left fun other member => if_neg ?_).trans
        (List.map_id' rest)).symm
      intro same
      exact new (here.trans same.symm ▸ List.mem_map.mpr ⟨other, member, rfl⟩)
    · have later := (List.mem_cons.mp known).resolve_left fun same => here same.symm
      rw [if_neg here, if_neg here, ih distinct later]

namespace Definition

def isMoved (id : Uuid) (source : DefinitionStatus) (definition : Definition) : Bool :=
  definition.id = id && definition.status = source

def moved (id : Uuid) (source target : DefinitionStatus) (definition : Definition) : Definition :=
  if definition.isMoved id source = true then { definition with status := target } else definition

end Definition

theorem MemoryStore.transition_eq {records : MemoryStore}
    (distinct : (records.definitions.map (·.id)).Nodup) (id : Uuid)
    (source target : DefinitionStatus) :
    records.transition id source target =
      (records.definitions.any (Definition.isMoved id source),
        { records with definitions := records.definitions.map (Definition.moved id source target) }) := by
  have idle (none : ∀ definition ∈ records.definitions, ¬ definition.isMoved id source = true) :
      (false, records) = (records.definitions.any (Definition.isMoved id source),
        { records with
          definitions := records.definitions.map (Definition.moved id source target) }) := by
    have same : records.definitions.map (Definition.moved id source target) = records.definitions :=
      (List.map_congr_left fun definition member => if_neg (none definition member)).trans
        (List.map_id' _)
    rw [List.any_eq_false.mpr none, same]
  unfold MemoryStore.transition
  cases found : records.definition? id with
  | none =>
    refine idle fun definition member concerned => ?_
    simp only [Definition.isMoved, Bool.and_eq_true] at concerned
    exact List.find?_eq_none.mp found definition member concerned.1
  | some definition =>
    have member := mem_of_definition? found
    have named := definition?_id found
    have only (other : Definition) (stored : other ∈ records.definitions) (same : other.id = id) :
        other = definition := by
      have own := find?_of_mem distinct stored
      simp only [same] at own
      exact Option.some.inj (own.symm.trans found)
    simp only
    split
    next expected =>
      have concerned : records.definitions.any (Definition.isMoved id source) = true :=
        List.any_eq_true.mpr ⟨definition, member, by simp [Definition.isMoved, named, expected]⟩
      have written : upsert (·.id) { definition with status := target } records.definitions =
          records.definitions.map (Definition.moved id source target) := by
        have known : { definition with status := target }.id ∈ records.definitions.map (·.id) :=
          List.mem_map.mpr ⟨definition, member, rfl⟩
        refine (upsert_eq_map distinct known).trans (List.map_congr_left fun other stored => ?_)
        by_cases same : other.id = id
        · rw [only other stored same]
          simp [Definition.moved, Definition.isMoved, named, expected]
        · simp [Definition.moved, Definition.isMoved, named, same]
      rw [concerned, MemoryStore.saveDefinition, written]
    next different =>
      refine idle fun other stored concerned => ?_
      simp only [Definition.isMoved, Bool.and_eq_true, decide_eq_true_eq] at concerned
      exact different (only other stored concerned.1 ▸ concerned.2)

/-- A task that is new comes last, and one that is known keeps its place. -/
theorem write_ordered {seq : Nat} {task : TaskRow String} {rows : List (TaskRow String)}
    (ordered : (rows.map (·.seq)).Pairwise (· < ·)) (below : ∀ row ∈ rows, row.seq < seq) :
    ((Database.write (·.id) TaskRow.updated { task with seq } rows).map (·.seq)).Pairwise (· < ·) := by
  unfold Database.write
  split
  next old found =>
    have known : rows.find? (fun other => other.id = (old.updated { task with seq }).id) = some old := by
      have same : old.id = task.id := find?_key found
      simp only [TaskRow.updated, same]
      exact found
    obtain ⟨before, after, shape, written⟩ := upsert_known known
    rw [written, List.map_append, List.map_cons]
    rw [shape, List.map_append, List.map_cons] at ordered
    exact ordered
  next =>
    rw [List.map_append, List.map_singleton]
    refine List.pairwise_append.mpr ⟨ordered, List.pairwise_singleton _ _, ?_⟩
    intro first member last single
    obtain ⟨row, stored, same⟩ := List.mem_map.mp member
    rw [List.mem_singleton.mp single, ← same]
    exact below row stored

/-- Changes that rows can show: they go on from what is stored, belong to one instance of a stored
definition, and have whole times. -/
structure Lands (records : MemoryStore) (changes : ChangeSet) : Prop where
  carries : Carries records changes
  distinct : (changes.tasks.map (·.id)).Nodup
  governed : (records.definition? changes.target.definitionId).isSome = true
  target : changes.target.IsWhole
  tasks : ∀ task ∈ changes.tasks, task.IsWhole

structure MemoryStore.ReadsBack (records : MemoryStore) : Prop where
  instances : ∀ target ∈ records.instances, (Json.object target.data).ReadsBack
  tasks : ∀ task ∈ records.tasks, (Json.object task.data).ReadsBack

structure Mirrors (records : MemoryStore) (database : Database) : Prop where
  faults : database.faults = []
  definitions : List.Forall₂ DefinitionRow.Shows database.tables.definitions records.definitions
  instances : List.Forall₂ InstanceRow.Shows database.tables.instances records.instances
  tasks : List.Forall₂ TaskRow.Shows database.tables.tasks records.tasks
  ordered : (database.tables.tasks.map (·.seq)).Pairwise (· < ·)
  numbered : database.Numbered

namespace Mirrors

open Database

variable {records : MemoryStore} {database : Database} {α : Type}

theorem empty : Mirrors {} {} :=
  ⟨rfl, .nil, .nil, .nil, List.Pairwise.nil, List.forall_mem_nil _⟩

theorem act_eq (mirrors : Mirrors records database) {query : Query α} {statement : String}
    {taken : Nat} {effect : Nat → Tables → Except Failure (α × Tables)} {value : α} {tables : Tables}
    (same : query = act statement taken effect)
    (told : effect database.nextSeq database.tables = .ok (value, tables)) :
    query database =
      (.ok value, { database with tables, nextSeq := database.nextSeq + taken }) :=
  act_healthy mirrors.faults same told

theorem fetch_eq (mirrors : Mirrors records database) {query : Query α} {statement : String}
    {fetch : Tables → Except Failure α} {value : α}
    (same : query = act statement 0 fun _ tables => (fetch tables).map (·, tables))
    (told : fetch database.tables = .ok value) : query database = (.ok value, database) :=
  fetch_healthy mirrors.faults same told

theorem mapM_option {ρ β : Type} {R : ρ → β → Prop} {read : ρ → Except Failure β}
    {row : Option ρ} {record : Option β} (related : Option.Rel R row record)
    (reads : ∀ row, ∀ stored ∈ record, R row stored → read row = .ok stored) :
    row.mapM read = .ok record := by
  cases related with
  | none => rfl
  | some here =>
    rw [Option.mapM_some, reads _ _ rfl here]
    rfl

theorem inOrder_filter (mirrors : Mirrors records database) (keeps : TaskRow String → Bool) :
    inOrder (database.tables.tasks.filter keeps) = database.tables.tasks.filter keeps := by
  refine List.mergeSort_of_pairwise ?_
  have ordered := List.pairwise_map.mp mirrors.ordered
  exact (ordered.filter keeps).imp fun below => decide_eq_true (Nat.le_of_lt below)

theorem limited_eq {filter : TaskFilter}
    (bounded : ∀ limit, filter.limit = some limit → limit < 0x8000000000000000)
    (rows : List (TaskRow String)) :
    limited filter rows = match filter.limit with
      | some limit => rows.take limit
      | none => rows := by
  unfold limited
  cases limit : filter.limit with
  | none => rfl
  | some count =>
    have fits : decide (count < 0x8000000000000000) = true := decide_eq_true (bounded count limit)
    simp only [Option.filter_some, fits, if_true]

theorem readAll_eq {rows : List (TaskRow String)} {tasks : List Task}
    (all : List.Forall₂ TaskRow.Shows rows tasks)
    (back : ∀ task ∈ tasks, (Json.object task.data).ReadsBack) :
    TaskRow.readAll rows = .ok tasks := by
  have fetched : ∃ fetched, rows.mapM TaskRow.decode = .ok fetched ∧
      TaskRow.toTasks fetched = .ok tasks := by
    induction all with
    | nil => exact ⟨[], rfl, rfl⟩
    | @cons row task _ _ shown _ ih =>
      obtain ⟨here, later⟩ := List.forall_mem_cons.mp back
      obtain ⟨fetched, decoded, told⟩ := ih later
      refine ⟨{ TaskRow.ofTask task with seq := row.seq } :: fetched, ?_, ?_⟩
      · rw [List.mapM_cons, shown.decode here, decoded]
        rfl
      · rw [TaskRow.toTasks, List.mapM_cons, TaskRow.toTask_ofTask shown.2, ← TaskRow.toTasks, told]
        rfl
  obtain ⟨fetched, decoded, told⟩ := fetched
  rw [TaskRow.readAll, decoded]
  exact told

theorem tasksOf_eq (mirrors : Mirrors records database) (back : records.ReadsBack) (target : Uuid)
    (status : Option TaskStatus) {keeps : Task → Bool} (same : ∀ row task, TaskRow.Shows row task →
      (row.instanceId = target && status.all fun status => row.status = Named.name status) =
        keeps task) :
    Database.tasksOf target status database = (.ok (records.tasks.filter keeps), database) := by
  refine mirrors.fetch_eq (tasksOf_act target status) ?_
  rw [mirrors.inOrder_filter]
  exact readAll_eq (filter_shows mirrors.tasks same) fun task listed =>
    back.tasks task (List.mem_of_mem_filter listed)

/-- Rows are listed where the tasks that they show are. -/
theorem assigned_eq {row : TaskRow String} {task : Task} (shown : row.Shows task) (principal : String)
    (filter : TaskFilter) :
    (row.assignee = some principal && (filter.status.all fun status => row.status = Named.name status) &&
      filter.instanceId.all fun id => row.instanceId = id) =
      (task.assignee = some principal && filter.admits task) := by
  rw [shown.1, Bool.and_assoc]
  simp only [TaskRow.encode, TaskRow.ofTask, name_eq_name]
  rfl

theorem assignedTasks_eq (mirrors : Mirrors records database) (back : records.ReadsBack)
    (principal : String) {filter : TaskFilter}
    (bounded : (StoreCall.assignedTasks principal filter).IsBounded) :
    Database.assignedTasks principal filter database =
      (.ok (records.assignedTasks principal filter), database) := by
  refine mirrors.fetch_eq (assignedTasks_act principal filter) ?_
  have listed := filter_shows mirrors.tasks fun row task shown =>
    assigned_eq shown principal filter
  have held : ∀ task ∈ records.tasks.filter fun task =>
      task.assignee = some principal && filter.admits task, (Json.object task.data).ReadsBack :=
    fun task member => back.tasks task (List.mem_of_mem_filter member)
  rw [assignedRows, mirrors.inOrder_filter, limited_eq bounded, MemoryStore.assignedTasks]
  cases filter.limit with
  | none => exact readAll_eq listed held
  | some limit =>
    exact readAll_eq (List.forall₂_take limit listed) fun task member =>
      held task (List.mem_of_mem_take member)

/-- What is asked of the store is told from the rows as from the records. -/
theorem reads (mirrors : Mirrors records database) (back : records.ReadsBack) {call : StoreCall α}
    (reads : call.IsRead) (bounded : call.IsBounded) (now : Timestamp) :
    database.answer now call = (.ok (records.answer call).1, database) := by
  cases call with
  | loadDefinition id =>
    refine mirrors.fetch_eq (loadDefinition_act id) (mapM_option ?_ fun _ _ _ => DefinitionRow.Shows.read)
    exact find?_shows mirrors.definitions fun row definition shown => by rw [shown.id]
  | findDefinition name version =>
    refine mirrors.fetch_eq (findDefinition_act name version)
      (mapM_option ?_ fun _ _ _ => DefinitionRow.Shows.read)
    exact find?_shows mirrors.definitions fun row definition shown => by
      rw [shown.name, shown.version]
  | loadInstance id =>
    have found := find?_shows mirrors.instances (p := fun row => row.id = id)
      (q := fun target => target.id = id) fun row target shown => by rw [shown.1]; rfl
    refine mirrors.fetch_eq (loadInstance_act id) (mapM_option found fun row target stored shown => ?_)
    exact shown.read (back.instances target (List.mem_of_find?_eq_some stored))
  | loadTask id =>
    have found := find?_shows mirrors.tasks (p := fun row => row.id = id)
      (q := fun task => task.id = id) fun row task shown => by rw [shown.1]; rfl
    refine mirrors.fetch_eq (loadTask_act id) (mapM_option found fun row task stored shown => ?_)
    exact shown.read (back.tasks task (List.mem_of_find?_eq_some stored))
  | pendingTasks target =>
    refine mirrors.tasksOf_eq back target (some .pending) fun row task shown => ?_
    rw [shown.1]
    simp only [TaskRow.encode, TaskRow.ofTask, Option.all_some, name_eq_name, Task.isPending]
    rfl
  | tasksOf target =>
    refine mirrors.tasksOf_eq back target none fun row task shown => ?_
    rw [shown.1]
    exact Bool.and_true _
  | assignedTasks principal filter => exact mirrors.assignedTasks_eq back principal bounded
  | _ => exact reads.elim

/-- The answer to a call that writes is that of the records, which the database goes on showing. -/
def Follows (records : MemoryStore) (database : Database) (now : Timestamp) (call : StoreCall α) :
    Prop :=
  ∃ after, database.answer now call = (.ok (records.answer call).1, after) ∧
    Mirrors (records.answer call).2 after

theorem saveDefinition (mirrors : Mirrors records database) {draft : Definition} {time : Timestamp}
    (back : draft.ReadsBack)
    (recognized : ∀ step ∈ draft.steps, step.kind ∈ StepKind.recognizedKinds)
    (dated : draft.createdAt = some time) (whole : time.IsWhole)
    (unnamed : records.named? draft.name draft.version = none)
    (unused : records.definition? draft.id = none) (now : Timestamp) :
    Follows records database now (.saveDefinition draft) := by
  let new := (DefinitionRow.ofDefinition now draft).encode
  have free : database.tables.definitions.any (sameName new) = false := by
    have absent := find?_shows mirrors.definitions
      (p := fun row => row.name = draft.name ∧ row.version = draft.version)
      (q := fun definition => definition.name = draft.name ∧ definition.version = draft.version)
      fun row definition shown => by rw [shown.name, shown.version]
    rw [← MemoryStore.named?, unnamed] at absent
    cases found : database.tables.definitions.find?
        (fun row => row.name = draft.name ∧ row.version = draft.version) with
    | some row => rw [found] at absent; cases absent
    | none =>
      refine List.any_eq_false.mpr fun row member same => ?_
      have different := List.find?_eq_none.mp found row member
      simp only [sameName, Bool.and_eq_true] at same
      exact different (decide_eq_true ⟨of_decide_eq_true same.1.2, of_decide_eq_true same.2⟩)
  have written : List.Forall₂ DefinitionRow.Shows
      (write (·.id) DefinitionRow.updated new database.tables.definitions)
      (upsert (·.id) draft records.definitions) := by
    refine write_shows mirrors.definitions (fun _ _ shown => shown.id) rfl
      (fun _ => DefinitionRow.shows_ofDefinition back recognized dated whole) fun _ _ _ found => ?_
    cases unused.symm.trans found
  refine ⟨_, mirrors.act_eq (saveDefinition_act now draft) (if_neg (ne_true_of_eq_false free)),
    mirrors.faults, written, mirrors.instances, mirrors.tasks, mirrors.ordered, mirrors.numbered⟩

theorem transition (mirrors : Mirrors records database)
    (distinct : (records.definitions.map (·.id)).Nodup) (id : Uuid)
    (source target : DefinitionStatus) (now : Timestamp) :
    Follows records database now (.transition id source target) := by
  have same (row : DefinitionRow String) (definition : Definition) (shown : row.Shows definition) :
      (row.id = id && row.status = Named.name source) = definition.isMoved id source := by
    simp only [shown.id, shown.status, name_eq_name, Definition.isMoved]
  have moved : List.Forall₂ DefinitionRow.Shows
      (database.tables.definitions.map fun row =>
        if (row.id = id && row.status = Named.name source) = true then
          { row with status := Named.name target } else row)
      (records.definitions.map (Definition.moved id source target)) := by
    refine List.rel_map (fun row definition shown => ?_) mirrors.definitions
    rw [same row definition shown, Definition.moved]
    split
    · exact shown.move target
    · exact shown
  have told : (records.answer (.transition id source target)) = _ :=
    MemoryStore.transition_eq distinct id source target
  rw [Follows, told, ← any_shows mirrors.definitions same]
  exact ⟨_, mirrors.act_eq (transition_act id source target) rfl, mirrors.faults, moved,
    mirrors.instances, mirrors.tasks, mirrors.ordered, mirrors.numbered⟩

theorem saveInstance (mirrors : Mirrors records database) {target : Instance}
    (continues : ∀ old, records.instance? target.id = some old → old.Continues target)
    (governed : (records.definition? target.definitionId).isSome = true) (whole : target.IsWhole) :
    ∃ after, Database.saveInstance target database = (.ok (), after) ∧
      Mirrors (records.saveInstance target) after := by
  have referred : database.tables.definitions.any (fun other => other.id = target.definitionId) =
      true := by
    rw [any_shows mirrors.definitions (q := fun other => other.id = target.definitionId)
      fun row definition shown => by rw [shown.id]]
    exact List.any_eq_true.mpr (List.find?_isSome.mp governed)
  have written : List.Forall₂ InstanceRow.Shows
      (write (·.id) InstanceRow.updated (InstanceRow.ofInstance target).encode
        database.tables.instances)
      (upsert (·.id) target records.instances) := by
    refine write_shows mirrors.instances (fun _ _ shown => by rw [shown.1]; rfl) rfl
      (fun _ => ⟨rfl, whole⟩) fun old stored shown found => ?_
    exact shown.updated (continues stored found) whole
  refine ⟨_, mirrors.act_eq (saveInstance_act target) (if_neg ?_), mirrors.faults,
    mirrors.definitions, written, mirrors.tasks, mirrors.ordered, mirrors.numbered⟩
  rw [referred, Bool.not_true, Bool.and_false]
  exact Bool.false_ne_true

theorem saveTask (mirrors : Mirrors records database) {task : Task}
    (continues : ∀ old, records.task? task.id = some old → old.Continues task)
    (housed : (records.instance? task.instanceId).isSome = true) (whole : task.IsWhole) :
    ∃ after, Database.saveTask task database = (.ok (), after) ∧
      Mirrors (records.saveTask task) after := by
  have referred : database.tables.instances.any (fun other => other.id = task.instanceId) = true := by
    rw [any_shows mirrors.instances (q := fun other => other.id = task.instanceId)
      fun row target shown => by rw [shown.1]; rfl]
    exact List.any_eq_true.mpr (List.find?_isSome.mp housed)
  let row : TaskRow String := { (TaskRow.ofTask task).encode with seq := database.nextSeq }
  have written : List.Forall₂ TaskRow.Shows
      (write (·.id) TaskRow.updated row database.tables.tasks)
      (upsert (·.id) task records.tasks) := by
    refine write_shows mirrors.tasks (fun _ _ shown => by rw [shown.1]; rfl) rfl
      (fun _ => ⟨rfl, whole⟩) fun old stored shown found => ?_
    exact shown.updated ⟨rfl, whole⟩ (continues stored found)
  refine ⟨_, mirrors.act_eq (saveTask_act task) (if_neg ?_), mirrors.faults, mirrors.definitions,
    mirrors.instances, written, write_ordered mirrors.ordered mirrors.numbered,
    fun row member => write_numbers mirrors.numbered member⟩
  rw [referred, Bool.not_true, Bool.and_false]
  exact Bool.false_ne_true

theorem saveTasks (mirrors : Mirrors records database) {tasks : List Task}
    (continues : ∀ task ∈ tasks, ∀ old, records.task? task.id = some old → old.Continues task)
    (housed : ∀ task ∈ tasks, (records.instance? task.instanceId).isSome = true)
    (whole : ∀ task ∈ tasks, task.IsWhole) (distinct : (tasks.map (·.id)).Nodup) :
    ∃ after, tasks.forM Database.saveTask database = (.ok (), after) ∧
      Mirrors (tasks.foldl (fun store task => store.saveTask task) records) after := by
  induction tasks generalizing records database with
  | nil => exact ⟨database, rfl, mirrors⟩
  | cons first rest ih =>
    have here : first ∈ first :: rest := List.mem_cons_self
    obtain ⟨other, distinct⟩ := List.nodup_cons.mp distinct
    obtain ⟨middle, saved, next⟩ :=
      mirrors.saveTask (continues first here) (housed first here) (whole first here)
    have later : ∀ task ∈ rest, task ∈ first :: rest := fun task => List.mem_cons_of_mem first
    obtain ⟨after, told, last⟩ := ih next (fun task member old found => by
        have apart : first.id ≠ task.id := fun same =>
          other (List.mem_map.mpr ⟨task, member, same.symm⟩)
        rw [MemoryStore.task?, MemoryStore.saveTask, find?_upsert, if_neg apart] at found
        exact continues task (later task member) old found)
      (fun task member => housed task (later task member))
      (fun task member => whole task (later task member)) distinct
    refine ⟨after, ?_, last⟩
    change (Database.saveTask first >>= fun _ => rest.forM Database.saveTask) database = _
    rw [Query.bind_apply, saved]
    exact told

theorem send_eq (mirrors : Mirrors records database) (statement : String) :
    send statement database = (.ok (), database) :=
  mirrors.act_eq send_act rfl

theorem commit (mirrors : Mirrors records database) {changes : ChangeSet}
    (lands : Lands records changes) (now : Timestamp) :
    Follows records database now (.commit changes) := by
  obtain ⟨middle, begun, next⟩ := mirrors.saveInstance
    (fun old found => (lands.carries.target old found).2) lands.governed lands.target
  have housed : ∀ task ∈ changes.tasks,
      ((records.saveInstance changes.target).instance? task.instanceId).isSome = true := by
    intro task member
    rw [lands.carries.confined.own task member, MemoryStore.instance?, MemoryStore.saveInstance,
      find?_upsert, if_pos rfl]
    rfl
  obtain ⟨after, written, last⟩ := next.saveTasks
    (fun task member old found => (lands.carries.tasks task member old found).2) housed lands.tasks
    lands.distinct
  refine ⟨after, ?_, last⟩
  change transaction _ database = _
  rw [transaction, Query.bind_apply, mirrors.send_eq]
  simp only
  rw [Query.bind_apply, begun]
  simp only
  rw [Query.bind_apply, written]
  simp only
  rw [last.send_eq]

end Mirrors

end Workflow
