import Mathlib.Data.List.Nodup
import Workflow.Proofs.Rollback

/-! The tasks in a store of either kind. Every task has an identifier of its own, whatever is
called, so that a task which is listed is the one which is loaded; and no store ever answers that
something is forbidden. -/

namespace Workflow

def Unrefused {α : Type} (result : Except Failure α) : Prop :=
  ∀ failure, result = .error failure → failure.kind ≠ .forbidden

namespace Unrefused

variable {α β : Type}

theorem ok (value : α) : Unrefused (.ok value) := nofun

theorem error {failure : Failure} (other : failure.kind ≠ .forbidden) :
    Unrefused (.error failure : Except Failure α) := by
  rintro _ ⟨⟩
  exact other

theorem database (error : DatabaseError) :
    Unrefused (.error (.database error) : Except Failure α) := by
  cases error <;> exact .error nofun

theorem bind {reading : Except Failure α} {next : α → Except Failure β}
    (first : Unrefused reading) (rest : ∀ value, Unrefused (next value)) :
    Unrefused (reading >>= next) := by
  cases reading with
  | ok value => exact rest value
  | error failure => exact .error (first failure rfl)

theorem map {reading : Except Failure α} (first : Unrefused reading) (change : α → β) :
    Unrefused (reading.map change) := by
  cases reading with
  | ok value => exact .ok _
  | error failure => exact .error (first failure rfl)

theorem mapM {read : α → Except Failure β} (each : ∀ item, Unrefused (read item))
    (items : List α) : Unrefused (items.mapM read) := by
  induction items with
  | nil => exact .ok _
  | cons item rest ih =>
    rw [List.mapM_cons]
    exact (each item).bind fun _ => ih.bind fun _ => .ok _

theorem mapM_option {read : α → Except Failure β} (each : ∀ item, Unrefused (read item))
    (item : Option α) : Unrefused (item.mapM read) := by
  cases item with
  | none => exact .ok none
  | some item =>
    rw [Option.mapM_some]
    exact (each item).bind fun _ => .ok _

theorem readColumn [Named α] (noun : String) (id : Uuid) (text : String) :
    Unrefused (readColumn noun id text : Except Failure α) := by
  unfold Workflow.readColumn
  cases (Named.ofText text : Except _ α) with
  | ok value => exact .ok value
  | error reason => exact .error nofun

theorem decodeColumn (column : String)
    (read : Document.Format Json.Draft → Document.Place → Json.Draft → Document.Reading α)
    (text : String) : Unrefused (decodeColumn column read text) := by
  unfold Workflow.decodeColumn
  cases Json.readDocument read text with
  | ok value => exact .ok value
  | error problem => exact .database _

theorem readDefinition (row : DefinitionRow String) : Unrefused row.read :=
  ((decodeColumn _ _ _).bind fun _ => .ok _).bind fun _ => (readColumn _ _ _).bind fun _ => .ok _

theorem readInstance (row : InstanceRow String String) : Unrefused row.read :=
  ((decodeColumn _ _ _).bind fun _ => (decodeColumn _ _ _).bind fun _ => .ok _).bind fun _ =>
    (readColumn _ _ _).bind fun _ => .ok _

theorem decodeTask (row : TaskRow String) : Unrefused row.decode :=
  (decodeColumn _ _ _).bind fun _ => .ok _

theorem toTask (row : TaskRow) : Unrefused row.toTask :=
  (readColumn _ _ _).bind fun _ => (readColumn _ _ _).bind fun _ => .ok _

theorem readTask (row : TaskRow String) : Unrefused row.read :=
  (decodeTask row).bind toTask

theorem readTasks (rows : List (TaskRow String)) : Unrefused (TaskRow.readAll rows) :=
  (mapM decodeTask rows).bind fun fetched => mapM toTask fetched

end Unrefused

def Tables.Keyed (tables : Tables) : Prop :=
  (tables.tasks.map (·.id)).Nodup

theorem nodup_write {rows : List (TaskRow String)} (distinct : (rows.map (·.id)).Nodup)
    (row : TaskRow String) :
    ((Database.write (·.id) TaskRow.updated row rows).map (·.id)).Nodup := by
  unfold Database.write
  split
  next => exact nodup_upsert distinct
  next absent =>
    have new : row.id ∉ rows.map (·.id) := by
      intro known
      obtain ⟨other, member, same⟩ := List.mem_map.mp known
      exact List.find?_eq_none.mp absent other member (decide_eq_true same)
    rw [List.map_append, List.map_singleton]
    refine List.nodup_append.mpr ⟨distinct, by simp, fun other member single same equal => ?_⟩
    exact new ((equal.trans (List.mem_singleton.mp same)) ▸ member)

structure Query.Orderly {α : Type} (query : Query α) : Prop where
  unrefused : ∀ database : Database, Unrefused (query database).1
  keyed : ∀ database : Database, database.tables.Keyed → (query database).2.tables.Keyed

def Database.Minds {α : Type} (effect : Nat → Tables → Except Failure (α × Tables)) : Prop :=
  ∀ seq tables, Unrefused (effect seq tables) ∧
    ∀ value after, effect seq tables = .ok (value, after) → tables.Keyed → after.Keyed

namespace Query.Orderly

open Database

variable {α β : Type}

theorem act {query : Query α} {statement : String} {taken : Nat}
    {effect : Nat → Tables → Except Failure (α × Tables)}
    (same : query = Database.act statement taken effect) (minds : Minds effect) :
    Orderly query := by
  subst same
  refine ⟨fun database => ?_, fun database keyed => ?_⟩
  · unfold Database.act
    cases (strike statement database.faults).1 with
    | some error => exact .database error
    | none =>
      have inner := (minds database.nextSeq database.tables).1
      cases done : effect database.nextSeq database.tables with
      | ok result => exact .ok _
      | error failure => exact .error (inner failure done)
  · unfold Database.act
    cases (strike statement database.faults).1 with
    | some error => exact keyed
    | none =>
      cases done : effect database.nextSeq database.tables with
      | ok result =>
        exact (minds database.nextSeq database.tables).2 result.1 result.2 done keyed
      | error failure => exact keyed

theorem fetch {query : Query α} {statement : String} {fetch : Tables → Except Failure α}
    (same : query = Database.act statement 0 fun _ tables => (fetch tables).map (·, tables))
    (unrefused : ∀ tables, Unrefused (fetch tables)) : Orderly query := by
  refine act same fun seq tables => ⟨(unrefused tables).map _, fun value after done keyed => ?_⟩
  cases told : fetch tables with
  | ok value => rw [told] at done; cases done; exact keyed
  | error failure => rw [told] at done; cases done

theorem guard {query : Query Unit} {statement : String} {taken : Nat} {forbids : Tables → Prop}
    [DecidablePred forbids] {error : DatabaseError} {change : Nat → Tables → Tables}
    (same : query = Database.act statement taken fun seq tables =>
      if forbids tables then .error (.database error) else .ok ((), change seq tables))
    (keyed : ∀ seq tables, tables.Keyed → (change seq tables).Keyed) : Orderly query := by
  refine act same fun seq tables => ⟨?_, fun value after done => ?_⟩
  · split
    · exact .database error
    · exact .ok _
  · split at done
    · cases done
    · cases done
      exact keyed seq tables

theorem bind {query : Query α} {next : α → Query β} (orderly : Orderly query)
    (rest : ∀ value, Orderly (next value)) : Orderly (query >>= next) := by
  refine ⟨fun database => ?_, fun database keyed => ?_⟩
  · have first := orderly.unrefused database
    rw [bind_apply]
    cases answered : query database with
    | mk result after =>
      rw [answered] at first
      cases result with
      | ok value => exact (rest value).unrefused after
      | error failure => exact .error (first failure rfl)
  · have first := orderly.keyed database keyed
    rw [bind_apply]
    cases answered : query database with
    | mk result after =>
      rw [answered] at first
      cases result with
      | ok value => exact (rest value).keyed after first
      | error failure => exact first

theorem forM {save : α → Query Unit} (orderly : ∀ item, Orderly (save item)) (items : List α) :
    Orderly (items.forM save) := by
  induction items with
  | nil => exact ⟨fun _ => .ok (), fun _ => id⟩
  | cons first rest ih => exact (orderly first).bind fun _ => ih

theorem transaction {query : Query α} (orderly : Orderly query) :
    Orderly (Database.transaction query) := by
  refine ⟨fun database => ?_, fun database keyed => ?_⟩
  · have inner := orderly.unrefused database
    simp only [Database.transaction]
    cases answered : query database with
    | mk result after =>
      rw [answered] at inner
      cases result with
      | ok value => exact .ok value
      | error failure => exact .error (inner failure rfl)
  · have inner := orderly.keyed database keyed
    simp only [Database.transaction]
    cases answered : query database with
    | mk result after =>
      rw [answered] at inner
      cases result with
      | ok value => exact inner
      | error failure => exact keyed

theorem send (statement : String) : Orderly (Database.send statement) :=
  act send_act fun _ _ => ⟨.ok _, fun _ _ done keyed => by cases done; exact keyed⟩

theorem saveInstance (target : Instance) : Orderly (Database.saveInstance target) :=
  guard (saveInstance_act target) fun _ _ keyed => keyed

theorem saveTask (task : Task) : Orderly (Database.saveTask task) :=
  guard (saveTask_act task) fun _ _ keyed => nodup_write keyed _

end Query.Orderly

theorem Database.fetch_ok {α : Type} {query : Query α} {statement : String}
    {fetch : Tables → Except Failure α} {database : Database} {value : α}
    (same : query = act statement 0 fun _ tables => (fetch tables).map (·, tables))
    (told : (query database).1 = .ok value) : fetch database.tables = .ok value := by
  have read := act_ok same told
  cases fetched : fetch database.tables with
  | error failure =>
    rw [fetched] at read
    cases read
  | ok found =>
    rw [fetched] at read
    exact congrArg Except.ok (Prod.ext_iff.mp (Except.ok.inj read)).1

theorem Database.query_orderly {α : Type} (now : Timestamp) (call : StoreCall α) :
    Query.Orderly (query now call) := by
  cases call with
  | saveDefinition definition => exact .guard (saveDefinition_act now definition) fun _ _ keyed => keyed
  | loadDefinition id => exact .fetch (loadDefinition_act id) fun _ => .mapM_option .readDefinition _
  | findDefinition name version =>
    exact .fetch (findDefinition_act name version) fun _ => .mapM_option .readDefinition _
  | transition id source target =>
    refine .act (transition_act id source target) fun _ _ => ⟨.ok _, fun _ _ done keyed => ?_⟩
    cases done
    exact keyed
  | saveInstance target => exact .saveInstance target
  | loadInstance id => exact .fetch (loadInstance_act id) fun _ => .mapM_option .readInstance _
  | saveTask task => exact .saveTask task
  | loadTask id => exact .fetch (loadTask_act id) fun _ => .mapM_option .readTask _
  | pendingTasks target => exact .fetch (tasksOf_act target _) fun _ => .readTasks _
  | tasksOf target => exact .fetch (tasksOf_act target _) fun _ => .readTasks _
  | assignedTasks principal filter =>
    exact .fetch (assignedTasks_act principal filter) fun _ => .readTasks _
  | commit changes =>
    have tasks : Query.Orderly (changes.tasks.forM saveTask) := .forM .saveTask changes.tasks
    exact .transaction ((Query.Orderly.send _).bind fun _ =>
      (Query.Orderly.saveInstance changes.target).bind fun _ => tasks.bind fun _ => .send _)

theorem MemoryStore.nodup_answer {α : Type} {records : MemoryStore}
    (distinct : (records.tasks.map (·.id)).Nodup) (call : StoreCall α) :
    ((records.answer call).2.tasks.map (·.id)).Nodup := by
  cases call with
  | saveTask task => exact nodup_upsert distinct
  | commit changes =>
    change ((records.commit changes).tasks.map (·.id)).Nodup
    rw [commit_tasks]
    exact nodup_foldl_upsert distinct
  | transition id source target =>
    change ((records.transition id source target).2.tasks.map (·.id)).Nodup
    unfold MemoryStore.transition
    split
    · split <;> exact distinct
    · exact distinct
  | _ => exact distinct

theorem mem_mapM_ok {ε α β : Type} {read : α → Except ε β} {items : List α} {values : List β}
    (told : items.mapM read = .ok values) {value : β} (member : value ∈ values) :
    ∃ item ∈ items, read item = .ok value := by
  induction items generalizing values with
  | nil =>
    cases told
    cases member
  | cons item rest ih =>
    rw [List.mapM_cons] at told
    obtain ⟨head, first, told⟩ := bind_eq_ok told
    obtain ⟨others, later, made⟩ := bind_eq_ok told
    cases made
    obtain rfl | inside := List.mem_cons.mp member
    · exact ⟨item, List.mem_cons_self, first⟩
    · obtain ⟨other, within, shown⟩ := ih later inside
      exact ⟨other, List.mem_cons_of_mem _ within, shown⟩

namespace TaskRow

theorem read_id {row : TaskRow String} {task : Task} (read : row.read = .ok task) :
    task.id = row.id := by
  obtain ⟨fetched, decoded, read⟩ := bind_eq_ok read
  obtain ⟨_, _, kept⟩ := bind_eq_ok decoded
  obtain ⟨_, _, read⟩ := bind_eq_ok read
  obtain ⟨_, _, made⟩ := bind_eq_ok read
  cases kept
  cases made
  rfl

theorem mem_readAll {rows : List (TaskRow String)} {tasks : List Task}
    (read : readAll rows = .ok tasks) {task : Task} (member : task ∈ tasks) :
    ∃ row ∈ rows, row.read = .ok task := by
  obtain ⟨fetched, decoded, told⟩ := bind_eq_ok read
  obtain ⟨one, within, shown⟩ := mem_mapM_ok told member
  obtain ⟨row, stored, same⟩ := mem_mapM_ok decoded within
  refine ⟨row, stored, ?_⟩
  rw [TaskRow.read, same]
  exact shown

end TaskRow

namespace Store

/-- The tasks in a store by their identifiers, as far as they can be read. -/
def held : Store → List (Uuid × Except Failure Task)
  | .memory records => records.tasks.map fun task => (task.id, .ok task)
  | .relational database => database.tables.tasks.map fun row => (row.id, row.read)

def Keyed (store : Store) : Prop :=
  (store.held.map (·.1)).Nodup

/-- The tasks of an instance as a store lists them where nothing fails on the way. -/
def tasksOf : Store → Uuid → Except Failure (List Task)
  | .memory records, target => .ok (records.tasksOf target)
  | .relational database, target => TaskRow.readAll
      (Database.inOrder (database.tables.tasks.filter fun row => row.instanceId = target))

variable {store : Store} {now : Timestamp} {α : Type}

theorem keyed_memory {records : MemoryStore} :
    (memory records).Keyed ↔ (records.tasks.map (·.id)).Nodup := by
  rw [Keyed, held, List.map_map]
  rfl

theorem keyed_relational {database : Database} :
    (relational database).Keyed ↔ database.tables.Keyed := by
  rw [Keyed, held, List.map_map]
  rfl

theorem Keyed.answer (keyed : store.Keyed) (now : Timestamp) (call : StoreCall α) :
    (store.answer now call).2.Keyed := by
  cases store with
  | memory records => exact keyed_memory.mpr (MemoryStore.nodup_answer (keyed_memory.mp keyed) call)
  | relational database =>
    exact keyed_relational.mpr
      ((Database.query_orderly now call).keyed database (keyed_relational.mp keyed))

theorem answer_unrefused (store : Store) (now : Timestamp) (call : StoreCall α) :
    Unrefused (store.answer now call).1 := by
  cases store with
  | memory records => exact .ok _
  | relational database => exact (Database.query_orderly now call).unrefused database

theorem Keyed.single (keyed : store.Keyed) {id : Uuid} {first second : Except Failure Task}
    (here : (id, first) ∈ store.held) (there : (id, second) ∈ store.held) : first = second :=
  (Prod.ext_iff.mp (List.inj_on_of_nodup_map keyed here there rfl)).2

theorem Keeps.held {first second : Store} (keeps : Keeps first second) :
    second.held = first.held := by
  cases keeps with
  | memory records => rfl
  | relational tables _ => simp only [Store.held, tables]

theorem Keeps.tasksOf {first second : Store} (keeps : Keeps first second) (target : Uuid) :
    second.tasksOf target = first.tasksOf target := by
  cases keeps with
  | memory records => rfl
  | relational tables _ => simp only [Store.tasksOf, tables]

theorem held_of_loadTask {id : Uuid} {task : Task}
    (told : (store.answer now (.loadTask id)).1 = .ok (some task)) : (id, .ok task) ∈ store.held := by
  cases store with
  | memory records =>
    have found : records.task? id = some task := Except.ok.inj told
    have named : task.id = id := find?_key found
    exact List.mem_map.mpr ⟨task, List.mem_of_find?_eq_some found, by rw [named]⟩
  | relational database =>
    have read := Database.fetch_ok (Database.loadTask_act id) told
    cases found : database.tables.tasks.find? fun row => row.id = id with
    | none =>
      rw [found] at read
      cases read
    | some row =>
      rw [found, Option.mapM_some] at read
      have named : row.id = id := find?_key found
      refine List.mem_map.mpr ⟨row, List.mem_of_find?_eq_some found, Prod.ext named ?_⟩
      cases shown : row.read with
      | error failure =>
        rw [shown] at read
        cases read
      | ok shown' =>
        rw [shown] at read
        cases read
        rfl

theorem tasksOf_of_answer {target : Uuid} {tasks : List Task}
    (told : (store.answer now (.tasksOf target)).1 = .ok tasks) :
    store.tasksOf target = .ok tasks := by
  cases store with
  | memory records => exact told
  | relational database =>
    have read := Database.fetch_ok (Database.tasksOf_act target none) told
    simp only [Option.all_none, Bool.and_true] at read
    exact read

theorem held_of_tasksOf {target : Uuid} {tasks : List Task} (listed : store.tasksOf target = .ok tasks)
    {task : Task} (member : task ∈ tasks) : (task.id, .ok task) ∈ store.held := by
  cases store with
  | memory records =>
    cases listed
    exact List.mem_map.mpr ⟨task, List.mem_of_mem_filter member, rfl⟩
  | relational database =>
    obtain ⟨row, within, shown⟩ := TaskRow.mem_readAll listed member
    have stored : row ∈ database.tables.tasks :=
      List.mem_of_mem_filter (List.mem_mergeSort.mp within)
    exact List.mem_map.mpr ⟨row, stored, Prod.ext (TaskRow.read_id shown).symm shown⟩

end Store

end Workflow
