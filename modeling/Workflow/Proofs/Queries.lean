import Mathlib.Order.Monotone.Basic
import Workflow.Proofs.KeyedRecords
import Workflow.Store.Backend

/-! What queries leave alone. Every query but a transaction is one statement, which is answered from
the tables and may change them. It leaves them alone when it fails, it never gives a number back,
and what it answers does not depend on the numbers of tasks but on their order. -/

namespace Workflow

namespace Query

theorem bind_apply {α β : Type} (query : Query α) (next : α → Query β) (database : Database) :
    (query >>= next) database = match query database with
      | (.ok value, after) => next value after
      | (.error failure, after) => (.error failure, after) := by
  change (match query database with | (result, after) => ExceptT.bindCont next result after) = _
  cases query database with
  | mk result after =>
    cases result with
    | ok value => rfl
    | error failure => rfl

end Query

namespace Database

open Query

/-- A statement that takes some numbers and answers from the tables, which it may change. -/
def act {α : Type} (statement : String) (taken : Nat)
    (effect : Nat → Tables → Except Failure (α × Tables)) : Query α := fun database =>
  let later := { database with faults := (strike statement database.faults).2 }
  match (strike statement database.faults).1 with
  | some error => (.error (.database error), later)
  | none =>
    match effect database.nextSeq database.tables with
    | .ok (value, tables) => (.ok value, { later with tables, nextSeq := database.nextSeq + taken })
    | .error failure => (.error failure, { later with nextSeq := database.nextSeq + taken })

variable {α : Type} {statement : String}

theorem act_healthy {database : Database} (healthy : database.faults = []) {query : Query α}
    {taken : Nat} {effect : Nat → Tables → Except Failure (α × Tables)} {value : α} {tables : Tables}
    (same : query = act statement taken effect)
    (told : effect database.nextSeq database.tables = .ok (value, tables)) :
    query database =
      (.ok value, { database with tables, nextSeq := database.nextSeq + taken }) := by
  simp only [same, act, healthy, strike, told]

theorem fetch_healthy {database : Database} (healthy : database.faults = []) {query : Query α}
    {fetch : Tables → Except Failure α} {value : α}
    (same : query = act statement 0 fun _ tables => (fetch tables).map (·, tables))
    (told : fetch database.tables = .ok value) : query database = (.ok value, database) := by
  refine act_healthy healthy same ?_
  rw [told]
  rfl

theorem act_ok {database : Database} {query : Query α} {taken : Nat}
    {effect : Nat → Tables → Except Failure (α × Tables)} {value : α}
    (same : query = act statement taken effect) (told : (query database).1 = .ok value) :
    effect database.nextSeq database.tables = .ok (value, (query database).2.tables) := by
  rw [same] at told ⊢
  unfold act at told ⊢
  cases struck : (strike statement database.faults).1 with
  | some error =>
    rw [struck] at told
    cases told
  | none =>
    cases done : effect database.nextSeq database.tables with
    | ok result =>
      simp only [struck, done, Except.ok.injEq] at told ⊢
      rw [← told]
    | error failure =>
      simp only [struck, done] at told
      cases told

theorem send_apply (database : Database) :
    send statement database = match (strike statement database.faults).1 with
      | some error => (.error (.database error),
          { database with faults := (strike statement database.faults).2 })
      | none => (.ok (), { database with faults := (strike statement database.faults).2 }) := by
  change (match (strike statement database.faults).1 with
    | some error => throw (.database error)
    | none => return () : Query Unit) { database with faults := _ } = _
  cases (strike statement database.faults).1 with
  | none => rfl
  | some error => rfl

theorem send_act : send statement = act statement 0 fun _ tables => .ok ((), tables) := by
  funext database
  rw [send_apply]
  rfl

theorem fetch_act (fetch : Tables → Except Failure α) :
    (do send statement; ofResult (fetch (← getTables))) =
      act statement 0 fun _ tables => (fetch tables).map (·, tables) := by
  funext database
  rw [bind_apply, send_apply, act]
  cases (strike statement database.faults).1 with
  | some error => rfl
  | none =>
    change ofResult (fetch database.tables) _ = _
    cases fetch database.tables with
    | ok value => rfl
    | error failure => rfl

theorem change_act (change : Tables → Tables) (tell : Tables → α) :
    (do send statement; let tables ← getTables; setTables (change tables); return tell tables) =
      act statement 0 fun _ tables => .ok (tell tables, change tables) := by
  funext database
  rw [bind_apply, send_apply, act]
  cases (strike statement database.faults).1 with
  | some error => rfl
  | none => rfl

theorem guard_act (forbids : Tables → Bool) (error : DatabaseError) (change : Tables → Tables) :
    (do
      send statement
      let tables ← getTables
      if forbids tables then reject error
      setTables (change tables)) =
      act statement 0 fun _ tables =>
        if forbids tables then .error (.database error) else .ok ((), change tables) := by
  funext database
  rw [bind_apply, send_apply, act]
  cases (strike statement database.faults).1 with
  | some error => rfl
  | none =>
    change (if forbids database.tables then _ else _ : Query Unit) _ = _
    cases forbids database.tables with
    | true => rfl
    | false => rfl

theorem numbered_act (forbids : Tables → Bool) (error : DatabaseError)
    (change : Nat → Tables → Tables) :
    (do
      send statement
      let seq ← takeSeq
      let tables ← getTables
      if forbids tables then reject error
      setTables (change seq tables)) =
      act statement 1 fun seq tables =>
        if forbids tables then .error (.database error) else .ok ((), change seq tables) := by
  funext database
  rw [bind_apply, send_apply, act]
  cases (strike statement database.faults).1 with
  | some error => rfl
  | none =>
    change (if forbids database.tables then _ else _ : Query Unit) _ = _
    cases forbids database.tables with
    | true => rfl
    | false => rfl

theorem saveDefinition_act (now : Timestamp) (definition : Definition) :
    saveDefinition now definition = act Statement.upsertDefinition 0 fun _ tables =>
      if tables.definitions.any (sameName (DefinitionRow.ofDefinition now definition).encode) then
        .error (.database nameTaken)
      else .ok ((), { tables with
        definitions :=
          write (·.id) DefinitionRow.updated (DefinitionRow.ofDefinition now definition).encode
            tables.definitions }) :=
  guard_act _ _ _

theorem loadDefinition_act (id : Uuid) :
    loadDefinition id = act Statement.selectDefinition 0 fun _ tables =>
      ((tables.definitions.find? fun row => row.id = id).mapM DefinitionRow.read).map
        (·, tables) :=
  fetch_act _

theorem findDefinition_act (name version : String) :
    findDefinition name version = act Statement.selectDefinitionByName 0 fun _ tables =>
      ((tables.definitions.find? fun row => row.name = name ∧ row.version = version).mapM
        DefinitionRow.read).map (·, tables) :=
  fetch_act _

theorem transition_act (id : Uuid) (source target : DefinitionStatus) :
    transition id source target = act Statement.updateDefinitionStatus 0 fun _ tables =>
      .ok (tables.definitions.any fun row => row.id = id && row.status = Named.name source,
        { tables with
          definitions := tables.definitions.map fun row =>
            if (row.id = id && row.status = Named.name source) = true then
              { row with status := Named.name target } else row }) :=
  change_act _ _

theorem saveInstance_act (target : Instance) :
    saveInstance target = act Statement.upsertInstance 0 fun _ tables =>
      if (!(tables.instances.any fun other => other.id = target.id) &&
          !(tables.definitions.any fun other => other.id = target.definitionId)) = true then
        .error (.database (referenceMissing "instance" "definition_id"))
      else .ok ((), { tables with
        instances :=
          write (·.id) InstanceRow.updated (InstanceRow.ofInstance target).encode
            tables.instances }) :=
  guard_act _ _ _

theorem loadInstance_act (id : Uuid) :
    loadInstance id = act Statement.selectInstance 0 fun _ tables =>
      ((tables.instances.find? fun row => row.id = id).mapM InstanceRow.read).map
        (·, tables) :=
  fetch_act _

theorem saveTask_act (task : Task) :
    saveTask task = act Statement.upsertTask 1 fun seq tables =>
      if (!(tables.tasks.any fun other => other.id = task.id) &&
          !(tables.instances.any fun other => other.id = task.instanceId)) = true then
        .error (.database (referenceMissing "task" "instance_id"))
      else .ok ((), { tables with
        tasks :=
          write (·.id) TaskRow.updated { (TaskRow.ofTask task).encode with seq } tables.tasks }) :=
  numbered_act (fun tables => !(tables.tasks.any fun other => other.id = task.id) &&
      !(tables.instances.any fun other => other.id = task.instanceId)) _
    fun seq tables => { tables with
      tasks :=
        write (·.id) TaskRow.updated { (TaskRow.ofTask task).encode with seq } tables.tasks }

theorem loadTask_act (id : Uuid) :
    loadTask id = act Statement.selectTask 0 fun _ tables =>
      ((tables.tasks.find? fun row => row.id = id).mapM TaskRow.read).map (·, tables) :=
  fetch_act _

theorem tasksOf_act (target : Uuid) (status : Option TaskStatus) :
    tasksOf target status = act Statement.selectTasksOfInstance 0 fun _ tables =>
      (TaskRow.readAll (inOrder (tables.tasks.filter fun row => row.instanceId = target &&
        status.all fun status => row.status = Named.name status))).map (·, tables) :=
  fetch_act _

/-- The rows of a list, of which a limit that fits takes the first. -/
def limited (filter : TaskFilter) (rows : List (TaskRow String)) :
    List (TaskRow String) :=
  match filter.limit.filter (· < 0x8000000000000000) with
  | some limit => rows.take limit
  | none => rows

theorem assignedTasks_act (principal : String) (filter : TaskFilter) :
    assignedTasks principal filter = act Statement.selectAssignedTasks 0 fun _ tables =>
      (TaskRow.readAll (limited filter
        (inOrder (assignedRows principal filter tables.tasks)))).map (·, tables) := by
  rw [← fetch_act]
  unfold assignedTasks limited
  refine congrArg _ (funext fun _ => congrArg _ (funext fun tables => ?_))
  cases filter.limit.filter (· < 0x8000000000000000) with
  | some limit => rfl
  | none => rfl

end Database

def TaskRow.renumber {δ : Type} (number : Nat → Nat) (row : TaskRow δ) : TaskRow δ :=
  { row with seq := number row.seq }

def Tables.renumber (number : Nat → Nat) (tables : Tables) : Tables :=
  { tables with tasks := tables.tasks.map (TaskRow.renumber number) }

section Rows

variable {number : Nat → Nat}

theorem find?_renumber (id : Uuid) (rows : List (TaskRow String)) :
    (rows.map (TaskRow.renumber number)).find? (fun row => row.id = id) =
      (rows.find? fun row => row.id = id).map (TaskRow.renumber number) :=
  List.find?_map

theorem write_renumber (row : TaskRow String) (rows : List (TaskRow String)) :
    Database.write (·.id) TaskRow.updated (row.renumber number) (rows.map (TaskRow.renumber number)) =
      (Database.write (·.id) TaskRow.updated row rows).map (TaskRow.renumber number) := by
  have found : (rows.map (TaskRow.renumber number)).find?
        (fun other => other.id = (row.renumber number).id) =
      (rows.find? fun other => other.id = row.id).map (TaskRow.renumber number) :=
    find?_renumber row.id rows
  rw [Database.write, found, Database.write]
  cases rows.find? (fun other => other.id = row.id) with
  | none => simp only [Option.map_none, List.map_append, List.map_singleton]
  | some old =>
    have kept : ∀ other : TaskRow String, (other.renumber number).id = other.id := fun _ => rfl
    exact upsert_map kept (old.updated row) rows

/-- A task that is new gets the number taken for it, and one that is known keeps its own. -/
theorem write_numbers {seq : Nat} {task : TaskRow String} {rows : List (TaskRow String)}
    (below : ∀ row ∈ rows, row.seq < seq) {row : TaskRow String}
    (member : row ∈ Database.write (·.id) TaskRow.updated { task with seq } rows) :
    row.seq < seq + 1 := by
  unfold Database.write at member
  split at member
  · next old found =>
    rcases mem_upsert member with rfl | stored
    · exact Nat.lt_succ_of_lt (below old (List.mem_of_find?_eq_some found))
    · exact Nat.lt_succ_of_lt (below row stored)
  · rcases List.mem_append.mp member with stored | new
    · exact Nat.lt_succ_of_lt (below row stored)
    · rw [List.mem_singleton.mp new]
      exact Nat.lt_succ_self seq

theorem inOrder_renumber (grows : StrictMono number) (rows : List (TaskRow String)) :
    Database.inOrder (rows.map (TaskRow.renumber number)) =
      (Database.inOrder rows).map (TaskRow.renumber number) := by
  refine (List.map_mergeSort fun row _ other _ => ?_).symm
  simp only [TaskRow.renumber, grows.le_iff_le]

theorem limited_renumber (filter : TaskFilter) (rows : List (TaskRow String)) :
    Database.limited filter (rows.map (TaskRow.renumber number)) =
      (Database.limited filter rows).map (TaskRow.renumber number) := by
  unfold Database.limited
  cases filter.limit.filter (· < 0x8000000000000000) with
  | none => rfl
  | some limit => exact List.map_take.symm

theorem decode_renumber (row : TaskRow String) :
    (row.renumber number).decode = row.decode.map (TaskRow.renumber number) := by
  unfold TaskRow.decode
  change (decodeColumn "data" Document.readObject row.data).bind _ = _
  cases decodeColumn "data" Document.readObject row.data with
  | ok data => rfl
  | error failure => rfl

theorem read_renumber (row : TaskRow String) : (row.renumber number).read = row.read := by
  rw [TaskRow.read, decode_renumber, TaskRow.read]
  cases row.decode with
  | ok fetched => rfl
  | error failure => rfl

theorem readAll_renumber (rows : List (TaskRow String)) :
    TaskRow.readAll (rows.map (TaskRow.renumber number)) = TaskRow.readAll rows := by
  have fetched : (rows.map (TaskRow.renumber number)).mapM TaskRow.decode =
      (rows.mapM TaskRow.decode).map (List.map (TaskRow.renumber number)) := by
    induction rows with
    | nil => rfl
    | cons row rest ih =>
      rw [List.map_cons, List.mapM_cons, List.mapM_cons, decode_renumber, ih]
      cases row.decode with
      | error failure => rfl
      | ok first =>
        cases rest.mapM TaskRow.decode with
        | error failure => rfl
        | ok others => rfl
  rw [TaskRow.readAll, fetched, TaskRow.readAll]
  cases rows.mapM TaskRow.decode with
  | error failure => rfl
  | ok rows =>
    have same : TaskRow.toTasks (rows.map (TaskRow.renumber number)) = TaskRow.toTasks rows :=
      List.mapM_map
    exact same

end Rows

namespace Database

open Query

variable {α : Type}

def Commutes (number : Nat → Nat) (effect : Nat → Tables → Except Failure (α × Tables)) : Prop :=
  ∀ seq tables, effect (number seq) (tables.renumber number) =
    (effect seq tables).map fun (value, after) => (value, after.renumber number)

def Numbers (taken : Nat) (effect : Nat → Tables → Except Failure (α × Tables)) : Prop :=
  ∀ seq tables value after, effect seq tables = .ok (value, after) →
    (∀ row ∈ tables.tasks, row.seq < seq) → ∀ row ∈ after.tasks, row.seq < seq + taken

theorem Numbers.of_tasks {effect : Nat → Tables → Except Failure (α × Tables)}
    (same : ∀ seq tables value after, effect seq tables = .ok (value, after) →
      after.tasks = tables.tasks) : Numbers 0 effect := by
  intro seq tables value after done below
  rw [same seq tables value after done]
  exact below

/-- A query that is one statement. What it does depends on the order of tasks, but not on their
numbers. -/
def IsStatement (query : Query α) : Prop :=
  ∃ statement taken effect, query = act statement taken effect ∧
    (∀ number, StrictMono number → Commutes number effect) ∧ Numbers taken effect

theorem IsStatement.fetch {query : Query α} {statement : String}
    {fetch : Tables → Except Failure α}
    (same : query = act statement 0 fun _ tables => (fetch tables).map (·, tables))
    (alike : ∀ number, StrictMono number → ∀ tables : Tables,
      fetch (tables.renumber number) = fetch tables) : IsStatement query := by
  refine ⟨statement, 0, _, same, fun number grows seq tables => ?_, .of_tasks ?_⟩
  · simp only [alike number grows]
    cases fetch tables with
    | ok value => rfl
    | error failure => rfl
  · intro seq tables value after done
    cases told : fetch tables with
    | ok value =>
      rw [told] at done
      cases done
      rfl
    | error failure =>
      rw [told] at done
      cases done

theorem send_isStatement (statement : String) : IsStatement (send statement) :=
  ⟨_, _, _, send_act, fun _ _ _ _ => rfl, fun _ _ _ _ done below => by cases done; exact below⟩

theorem saveInstance_isStatement (target : Instance) : IsStatement (saveInstance target) := by
  refine ⟨_, _, _, saveInstance_act target, fun number _ seq tables => ?_, .of_tasks ?_⟩
  · change (if (!tables.instances.any _ && !tables.definitions.any _) = true then _ else _) = _
    simp only
    split
    · rfl
    · rfl
  · intro seq tables value after done
    split at done
    · cases done
    · cases done
      rfl

theorem saveTask_isStatement (task : Task) : IsStatement (saveTask task) := by
  refine ⟨_, _, _, saveTask_act task, fun number _ seq tables => ?_, ?_⟩
  · let row : TaskRow String := { (TaskRow.ofTask task).encode with seq }
    have present : ((tables.renumber number).tasks.any fun other => other.id = task.id) =
        tables.tasks.any fun other => other.id = task.id := List.any_map
    have written : Database.write (·.id) TaskRow.updated (row.renumber number)
          (tables.renumber number).tasks =
        (Database.write (·.id) TaskRow.updated row tables.tasks).map (TaskRow.renumber number) :=
      write_renumber row tables.tasks
    change (if (!((tables.renumber number).tasks.any _) && !tables.instances.any _) = true then _
      else Except.ok ((), { tables with
        tasks := Database.write _ _ (row.renumber number) (tables.renumber number).tasks })) = _
    rw [present, written]
    simp only
    split
    · rfl
    · rfl
  · intro seq tables value after done below row member
    simp only at done
    split at done
    · cases done
    · cases done
      exact write_numbers below member

theorem saveDefinition_isStatement (now : Timestamp) (definition : Definition) :
    IsStatement (saveDefinition now definition) := by
  refine ⟨_, _, _, saveDefinition_act now definition, fun number _ seq tables => ?_, .of_tasks ?_⟩
  · change (if tables.definitions.any _ = true then _ else _) = _
    simp only
    split
    · rfl
    · rfl
  · intro seq tables value after done
    split at done
    · cases done
    · cases done
      rfl

theorem loadTask_isStatement (id : Uuid) : IsStatement (loadTask id) := by
  refine .fetch (loadTask_act id) fun number _ tables => ?_
  rw [Tables.renumber, find?_renumber]
  cases tables.tasks.find? (fun row => row.id = id) with
  | none => rfl
  | some row => rw [Option.map_some, Option.mapM_some, read_renumber, Option.mapM_some]

theorem tasksOf_isStatement (target : Uuid) (status : Option TaskStatus) :
    IsStatement (tasksOf target status) := by
  refine .fetch (tasksOf_act target status) fun number grows tables => ?_
  rw [Tables.renumber, List.filter_map, inOrder_renumber grows, readAll_renumber]
  rfl

theorem assignedTasks_isStatement (principal : String) (filter : TaskFilter) :
    IsStatement (assignedTasks principal filter) := by
  refine .fetch (assignedTasks_act principal filter) fun number grows tables => ?_
  rw [Tables.renumber, assignedRows, List.filter_map, inOrder_renumber grows, limited_renumber,
    readAll_renumber]
  rfl

end Database

/-- A database whose tasks have the numbers of another one replaced, now and from now on. -/
structure Database.Renumbers (number : Nat → Nat) (first second : Database) : Prop where
  tables : second.tables = first.tables.renumber number
  next : ∀ n, number (first.nextSeq + n) = second.nextSeq + n
  faults : second.faults = first.faults

def Database.Numbered (database : Database) : Prop :=
  ∀ row ∈ database.tables.tasks, row.seq < database.nextSeq

namespace Query

open Database

variable {α β : Type}

/-- A query that does not give numbers back and answers alike whatever they are. -/
structure Tame (query : Query α) : Prop where
  climbs : ∀ database : Database, database.nextSeq ≤ (query database).2.nextSeq
  numbered : ∀ database : Database, database.Numbered → (query database).2.Numbered
  alike : ∀ number, StrictMono number → ∀ database other : Database,
    database.Renumbers number other → (query other).1 = (query database).1 ∧
      (query database).2.Renumbers number (query other).2

theorem Tame.bind {query : Query α} {next : α → Query β} (tame : Tame query)
    (rest : ∀ value, Tame (next value)) : Tame (query >>= next) where
  climbs database := by
    have first := tame.climbs database
    rw [bind_apply]
    cases answered : query database with
    | mk result after =>
      rw [answered] at first
      cases result with
      | ok value => exact first.trans ((rest value).climbs after)
      | error failure => exact first
  numbered database start := by
    have first := tame.numbered database start
    rw [bind_apply]
    cases answered : query database with
    | mk result after =>
      rw [answered] at first
      cases result with
      | ok value => exact (rest value).numbered after first
      | error failure => exact first
  alike number grows database other renumbers := by
    have first := tame.alike number grows database other renumbers
    rw [bind_apply, bind_apply]
    cases left : query database with
    | mk result after =>
      cases right : query other with
      | mk told last =>
        rw [left, right] at first
        obtain ⟨rfl, kept⟩ := first
        cases told with
        | ok value => exact (rest value).alike number grows after last kept
        | error failure => exact ⟨rfl, kept⟩

theorem Tame.forM {save : α → Query Unit} (tame : ∀ item, Tame (save item)) (items : List α) :
    Tame (items.forM save) := by
  induction items with
  | nil => exact ⟨fun _ => Nat.le_refl _, fun _ => id, fun _ _ _ _ renumbers => ⟨rfl, renumbers⟩⟩
  | cons first rest ih => exact (tame first).bind fun _ => ih

theorem Tame.transaction {query : Query α} (tame : Tame query) :
    Tame (Database.transaction query) where
  climbs database := by
    have inner := tame.climbs database
    simp only [Database.transaction]
    cases answered : query database with
    | mk result after =>
      rw [answered] at inner
      cases result with
      | ok value => exact inner
      | error failure => exact inner
  numbered database start := by
    have inner := tame.numbered database start
    have later := tame.climbs database
    simp only [Database.transaction]
    cases answered : query database with
    | mk result after =>
      rw [answered] at inner later
      cases result with
      | ok value => exact inner
      | error failure => exact fun row member => (start row member).trans_le later
  alike number grows database other renumbers := by
    have inner := tame.alike number grows database other renumbers
    simp only [Database.transaction]
    cases left : query database with
    | mk result after =>
      cases right : query other with
      | mk told last =>
        rw [left, right] at inner
        obtain ⟨rfl, kept⟩ := inner
        cases told with
        | ok value => exact ⟨rfl, kept⟩
        | error failure => exact ⟨rfl, renumbers.tables, kept.next, kept.faults⟩

end Query

namespace Database

open Query

variable {α : Type}

theorem IsStatement.tame {query : Query α} (single : IsStatement query) : Tame query := by
  obtain ⟨statement, taken, effect, rfl, commutes, numbers⟩ := single
  refine ⟨fun database => ?_, fun database start => ?_,
    fun number grows database other renumbers => ?_⟩
  · unfold act
    simp only
    split
    · exact Nat.le_refl _
    · split
      · exact Nat.le_add_right _ _
      · exact Nat.le_add_right _ _
  · unfold act
    simp only
    split
    · exact start
    · split
      next done => exact numbers _ _ _ _ done start
      · exact fun row member => Nat.lt_add_right taken (start row member)
  · obtain ⟨tables, next, faults⟩ := renumbers
    have numbered : other.nextSeq = number database.nextSeq := (next 0).symm
    have later : ∀ n, number (database.nextSeq + taken + n) = other.nextSeq + taken + n := by
      intro n
      rw [Nat.add_assoc, next, Nat.add_assoc]
    have same := commutes number grows database.nextSeq database.tables
    rw [← numbered, ← tables] at same
    unfold act
    rw [faults, same]
    simp only
    cases (strike statement database.faults).1 with
    | some error => exact ⟨rfl, tables, next, rfl⟩
    | none =>
      cases effect database.nextSeq database.tables with
      | ok result => exact ⟨rfl, rfl, later, rfl⟩
      | error failure => exact ⟨rfl, tables, later, rfl⟩

/-- A call is one statement, or a transaction. -/
theorem query_shape (now : Timestamp) (call : StoreCall α) :
    IsStatement (query now call) ∨
      ∃ inner : Query α, Tame inner ∧ query now call = transaction inner := by
  cases call with
  | commit changes =>
    refine Or.inr ⟨_, (send_isStatement _).tame.bind fun _ => ?_, rfl⟩
    refine (saveInstance_isStatement changes.target).tame.bind fun _ => ?_
    refine (Tame.forM (fun task => (saveTask_isStatement task).tame) changes.tasks).bind fun _ => ?_
    exact (send_isStatement _).tame
  | saveDefinition definition => exact Or.inl (saveDefinition_isStatement now definition)
  | loadDefinition id => exact Or.inl (.fetch (loadDefinition_act id) fun _ _ _ => rfl)
  | findDefinition name version =>
    exact Or.inl (.fetch (findDefinition_act name version) fun _ _ _ => rfl)
  | transition id source target =>
    exact Or.inl ⟨_, _, _, transition_act id source target, fun _ _ _ _ => rfl,
      .of_tasks fun _ _ _ _ done => by cases done; rfl⟩
  | saveInstance target => exact Or.inl (saveInstance_isStatement target)
  | loadInstance id => exact Or.inl (.fetch (loadInstance_act id) fun _ _ _ => rfl)
  | saveTask task => exact Or.inl (saveTask_isStatement task)
  | loadTask id => exact Or.inl (loadTask_isStatement id)
  | pendingTasks target => exact Or.inl (tasksOf_isStatement target _)
  | tasksOf target => exact Or.inl (tasksOf_isStatement target _)
  | assignedTasks principal filter => exact Or.inl (assignedTasks_isStatement principal filter)

theorem query_tame (now : Timestamp) (call : StoreCall α) : Tame (query now call) := by
  rcases query_shape now call with single | ⟨inner, tame, same⟩
  · exact single.tame
  · rw [same]
    exact tame.transaction

theorem IsStatement.reverts {query : Query α} (single : IsStatement query) {database : Database}
    {failure : Failure} (failed : (query database).1 = .error failure) :
    (query database).2.tables = database.tables := by
  obtain ⟨statement, taken, effect, rfl, -, -⟩ := single
  unfold act at failed ⊢
  cases struck : (strike statement database.faults).1 with
  | some error => rfl
  | none =>
    cases done : effect database.nextSeq database.tables with
    | ok result => simp only [struck, done] at failed; cases failed
    | error failure => rfl

theorem transaction_reverts {query : Query α} {database : Database} {failure : Failure}
    (failed : (transaction query database).1 = .error failure) :
    (transaction query database).2.tables = database.tables := by
  unfold transaction at failed ⊢
  cases answered : query database with
  | mk result after =>
    cases result with
    | ok value => simp only [answered] at failed; cases failed
    | error failure => rfl

theorem answer_reverts {now : Timestamp} {database : Database} {call : StoreCall α}
    {failure : Failure} (failed : (database.answer now call).1 = .error failure) :
    (database.answer now call).2.tables = database.tables := by
  unfold answer at failed ⊢
  rcases query_shape now call with single | ⟨inner, _, same⟩
  · exact single.reverts failed
  · rw [same] at failed ⊢
    exact transaction_reverts failed

end Database

def StoreCall.IsRead {α : Type} : StoreCall α → Prop
  | loadDefinition _ | findDefinition .. | loadInstance _ | loadTask _ => True
  | pendingTasks _ | tasksOf _ | assignedTasks .. => True
  | _ => False

namespace Database

variable {α : Type}

theorem fetch_reads {statement : String} {fetch : Tables → Except Failure α}
    {query : Query α}
    (same : query = act statement 0 fun _ tables => (fetch tables).map (·, tables))
    (database : Database) : (query database).2.tables = database.tables := by
  subst same
  unfold act
  cases (strike statement database.faults).1 with
  | some error => rfl
  | none =>
    cases told : fetch database.tables with
    | ok value => simp only [told]; rfl
    | error failure => simp only [told]; rfl

theorem answer_reads {call : StoreCall α} (reads : call.IsRead) (now : Timestamp)
    (database : Database) : (database.answer now call).2.tables = database.tables := by
  cases call with
  | loadDefinition id => exact fetch_reads (loadDefinition_act id) database
  | findDefinition name version => exact fetch_reads (findDefinition_act name version) database
  | loadInstance id => exact fetch_reads (loadInstance_act id) database
  | loadTask id => exact fetch_reads (loadTask_act id) database
  | pendingTasks target => exact fetch_reads (tasksOf_act target _) database
  | tasksOf target => exact fetch_reads (tasksOf_act target _) database
  | assignedTasks principal filter =>
    exact fetch_reads (assignedTasks_act principal filter) database
  | _ => exact reads.elim

end Database

end Workflow
