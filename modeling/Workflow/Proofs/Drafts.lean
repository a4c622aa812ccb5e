import Workflow.Proofs.Host
import Workflow.Proofs.Mirror

/-! One definition in a store of either kind. A call that is about other records spares it; in a
healthy store it is read as it is stored, and it is moved from a status only while it has it. -/

namespace Workflow

def StoreCall.Concerns {α : Type} (id : Uuid) : StoreCall α → Prop
  | saveDefinition definition => definition.id = id
  | transition other _ _ => other = id
  | _ => False

def Tables.rowsOf (id : Uuid) (tables : Tables) : List (DefinitionRow String) :=
  tables.definitions.filter fun row => row.id = id

theorem Tables.find?_rowsOf (id : Uuid) (tables : Tables) :
    (tables.definitions.find? fun row => row.id = id) = (tables.rowsOf id).head? :=
  List.head?_filter.symm

theorem Tables.filter_move {change : DefinitionRow String → DefinitionRow String}
    (keyed : ∀ row, (change row).id = row.id) (id : Uuid) (tables : Tables) :
    (tables.definitions.map change).filter (fun row => row.id = id) =
      (tables.rowsOf id).map change := by
  have same : (fun row : DefinitionRow String => decide (row.id = id)) ∘ change =
      fun row => decide (row.id = id) := funext fun row => by rw [Function.comp_apply, keyed]
  rw [List.filter_map, same, rowsOf]

/-- A database in which the rows of one definition are the same, and which has not become
unhealthy. -/
structure Database.Spares (id : Uuid) (before after : Database) : Prop where
  rows : after.tables.rowsOf id = before.tables.rowsOf id
  healthy : before.faults = [] → after.faults = []

namespace Database.Spares

variable {id : Uuid} {α β : Type}

theorem refl (id : Uuid) (database : Database) : Spares id database database :=
  ⟨rfl, fun healthy => healthy⟩

theorem trans {before middle after : Database} (early : Spares id before middle)
    (late : Spares id middle after) : Spares id before after :=
  ⟨late.rows.trans early.rows, fun healthy => late.healthy (early.healthy healthy)⟩

theorem act {query : Query α} {statement : String} {taken : Nat}
    {effect : Nat → Tables → Except Failure (α × Tables)}
    (same : query = Database.act statement taken effect)
    (kept : ∀ seq tables value after, effect seq tables = .ok (value, after) →
      after.rowsOf id = tables.rowsOf id) (database : Database) :
    Spares id database (query database).2 := by
  subst same
  have healthy (none : database.faults = []) : (strike statement database.faults).2 = [] := by
    rw [none]
    rfl
  unfold Database.act
  simp only
  split
  · exact ⟨rfl, healthy⟩
  · split
    next value after done => exact ⟨kept _ _ _ _ done, healthy⟩
    next => exact ⟨rfl, healthy⟩

theorem fetch {query : Query α} {statement : String} {fetch : Tables → Except Failure α}
    (same : query = Database.act statement 0 fun _ tables => (fetch tables).map (·, tables))
    (database : Database) : Spares id database (query database).2 := by
  refine act same (fun seq tables value after done => ?_) database
  cases told : fetch tables with
  | ok value =>
    rw [told] at done
    cases done
    rfl
  | error failure =>
    rw [told] at done
    cases done

theorem bind {query : Query α} {next : α → Query β} {database : Database}
    (first : Spares id database (query database).2)
    (rest : ∀ value database, Spares id database (next value database).2) :
    Spares id database ((query >>= next) database).2 := by
  rw [Query.bind_apply]
  cases answered : query database with
  | mk result after =>
    rw [answered] at first
    cases result with
    | ok value => exact first.trans (rest value after)
    | error failure => exact first

theorem forM {save : α → Query Unit}
    (spares : ∀ item database, Spares id database (save item database).2) (items : List α)
    (database : Database) : Spares id database (items.forM save database).2 := by
  induction items generalizing database with
  | nil => exact refl id database
  | cons first rest ih => exact (spares first database).bind fun _ => ih

theorem transaction {query : Query α} {database : Database}
    (spares : Spares id database (query database).2) :
    Spares id database (Database.transaction query database).2 := by
  unfold Database.transaction
  cases answered : query database with
  | mk result after =>
    rw [answered] at spares
    cases result with
    | ok value => exact spares
    | error failure => exact ⟨rfl, spares.healthy⟩

theorem saveInstance (target : Instance) (database : Database) :
    Spares id database (Database.saveInstance target database).2 := by
  refine act (saveInstance_act target) (fun seq tables value after done => ?_) database
  split at done
  · cases done
  · cases done
    rfl

theorem saveTask (task : Task) (database : Database) :
    Spares id database (Database.saveTask task database).2 := by
  refine act (saveTask_act task) (fun seq tables value after done => ?_) database
  simp only at done
  split at done
  · cases done
  · cases done
    rfl

theorem saveDefinition {definition : Definition} (other : definition.id ≠ id) (now : Timestamp)
    (database : Database) :
    Spares id database (Database.saveDefinition now definition database).2 := by
  refine act (saveDefinition_act now definition) (fun seq tables value after done => ?_) database
  split at done
  · cases done
  cases done
  have out (row : DefinitionRow String) (same : row.id = definition.id) :
      decide (row.id = id) = false :=
    decide_eq_false fun here => other (same.symm.trans here)
  change (write (·.id) DefinitionRow.updated _ tables.definitions).filter _ = _
  unfold write
  split
  next old found =>
    refine filter_upsert _ (out _ rfl) fun stored known => out stored ?_
    exact find?_key known
  next =>
    rw [List.filter_append, List.filter_cons_of_neg (by rw [out _ rfl]; exact Bool.false_ne_true)]
    exact List.append_nil _

theorem transition {other : Uuid} (different : other ≠ id) (source target : DefinitionStatus)
    (database : Database) :
    Spares id database (Database.transition other source target database).2 := by
  refine act (transition_act other source target) (fun seq tables value after done => ?_) database
  cases done
  refine (Tables.filter_move (fun row => ?_) id tables).trans ?_
  · split
    · rfl
    · rfl
  refine (List.map_congr_left fun row member => if_neg fun moved => ?_).trans (List.map_id' _)
  have here : row.id = id := of_decide_eq_true (List.mem_filter.mp member).2
  simp only [Bool.and_eq_true, decide_eq_true_eq] at moved
  exact different (moved.1.symm.trans here)

theorem answer {call : StoreCall α} (other : ¬ call.Concerns id) (now : Timestamp)
    (database : Database) : Spares id database (database.answer now call).2 := by
  cases call with
  | saveDefinition definition => exact saveDefinition other now database
  | transition moved source target => exact transition other source target database
  | saveInstance target => exact saveInstance target database
  | saveTask task => exact saveTask task database
  | commit changes =>
    have sends (statement : String) (database : Database) :
        Spares id database (send statement database).2 :=
      act send_act (fun _ _ _ _ done => by cases done; rfl) database
    refine transaction ((sends _ database).bind fun _ begun => ?_)
    refine (saveInstance changes.target begun).bind fun _ written => ?_
    exact (forM saveTask changes.tasks written).bind fun _ last => sends _ last
  | loadDefinition wanted => exact fetch (loadDefinition_act wanted) database
  | findDefinition name version => exact fetch (findDefinition_act name version) database
  | loadInstance wanted => exact fetch (loadInstance_act wanted) database
  | loadTask wanted => exact fetch (loadTask_act wanted) database
  | pendingTasks target => exact fetch (tasksOf_act target _) database
  | tasksOf target => exact fetch (tasksOf_act target _) database
  | assignedTasks principal filter => exact fetch (assignedTasks_act principal filter) database

end Database.Spares

theorem Database.rowsOf_unknown {database : Database} {id : Uuid}
    (unknown : (loadDefinition id database).1 = .ok none) :
    database.tables.rowsOf id = [] := by
  have read := act_ok (loadDefinition_act id) unknown
  rw [Tables.find?_rowsOf] at read
  cases rows : database.tables.rowsOf id with
  | nil => rfl
  | cons row rest =>
    rw [rows, List.head?_cons, Option.mapM_some] at read
    cases told : row.read with
    | ok found =>
      rw [told] at read
      cases read
    | error failure =>
      rw [told] at read
      cases read

theorem MemoryStore.answer_spares {α : Type} {id : Uuid} {call : StoreCall α}
    (other : ¬ call.Concerns id) (records : MemoryStore) :
    (records.answer call).2.definition? id = records.definition? id := by
  cases call with
  | saveDefinition definition => exact (definition?_saveDefinition definition id).trans (if_neg other)
  | transition moved source target =>
    simp only [answer, MemoryStore.transition]
    split
    next definition found =>
      split
      · refine (definition?_saveDefinition _ id).trans (if_neg fun same => other ?_)
        exact (definition?_id found).symm.trans same
      · rfl
    · rfl
  | commit changes => exact definition?_commit changes id
  | _ => rfl

namespace Store

/-- A store that is well, with regard to one definition: in a relational one no failure of a statement
is waiting, and the definition is read back from its column. -/
def Healthy (definition : Definition) : Store → Prop
  | .memory _ => True
  | .relational database => database.faults = [] ∧ definition.ReadsBack

theorem answer_memory {α : Type} (now : Timestamp) (records : MemoryStore) (call : StoreCall α) :
    (memory records).answer now call = (.ok (records.answer call).1, .memory (records.answer call).2) :=
  rfl

theorem answer_relational {α : Type} (now : Timestamp) (database : Database) (call : StoreCall α) :
    (relational database).answer now call =
      ((database.answer now call).1, .relational (database.answer now call).2) :=
  rfl

inductive Spares (id : Uuid) : Store → Store → Prop where
  | memory {before after : MemoryStore} (same : after.definition? id = before.definition? id) :
      Spares id (.memory before) (.memory after)
  | relational {before after : Database} (spares : before.Spares id after) :
      Spares id (.relational before) (.relational after)

theorem answer_spares {α : Type} {id : Uuid} {call : StoreCall α} (other : ¬ call.Concerns id)
    (now : Timestamp) (store : Store) : store.Spares id (store.answer now call).2 := by
  cases store with
  | memory records => exact .memory (records.answer_spares other)
  | relational database => exact .relational (.answer other now database)

/-- A healthy store that has a definition, with no other one under its identifier. -/
inductive Holds (definition : Definition) : Store → Prop where
  | memory {records : MemoryStore} (found : records.definition? definition.id = some definition) :
      Holds definition (.memory records)
  | relational {database : Database} {row : DefinitionRow String} (healthy : database.faults = [])
      (single : database.tables.rowsOf definition.id = [row]) (shown : row.Shows definition) :
      Holds definition (.relational database)

namespace Holds

variable {definition : Definition} {store : Store}

theorem spares (holds : store.Holds definition) {after : Store}
    (spares : store.Spares definition.id after) : after.Holds definition := by
  cases holds with
  | memory found =>
    cases spares with
    | memory same => exact .memory (same.trans found)
  | relational healthy single shown =>
    cases spares with
    | relational spares =>
      exact .relational (spares.healthy healthy) (spares.rows.trans single) shown

theorem load (holds : store.Holds definition) (now : Timestamp) :
    store.answer now (.loadDefinition definition.id) = (.ok (some definition), store) := by
  cases holds with
  | memory found => simp only [answer, MemoryStore.answer, found]
  | @relational database row healthy single shown =>
    have read : database.answer now (.loadDefinition definition.id) =
        (.ok (some definition), database) := by
      refine Database.fetch_healthy healthy (Database.loadDefinition_act definition.id) ?_
      rw [Tables.find?_rowsOf, single, List.head?_cons, Option.mapM_some, shown.read]
      rfl
    rw [answer_relational, read]

theorem transition (holds : store.Holds definition) (source target : DefinitionStatus)
    (now : Timestamp) :
    (store.answer now (.transition definition.id source target)).1 =
        .ok (decide (definition.status = source)) ∧
      (store.answer now (.transition definition.id source target)).2.Holds
        (if definition.status = source then { definition with status := target } else definition) := by
  cases holds with
  | @memory records found =>
    by_cases expected : definition.status = source
    · have moved : records.answer (.transition definition.id source target) =
          (true, records.saveDefinition { definition with status := target }) := by
        simp only [MemoryStore.answer, MemoryStore.transition, found, if_pos expected]
      rw [decide_eq_true expected, if_pos expected, answer_memory, moved]
      exact ⟨rfl, .memory ((MemoryStore.definition?_saveDefinition _ _).trans (if_pos rfl))⟩
    · have stayed : records.answer (.transition definition.id source target) = (false, records) := by
        simp only [MemoryStore.answer, MemoryStore.transition, found, if_neg expected]
      rw [decide_eq_false expected, if_neg expected, answer_memory, stayed]
      exact ⟨rfl, .memory found⟩
  | @relational database row healthy single shown =>
    let concerned (row : DefinitionRow String) : Bool :=
      row.id = definition.id && row.status = Named.name source
    let change (row : DefinitionRow String) : DefinitionRow String :=
      if concerned row = true then { row with status := Named.name target } else row
    have here : concerned row = decide (definition.status = source) := by
      simp only [concerned, shown.id, shown.status, name_eq_name, decide_true, Bool.true_and]
    have told : database.tables.definitions.any concerned = decide (definition.status = source) := by
      have among : (database.tables.rowsOf definition.id).any concerned =
          database.tables.definitions.any concerned := by
        simp only [Tables.rowsOf, List.any_filter, concerned, ← Bool.and_assoc, Bool.and_self]
      rw [← among, single, ← here, List.any_cons, List.any_nil, Bool.or_false]
    have kept : (database.tables.definitions.map change).filter (fun row => row.id = definition.id) =
        [change row] := by
      rw [Tables.filter_move (fun row => ?_), single, List.map_singleton]
      simp only [change]
      split
      · rfl
      · rfl
    have moved : database.answer now (.transition definition.id source target) = _ :=
      Database.act_healthy healthy (Database.transition_act definition.id source target) rfl
    rw [answer_relational, moved]
    refine ⟨congrArg _ told, ?_⟩
    simp only [change, here, decide_eq_true_eq] at kept
    by_cases expected : definition.status = source
    · rw [if_pos expected] at kept ⊢
      exact .relational healthy kept (shown.move target)
    · rw [if_neg expected] at kept ⊢
      exact .relational healthy kept shown

end Holds

/-- A definition that is saved under an identifier that was not known is held. A relational store
cuts its date. -/
theorem holds_saved {definition : Definition} {store : Store} {now : Timestamp}
    (unknown : (store.answer now (.loadDefinition definition.id)).1 = .ok none)
    {later : Timestamp} {after : Store}
    (saved : (store.answer now (.loadDefinition definition.id)).2.answer later
      (.saveDefinition definition) = (.ok (), after)) (healthy : after.Healthy definition)
    (recognized : ∀ step ∈ definition.steps, step.kind ∈ StepKind.recognizedKinds) :
    ∃ date, after.Holds { definition with createdAt := date } := by
  cases store with
  | memory records =>
    cases saved
    exact ⟨definition.createdAt, .memory ((MemoryStore.definition?_saveDefinition _ _).trans (if_pos rfl))⟩
  | relational database =>
    let middle := (database.answer now (.loadDefinition definition.id)).2
    have absent : middle.tables.rowsOf definition.id = [] := by
      have reads : (StoreCall.loadDefinition definition.id).IsRead := trivial
      rw [Database.answer_reads reads now database]
      exact Database.rowsOf_unknown unknown
    let row := (DefinitionRow.ofDefinition later definition).encode
    have told : (Database.saveDefinition later definition middle).1 = .ok () :=
      congrArg Prod.fst saved
    have done := Database.act_ok (Database.saveDefinition_act later definition) told
    split at done
    · cases done
    have new : middle.tables.definitions.find? (fun other => other.id = row.id) = none := by
      rw [Tables.find?_rowsOf]
      exact congrArg List.head? absent
    let last := (Database.saveDefinition later definition middle).2
    have appended : last.tables.definitions = middle.tables.definitions ++ [row] := by
      have written := congrArg Tables.definitions (congrArg Prod.snd (Except.ok.inj done))
      refine written.symm.trans ?_
      rw [Database.write, new]
    have single : last.tables.rowsOf definition.id = [row] := by
      rw [Tables.rowsOf, appended, List.filter_append, ← Tables.rowsOf, absent, List.nil_append]
      exact List.filter_cons_of_pos (decide_eq_true rfl)
    have ended : after = .relational last := (congrArg Prod.snd saved).symm
    subst ended
    obtain ⟨well, back⟩ := healthy
    exact ⟨row.createdAt, .relational well single
      (DefinitionRow.ofDefinition_shows later back recognized)⟩

end Store

namespace Host

variable {moments : Moments} {host : Host}

/-- A definition is stored as a draft once it has been found to be without errors and its identifier
not to be known. -/
theorem run_define {definition : Definition} {id : Uuid}
    (defined : (run moments (Engine.define definition).run host).1 = .ok id) :
    definition.validate.isOk = true ∧ ∃ (before : Store) (now later dated : Timestamp),
      (before.answer now (.loadDefinition definition.id)).1 = .ok none ∧
      (before.answer now (.loadDefinition definition.id)).2.answer later
          (.saveDefinition { definition with status := .draft, createdAt := some dated }) =
        (.ok (), (run moments (Engine.define definition).run host).2.store) := by
  unfold Engine.define at defined ⊢
  cases valid : definition.validate.isOk with
  | false =>
    simp only [valid] at defined
    cases defined
  | true =>
  simp only [valid, Bool.not_true, Bool.false_eq_true, if_false] at defined ⊢
  refine ⟨trivial, ?_⟩
  obtain ⟨_, named, first, _, looked⟩ := run_store defined
  rw [looked] at defined ⊢
  cases named with
  | some other => cases defined
  | none =>
  simp only [Option.isSome_none, Bool.false_eq_true, if_false] at defined ⊢
  obtain ⟨now, known, second, loaded, read⟩ := run_store defined
  rw [read] at defined ⊢
  cases known with
  | some other => cases defined
  | none =>
  simp only [Option.isSome_none, Bool.false_eq_true, if_false, run_now] at defined ⊢
  obtain ⟨later, _, last, saved, written⟩ := run_store defined
  refine ⟨first, now, later, (moments (host.asked + 1 + 1)).now, congrArg Prod.fst loaded, ?_⟩
  rw [written, loaded]
  exact saved

/-- A definition that a call has defined is held as a draft without errors. -/
theorem define_holds {stored : Host} {definition : Definition} {id : Uuid}
    (defined : host.perform ⟨.define definition, moments⟩ = (.ok id, stored))
    (healthy : stored.store.Healthy definition) :
    definition.validate.isOk = true ∧
      ∃ date, stored.store.Holds { definition with status := .draft, createdAt := date } := by
  have succeeds : (run moments (Engine.define definition).run { host with asked := 0 }).1 = .ok id :=
    congrArg Prod.fst defined
  have last : (run moments (Engine.define definition).run { host with asked := 0 }).2 = stored :=
    congrArg Prod.snd defined
  obtain ⟨valid, first, now, later, dated, unknown, saved⟩ := run_define succeeds
  rw [last] at saved
  let draft : Definition := { definition with status := .draft, createdAt := some dated }
  have well : stored.store.Healthy draft := by
    cases kind : stored.store with
    | memory records => trivial
    | relational database =>
      rw [kind] at healthy
      exact healthy.imp_right fun back => back.of_steps rfl
  have recognized := Definition.recognized_of_isOk valid
  exact ⟨valid, @Store.holds_saved draft first now unknown later stored.store saved well recognized⟩

end Host

end Workflow
