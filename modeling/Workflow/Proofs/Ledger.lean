import Workflow.Proofs.Views

/-! Where the data of an instance comes from: from what it was given when it was begun, and from what
the completions of its tasks have entered since, one over the other in the order in which they were
written. No record keeps this order; it is that of the calls which have written. -/

namespace Workflow

structure Entry where
  task : Uuid
  data : Json.Members

namespace Json.Members

def enter (base : Members) (entries : List Entry) : Members :=
  entries.foldl (fun data entry => overlay data entry.data) base

theorem enter_append (base : Members) (first last : List Entry) :
    base.enter (first ++ last) = (base.enter first).enter last :=
  List.foldl_append

/-- Every field has the value of the last entry that has one for it. -/
theorem value?_enter (field : String) (base : Members) (entries : List Entry) :
    value? field (base.enter entries) =
      (entries.reverse.findSome? fun entry => value? field (ofList entry.data)).or
        (value? field base) := by
  induction entries generalizing base with
  | nil => rfl
  | cons entry rest ih =>
    have alone : [entry].findSome? (fun entry => value? field (ofList entry.data)) =
        value? field (ofList entry.data) := by
      cases found : value? field (ofList entry.data) <;> simp [found]
    rw [enter, List.foldl_cons, ← enter, ih, value?_overlay, List.reverse_cons,
      List.findSome?_append, alone, Option.or_assoc]

end Json.Members

namespace EngineCall

def entered? {α : Type} : EngineCall α → Option Entry
  | complete task data _ => some ⟨task, data⟩
  | _ => none

def given? {α : Type} : EngineCall α → α → Option (Uuid × Json.Members)
  | start _ data _, id => some (id, data)
  | _, _ => none

end EngineCall

namespace MemoryStore

def entriesOf (records : MemoryStore) (entries : List Entry) (id : Uuid) : List Entry :=
  entries.filter fun entry => (records.task? entry.task).any fun task => task.instanceId = id

def completedOf (records : MemoryStore) (id : Uuid) : List Entry :=
  ((records.tasksOf id).filter fun task => !task.isPending).map fun task => ⟨task.id, task.data⟩

end MemoryStore

/-- Starts and entries account for what is stored. -/
structure Books (records : MemoryStore) (given : Uuid → Json.Members → Prop)
    (entries : List Entry) : Prop where
  begun : ∀ id target, records.instance? id = some target → ∃ data, given id data
  data : ∀ id data, given id data → ∃ target, records.instance? id = some target ∧
    target.data = data.enter (records.entriesOf entries id)
  stored : ∀ entry ∈ entries, ∃ task, records.task? entry.task = some task ∧
    task.status = .completed ∧ task.data = entry.data
  entered : ∀ id task, records.task? id = some task → task.status = .completed →
    ⟨id, task.data⟩ ∈ entries
  once : (entries.map (·.task)).Nodup

namespace Books

variable {records after : MemoryStore} {given : Uuid → Json.Members → Prop} {entries : List Entry}

theorem empty : Books {} (fun _ _ => False) [] where
  begun _ _ found := nomatch found
  data _ _ given := given.elim
  stored _ member := nomatch member
  entered _ _ found := nomatch found
  once := List.nodup_nil

theorem of_eq (books : Books records given entries)
    (instances : after.instances = records.instances) (tasks : after.tasks = records.tasks) :
    Books after given entries := by
  obtain ⟨definitions, _, _⟩ := after
  cases instances
  cases tasks
  exact ⟨books.begun, books.data, books.stored, books.entered, books.once⟩

theorem congr (books : Books records given entries) {others : Uuid → Json.Members → Prop}
    (same : ∀ id data, others id data ↔ given id data) : Books records others entries := by
  have equal : others = given := funext fun id => funext fun data => propext (same id data)
  exact equal ▸ books

theorem entriesOf_endures (books : Books records given entries) (endures : Endures records after)
    (id : Uuid) : after.entriesOf entries id = records.entriesOf entries id := by
  refine List.filter_congr fun entry member => ?_
  obtain ⟨task, found, completed, _⟩ := books.stored entry member
  rw [found, endures.completedTasks _ task found completed]

theorem stored_endures (books : Books records given entries) (endures : Endures records after) :
    ∀ entry ∈ entries, ∃ task, after.task? entry.task = some task ∧
      task.status = .completed ∧ task.data = entry.data := by
  intro entry member
  obtain ⟨task, found, completed, same⟩ := books.stored entry member
  exact ⟨task, endures.completedTasks _ task found completed, completed, same⟩

/-- Nothing has been entered for a task that is pending. -/
theorem not_entered (books : Books records given entries) {id : Uuid} {task : Task}
    (found : records.task? id = some task) (pending : task.isPending = true) :
    id ∉ entries.map (·.task) := by
  intro again
  obtain ⟨entry, member, rfl⟩ := List.mem_map.mp again
  obtain ⟨same, known, completed, _⟩ := books.stored entry member
  cases known.symm.trans found
  simp [Task.isPending, completed] at pending

/-- The entries for an instance are what its completed tasks hold. -/
theorem perm_completedOf (books : Books records given entries) (level : Level records) (id : Uuid) :
    (records.entriesOf entries id).Perm (records.completedOf id) := by
  have first : (records.entriesOf entries id).Nodup := books.once.of_map.filter _
  have second : (records.completedOf id).Nodup := by
    refine List.Nodup.of_map (·.task) ?_
    rw [MemoryStore.completedOf, List.map_map]
    refine List.Nodup.sublist ?_ level.tasks
    exact (List.filter_sublist.trans List.filter_sublist).map _
  refine (List.perm_ext_iff_of_nodup first second).mpr fun entry => ?_
  rw [MemoryStore.entriesOf, List.mem_filter, Option.any_eq_true]
  constructor
  · rintro ⟨member, task, found, own⟩
    obtain ⟨same, known, completed, held⟩ := books.stored entry member
    cases known.symm.trans found
    refine List.mem_map.mpr ⟨task, List.mem_filter.mpr ⟨List.mem_filter.mpr ⟨?_, own⟩, ?_⟩, ?_⟩
    · exact MemoryStore.mem_of_task? found
    · simp [Task.isPending, completed]
    · rw [held, MemoryStore.task?_id found]
  · intro member
    obtain ⟨task, listed, rfl⟩ := List.mem_map.mp member
    obtain ⟨listed, ended⟩ := List.mem_filter.mp listed
    obtain ⟨stored, own⟩ := List.mem_filter.mp listed
    have found : records.task? task.id = some task := find?_of_mem level.tasks stored
    have completed : task.status = .completed := by
      cases status : task.status with
      | pending => simp [Task.isPending, status] at ended
      | completed => rfl
    exact ⟨books.entered task.id task found completed, task, found, own⟩

end Books

section Writes

variable {records : MemoryStore} {given : Uuid → Json.Members → Prop} {entries : List Entry}

theorem Level.task?_commit (level : Level records) {changes : ChangeSet} {id : Uuid} {task : Task}
    (found : (records.commit changes).task? id = some task) :
    task.id = id ∧ (task ∈ changes.tasks ∨ records.task? id = some task) := by
  have same := MemoryStore.task?_id found
  refine ⟨same, (MemoryStore.mem_commit_tasks (MemoryStore.mem_of_task? found)).imp_right ?_⟩
  intro old
  exact same ▸ find?_of_mem level.tasks old

section Begins

variable {permits : Moment → Prop} {id : Uuid} {data : Json.Members} {startedBy : String}
  (begun : Beginning permits records id data startedBy)

theorem Beginning.entriesOf_new (level : Level records)
    (fresh : Fresh records [begun.taskId, begun.id]) :
    records.entriesOf entries begun.id = [] := by
  refine List.filter_eq_nil_iff.mpr fun entry member here => ?_
  obtain ⟨task, found, own⟩ := Option.any_eq_true .. |>.mp here
  have housed := level.housed task (MemoryStore.mem_of_task? found)
  rw [of_decide_eq_true own, begun.unknown fresh] at housed
  cases housed

theorem Books.begins (books : Books records given entries) (level : Level records)
    (fresh : Fresh records [begun.taskId, begun.id]) :
    Books (records.commit begun.changes)
      (fun id other => given id other ∨ some (begun.id, data) = some (id, other)) entries := by
  have endures := (begun.carries fresh).endures
  refine ⟨fun other target found => ?_, fun other told begins => ?_, books.stored_endures endures,
    fun other task found completed => ?_, books.once⟩
  · rw [MemoryStore.instance?_commit] at found
    split at found
    next here => exact ⟨data, Or.inr (congrArg (fun id => some (id, data)) here)⟩
    next =>
      obtain ⟨told, begins⟩ := books.begun other target found
      exact ⟨told, Or.inl begins⟩
  · rw [books.entriesOf_endures endures, MemoryStore.instance?_commit]
    rcases begins with before | now
    · obtain ⟨target, found, held⟩ := books.data other told before
      refine ⟨target, (if_neg fun here => ?_).trans found, held⟩
      have unknown : records.instance? other = none := here ▸ begun.unknown fresh
      cases unknown.symm.trans found
    · cases now
      refine ⟨begun.target, if_pos rfl, ?_⟩
      rw [begun.entriesOf_new level fresh]
      rfl
  · obtain ⟨_, new | old⟩ := level.task?_commit found
    · rw [List.mem_singleton.mp new] at completed
      cases completed
    · exact books.entered other task old completed

end Begins

section Completes

variable {permits : Moment → Prop} {id : Uuid} {data : Json.Members} {principal : String}
  (done : Completion permits records id data principal)

theorem Completion.data_after :
    done.changes.target.data = Json.Members.overlay done.target.data data := by
  rw [changes, completionChanges, Instance.withPending_data]

theorem Completion.entriesOf_after (books : Books records given entries)
    (fresh : Fresh records done.ids) (other : Uuid) :
    (records.commit done.changes).entriesOf (entries ++ [⟨id, data⟩]) other =
      records.entriesOf entries other ++
        if done.target.id = other then [⟨id, data⟩] else [] := by
  have completed := done.task?_after fresh
  have place : (done.task.complete data principal done.now).instanceId = done.target.id :=
    done.target_id.symm
  rw [← books.entriesOf_endures (done.carries fresh).endures other, MemoryStore.entriesOf,
    List.filter_append, MemoryStore.entriesOf]
  congr 1
  simp only [List.filter_cons, completed, Option.any_some, place, decide_eq_true_eq,
    List.filter_nil]

theorem Books.completes (books : Books records given entries) (level : Level records)
    (fresh : Fresh records done.ids) :
    Books (records.commit done.changes) given (entries ++ [⟨id, data⟩]) := by
  have housed := done.housed
  rw [← done.target_id] at housed
  refine ⟨fun other target found => ?_, fun other told begins => ?_, ?_, ?_, ?_⟩
  · rw [MemoryStore.instance?_commit, done.changes_id] at found
    split at found
    next here => exact books.begun other done.target (here ▸ housed)
    next => exact books.begun other target found
  · obtain ⟨target, found, held⟩ := books.data other told begins
    rw [done.entriesOf_after books fresh, MemoryStore.instance?_commit, done.changes_id]
    by_cases here : done.target.id = other
    · subst here
      cases housed.symm.trans found
      refine ⟨done.changes.target, if_pos rfl, ?_⟩
      rw [if_pos rfl, Json.Members.enter_append, ← held, done.data_after]
      rfl
    · exact ⟨target, (if_neg here).trans found, by rw [if_neg here, List.append_nil, held]⟩
  · intro entry member
    rcases List.mem_append.mp member with old | new
    · exact books.stored_endures (done.carries fresh).endures entry old
    · cases List.mem_singleton.mp new
      exact ⟨_, done.task?_after fresh, rfl, rfl⟩
  · intro other task found ended
    obtain ⟨named, new | old⟩ := level.task?_commit found
    · rcases List.mem_cons.mp new with rfl | created
      · refine List.mem_append_right _ (List.mem_singleton.mpr ?_)
        rw [← named]
        exact congrArg (Entry.mk · data) done.task_id
      · have pending := (done.created_pending created).2
        simp [Task.isPending, ended] at pending
    · exact List.mem_append_left _ (books.entered other task old ended)
  · rw [List.map_append]
    have new := books.not_entered done.found done.advances.pending
    exact List.nodup_append_comm.mp (List.nodup_cons.mpr ⟨new, books.once⟩)

end Completes

end Writes

theorem Writes.books {records : MemoryStore} {given : Uuid → Json.Members → Prop}
    {entries : List Entry} {definitions : List Definition} {α : Type} {call : EngineCall α}
    {value : α} {ids : List Uuid} {changes : ChangeSet}
    (writes : Writes { records with definitions } call value ids changes)
    (books : Books records given entries) (level : Level records) (fresh : Fresh records ids) :
    Books (records.commit changes)
      (fun id data => given id data ∨ call.given? value = some (id, data))
      (entries ++ call.entered?.toList) := by
  have others : Books { records with definitions } given entries := books.of_eq rfl rfl
  have even : Level { records with definitions } := level.of_eq rfl rfl
  have unused := fresh.defined definitions
  have after : Books (({ records with definitions } : MemoryStore).commit changes)
      (fun id data => given id data ∨ call.given? value = some (id, data))
      (entries ++ call.entered?.toList) := by
    cases writes with
    | begun begun =>
      have none {data : Json.Members} {startedBy : String} {definition : Uuid} :
          entries ++ (EngineCall.start definition data startedBy).entered?.toList = entries :=
        List.append_nil entries
      rw [none]
      exact others.begins begun even unused
    | completed done =>
      refine (others.completes done even unused).congr fun id data => ?_
      exact ⟨fun told => told.resolve_right nofun, Or.inl⟩
  obtain ⟨instances, tasks⟩ := records.commit_defined definitions changes
  exact after.of_eq instances tasks

namespace System

variable {attempts : Nat → Attempt} {system : System attempts} {drawn : List Uuid}

/-- What the completions that have written have entered, in the order in which they wrote. -/
def entries (system : System attempts) : List Entry :=
  system.written.filterMap fun i => (attempts i).call.entered?

def Given (system : System attempts) (id : Uuid) (data : Json.Members) : Prop :=
  ∃ i ∈ system.written, ∃ value, (system.clients i).rest.Closes (.ok value) ∧
    (attempts i).call.given? value = some (id, data)

/-- The calls that have written account for what is stored, and none of them fails any more. -/
structure Accounts (system : System attempts) : Prop where
  books : Books system.records system.Given system.entries
  succeeds : ∀ i ∈ system.written, ∃ value, (system.clients i).rest.Closes (.ok value)

/-- What the calls that write in a step have begun comes to what was begun before. -/
theorem Accounts.given_step (accounts : system.Accounts) {j : Nat} {more : List Nat}
    (written : (system.step j).written = system.written ++ more) (id : Uuid) (data : Json.Members) :
    (system.step j).Given id data ↔ system.Given id data ∨
      ∃ i ∈ more, ∃ value, ((system.step j).clients i).rest.Closes (.ok value) ∧
        (attempts i).call.given? value = some (id, data) := by
  constructor
  · rintro ⟨i, member, value, closes, begins⟩
    rw [written] at member
    rcases List.mem_append.mp member with old | new
    · obtain ⟨early, before⟩ := accounts.succeeds i old
      cases (closes_step i j before).unique closes
      exact Or.inl ⟨i, old, value, before, begins⟩
    · exact Or.inr ⟨i, new, value, closes, begins⟩
  · rintro (⟨i, member, value, closes, begins⟩ | ⟨i, member, value, closes, begins⟩)
    · refine ⟨i, ?_, value, closes_step i j closes, begins⟩
      rw [written]
      exact List.mem_append_left _ member
    · refine ⟨i, ?_, value, closes, begins⟩
      rw [written]
      exact List.mem_append_right _ member

theorem Orderly.accounts_step (orderly : system.Orderly drawn) (distinct : system.Distinct drawn)
    (level : Level system.records) (accounts : system.Accounts) (i : Nat) :
    (system.step i).Accounts := by
  have still : ∀ j ∈ system.written,
      ∃ value, ((system.step i).clients j).rest.Closes (.ok value) := by
    intro j member
    obtain ⟨value, closes⟩ := accounts.succeeds j member
    exact ⟨value, closes_step j i closes⟩
  cases orderly.stepped i with
  | quiet instances tasks written =>
    refine ⟨?_, fun j member => still j (written ▸ member)⟩
    rw [entries, written]
    refine (accounts.books.of_eq instances tasks).congr fun id data => ?_
    rw [accounts.given_step (written.trans (List.append_nil _).symm)]
    simp
  | @writes _ _ changes value early _ _ writes records written closes =>
    refine ⟨?_, fun j member => ?_⟩
    · rw [entries, written, List.filterMap_append, records]
      have after := writes.books accounts.books level (orderly.fresh distinct early)
      have own : [i].filterMap (fun j => (attempts j).call.entered?) =
          (attempts i).call.entered?.toList := by
        cases entered : (attempts i).call.entered? <;> simp [entered]
      rw [own]
      refine after.congr fun id data => ?_
      rw [accounts.given_step written]
      refine or_congr_right ⟨?_, fun begins => ⟨i, List.mem_singleton_self i, value, closes, begins⟩⟩
      rintro ⟨j, member, other, ends, begins⟩
      cases List.mem_singleton.mp member
      cases closes.unique ends
      exact begins
    · rw [written] at member
      rcases List.mem_append.mp member with old | new
      · exact still j old
      · cases List.mem_singleton.mp new
        exact ⟨value, closes⟩

theorem Orderly.accounts_run (orderly : system.Orderly drawn) {schedule : List Nat}
    (distinct : (system.run schedule).Distinct drawn) (level : Level system.records)
    (accounts : system.Accounts) : (system.run schedule).Accounts := by
  induction schedule generalizing system with
  | nil => exact accounts
  | cons i rest ih =>
    have later : ((system.step i).run rest).Distinct drawn := distinct
    have now : system.Distinct drawn := later.of_run.of_step
    exact ih (orderly.step now i).1 later (orderly.level_step now level i)
      (orderly.accounts_step now level accounts i)

/-- The data of an instance is that with which it was begun, with what has been entered for its tasks
put over it; what has been entered is what its completed tasks hold. -/
structure Told (system : System attempts) (id : Uuid) (target : Instance) : Prop where
  begun : ∃ data, system.Given id data
  data : ∀ data, system.Given id data →
    target.data = data.enter (system.records.entriesOf system.entries id)
  fields : ∀ data, system.Given id data → ∀ field,
    Json.Members.value? field target.data =
      ((system.records.entriesOf system.entries id).reverse.findSome? fun entry =>
        Json.Members.value? field (.ofList entry.data)).or (Json.Members.value? field data)
  completed : (system.records.entriesOf system.entries id).Perm (system.records.completedOf id)

/-- Every instance is as the calls that have written tell. A call that fails is none of them, and a
completion that succeeds is. -/
structure Ledger (system : System attempts) : Prop where
  told : ∀ id target, system.records.instance? id = some target → system.Told id target
  failed : ∀ i failure, (system.clients i).rest = .done (.error failure) → i ∉ system.written
  returned : ∀ i outcome, system.Returns i outcome → i ∈ system.written

theorem Accounts.told (accounts : system.Accounts) (level : Level system.records) {id : Uuid}
    {target : Instance} (found : system.records.instance? id = some target) :
    system.Told id target := by
  have follows (data : Json.Members) (given : system.Given id data) :
      target.data = data.enter (system.records.entriesOf system.entries id) := by
    obtain ⟨same, stored, held⟩ := accounts.books.data id data given
    cases stored.symm.trans found
    exact held
  refine ⟨accounts.books.begun id target found, follows, fun data given field => ?_,
    accounts.books.perm_completedOf level id⟩
  rw [follows data given, Json.Members.value?_enter]

end System

/-- Whatever calls are made, one after another or at once, and in whatever order their steps are
taken. -/
theorem data_is_told {attempts : Nat → Attempt} {schedule : List Nat}
    (distinct : ((System.begin attempts {}).run schedule).Distinct []) :
    ((System.begin attempts {}).run schedule).Ledger := by
  have sound := (Reachable.empty : Reachable (fun _ => True) {}).sound
  have start : (System.begin attempts {}).Orderly [] :=
    System.Orderly.begin sound List.nodup_nil attempts
  have even : Level (System.begin attempts {}).records := Level.of_sound sound.records
  have blank : (System.begin attempts {}).Accounts := by
    refine ⟨Books.empty.congr fun id data => ⟨?_, False.elim⟩, fun _ member => nomatch member⟩
    rintro ⟨_, member, _⟩
    cases member
  have orderly := (start.run distinct).1
  have accounts := start.accounts_run distinct even blank
  refine ⟨fun id target found => accounts.told (start.level_run distinct even) found, ?_,
    fun i outcome returns => orderly.wrote returns.reports⟩
  intro i failure returned member
  obtain ⟨value, closes⟩ := accounts.succeeds i member
  rw [returned] at closes
  cases closes

/-- An article from its definition on. Both branches are completed at once, one of them by bob as
well, who may not. -/
def articleTale : Nat → Attempt
  | 0 => ⟨.define article, calm 10⟩
  | 1 => ⟨.activate article.id, calm 20⟩
  | 2 => ⟨.start article.id [("pages", .int 1), ("title", .string "Draft")] "ada", calm 30⟩
  | 3 => ⟨.complete (Uuid.ofNat 33) [("pages", .int 7)] "ada", calm 40⟩
  | 4 =>
    ⟨.complete (Uuid.ofNat 48) [("grade", .int 2), ("title", .string "Final")] "ada", calm 50⟩
  | 5 => ⟨.complete (Uuid.ofNat 49) [("copies", .int 7), ("grade", .int 1)] "ada", calm 60⟩
  | _ + 6 => ⟨.complete (Uuid.ofNat 49) [("copies", .int 9)] "bob", calm 70⟩

/-- The first four calls run one after another, the others in turns. -/
def articleTold : System articleTale :=
  (System.begin articleTale {}).run
    (((List.range 4).flatMap fun call => List.replicate 20 call) ++
      (List.range 90).map fun turn => 6 - turn % 3)

/-- The print is written before the review, which gives the grade. -/
theorem article_tale_is_told :
    articleTold.written = [2, 3, 5, 4] ∧
      (articleTold.records.instance? (Uuid.ofNat 32)).map (fun target =>
          target.data.map fun field => (field.1, field.2.asText)) =
        some [("copies", "7"), ("grade", "2"), ("pages", "7"), ("title", "Final")] ∧
      articleTold.Ledger := by
  have distinct : articleTold.Distinct [] :=
    @System.Distinct.of_busy _ _ _ _ [0, 1, 2, 3, 4, 5, 6] (by decide +kernel) (by decide +kernel)
  exact ⟨by decide +kernel, by decide +kernel, data_is_told distinct⟩

end Workflow
