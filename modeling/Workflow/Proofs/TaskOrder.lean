import Mathlib.Data.Finmap
import Workflow.Proofs.KeyedRecords

/-! The order of stored tasks. A task stays where it was first written and is what was written last,
so that every listing is a part of one order. The same comes of a table of tasks beside a list of
their identifiers, where the list grows only with an identifier that the table does not have. -/

namespace Workflow

section Writes

variable {α κ : Type} [DecidableEq κ] {key : α → κ}

structure Collects (key : α → κ) (written records : List α) : Prop where
  once : (records.map key).Nodup
  complete : ∀ one, one ∈ records.map key ↔ one ∈ written.map key
  ordered : (records.map key).Pairwise fun first later =>
    written.findIdx (fun record => key record = first) <
      written.findIdx fun record => key record = later
  latest : ∀ record ∈ records,
    written.reverse.find? (fun other => key other = key record) = some record

theorem findIdx_write {written : List α} (record : α) {one : κ} (known : one ∈ written.map key) :
    (written ++ [record]).findIdx (fun other => key other = one) =
      written.findIdx fun other => key other = one := by
  obtain ⟨other, member, same⟩ := List.mem_map.mp known
  rw [List.findIdx_append, if_pos]
  exact List.findIdx_lt_length_of_exists ⟨other, member, decide_eq_true same⟩

theorem findIdx_write_new {written : List α} {record : α} (new : key record ∉ written.map key) :
    (written ++ [record]).findIdx (fun other => key other = key record) = written.length := by
  have none : written.findIdx (fun other => key other = key record) = written.length := by
    refine List.findIdx_eq_length.mpr fun other member => decide_eq_false fun same => ?_
    exact new (List.mem_map.mpr ⟨other, member, same⟩)
  rw [List.findIdx_append, none, if_neg (Nat.lt_irrefl _), List.findIdx_cons, decide_eq_true rfl,
    cond_true, Nat.zero_add]

/-- One more write keeps the place of a known record and puts a new one at the end. -/
theorem Collects.write {written records : List α} (collects : Collects key written records)
    (record : α) : Collects key (written ++ [record]) (upsert key record records) where
  once := nodup_upsert collects.once
  complete one := by
    rw [List.map_append, List.mem_append, ← collects.complete, List.map_singleton,
      List.mem_singleton]
    by_cases known : key record ∈ records.map key
    · rw [map_key_upsert_known known]
      exact ⟨Or.inl, fun either => either.elim id fun same => same ▸ known⟩
    · rw [upsert_new known, List.map_append, List.mem_append, List.map_singleton,
        List.mem_singleton]
  ordered := by
    have before : (records.map key).Pairwise fun first later =>
        (written ++ [record]).findIdx (fun other => key other = first) <
          (written ++ [record]).findIdx fun other => key other = later := by
      refine collects.ordered.imp_of_mem fun first later less => ?_
      rwa [findIdx_write record ((collects.complete _).mp first),
        findIdx_write record ((collects.complete _).mp later)]
    by_cases known : key record ∈ records.map key
    · rwa [map_key_upsert_known known]
    · rw [upsert_new known, List.map_append, List.pairwise_append]
      refine ⟨before, List.pairwise_singleton _ _, fun first here later last => ?_⟩
      rw [List.map_singleton, List.mem_singleton] at last
      have old := (collects.complete first).mp here
      obtain ⟨other, member, same⟩ := List.mem_map.mp old
      rw [last, findIdx_write record old,
        findIdx_write_new (mt (collects.complete (key record)).mpr known)]
      exact List.findIdx_lt_length_of_exists ⟨other, member, decide_eq_true same⟩
  latest wanted member := by
    rw [List.reverse_append, List.reverse_singleton, List.singleton_append, List.find?_cons]
    by_cases same : key record = key wanted
    · have found := find?_upsert key record records (key wanted)
      rw [if_pos same, find?_of_mem (nodup_upsert collects.once) member] at found
      rw [decide_eq_true same, found]
    · rw [decide_eq_false same]
      rcases mem_upsert member with rfl | old
      · exact absurd rfl same
      · exact collects.latest wanted old

theorem Collects.writes {written records : List α} (collects : Collects key written records)
    (added : List α) : Collects key (written ++ added)
      (added.foldl (fun records record => upsert key record records) records) := by
  induction added generalizing written records with
  | nil => rwa [List.append_nil]
  | cons first rest ih =>
    rw [← List.singleton_append, ← List.append_assoc]
    exact ih (collects.write first)

end Writes

def StoreCall.tasks {α : Type} : StoreCall α → List Task
  | saveTask task => [task]
  | commit changes => changes.tasks
  | _ => []

def writtenTasks (calls : List (Sigma StoreCall)) : List Task :=
  calls.flatMap fun call => call.2.tasks

namespace MemoryStore

def after (store : MemoryStore) (calls : List (Sigma StoreCall)) : MemoryStore :=
  calls.foldl (fun store call => (store.answer call.2).2) store

/-- A call writes its tasks, and does nothing else to the tasks that are stored. -/
theorem answer_tasks {α : Type} (store : MemoryStore) (call : StoreCall α) :
    (store.answer call).2.tasks =
      call.tasks.foldl (fun tasks task => upsert (·.id) task tasks) store.tasks := by
  cases call with
  | commit changes => exact commit_tasks changes
  | transition id source target =>
    simp only [answer, transition]
    split
    · split <;> rfl
    · rfl
  | _ => rfl

theorem after_tasks (store : MemoryStore) (calls : List (Sigma StoreCall)) :
    (store.after calls).tasks =
      (writtenTasks calls).foldl (fun tasks task => upsert (·.id) task tasks) store.tasks := by
  induction calls generalizing store with
  | nil => rfl
  | cons call rest ih =>
    have later := ih (store.answer call.2).2
    rw [answer_tasks, ← List.foldl_append] at later
    exact later

end MemoryStore

/-- Tasks under their identifiers, and the order in which these were first used. -/
structure TaskTable where
  tasks : Finmap fun _ : Uuid => Task := ∅
  order : List Uuid := []

namespace TaskTable

/-- Puts a task under its identifier, which goes to the end of the order if nothing was there. -/
def put (table : TaskTable) (task : Task) : TaskTable where
  tasks := table.tasks.insert task.id task
  order := if (table.tasks.lookup task.id).isNone then table.order ++ [task.id] else table.order

def after (table : TaskTable) (calls : List (Sigma StoreCall)) : TaskTable :=
  calls.foldl (fun table call => call.2.tasks.foldl put table) table

def listed (table : TaskTable) (keeps : Task → Bool) : List Task :=
  (table.order.filterMap table.tasks.lookup).filter keeps

def assignedTasks (table : TaskTable) (principal : String) (filter : TaskFilter) : List Task :=
  let matching := table.listed fun task => task.assignee = some principal && filter.admits task
  match filter.limit with
  | some limit => matching.take limit
  | none => matching

def count (table : TaskTable) : Nat :=
  table.tasks.keys.card

end TaskTable

structure Tabulates (table : TaskTable) (tasks : List Task) : Prop where
  order : table.order = tasks.map (·.id)
  found : ∀ id, table.tasks.lookup id = tasks.find? fun task => task.id = id

namespace Tabulates

variable {table : TaskTable} {tasks : List Task}

theorem put (tabulates : Tabulates table tasks) (task : Task) :
    Tabulates (table.put task) (upsert (·.id) task tasks) where
  order := by
    rw [TaskTable.put, tabulates.found]
    by_cases known : task.id ∈ tasks.map (·.id)
    · obtain ⟨other, member, same⟩ := List.mem_map.mp known
      have some : (tasks.find? fun other => other.id = task.id).isSome = true :=
        List.find?_isSome.mpr ⟨other, member, decide_eq_true same⟩
      rw [if_neg (by simpa using some), map_key_upsert_known known]
      exact tabulates.order
    · rw [find?_none_of_not_mem known, upsert_new known, List.map_append]
      exact congrArg (· ++ [task.id]) tabulates.order
  found id := by
    rw [find?_upsert, ← tabulates.found]
    by_cases same : task.id = id
    · rw [if_pos same, ← same]
      exact Finmap.lookup_insert _
    · rw [if_neg same]
      exact Finmap.lookup_insert_of_ne _ (Ne.symm same)

theorem puts (tabulates : Tabulates table tasks) (added : List Task) :
    Tabulates (added.foldl TaskTable.put table)
      (added.foldl (fun tasks task => upsert (·.id) task tasks) tasks) := by
  induction added generalizing table tasks with
  | nil => exact tabulates
  | cons first rest ih => exact ih (tabulates.put first)

theorem after (tabulates : Tabulates table tasks) (calls : List (Sigma StoreCall)) :
    Tabulates (table.after calls)
      ((writtenTasks calls).foldl (fun tasks task => upsert (·.id) task tasks) tasks) := by
  induction calls generalizing table tasks with
  | nil => exact tabulates
  | cons call rest ih =>
    have later := ih (tabulates.puts call.2.tasks)
    rw [← List.foldl_append] at later
    exact later

/-- With distinct identifiers the order leads to all tasks and to nothing else. -/
theorem listed_eq (tabulates : Tabulates table tasks) (once : (tasks.map (·.id)).Nodup)
    (keeps : Task → Bool) : table.listed keeps = tasks.filter keeps := by
  have all : ∀ task ∈ tasks, (table.tasks.lookup ∘ Task.id) task = some task := by
    intro task member
    exact (tabulates.found task.id).trans (find?_of_mem once member)
  rw [TaskTable.listed, tabulates.order, List.filterMap_map, List.filterMap_congr all,
    List.filterMap_some]

theorem count_eq (tabulates : Tabulates table tasks) (once : (tasks.map (·.id)).Nodup) :
    table.count = tasks.length := by
  have keys : table.tasks.keys = (tasks.map (·.id)).toFinset := by
    ext id
    rw [Finmap.mem_keys, ← Finmap.lookup_isSome, tabulates.found, List.find?_isSome,
      List.mem_toFinset, List.mem_map]
    simp only [decide_eq_true_eq]
  rw [TaskTable.count, keys, List.toFinset_card_of_nodup once, List.length_map]

end Tabulates

structure Selects (tasks : List Task) (holds : Task → Prop) (listed : List Task) : Prop where
  sublist : listed.Sublist tasks
  complete : ∀ task, task ∈ listed ↔ task ∈ tasks ∧ holds task

theorem Selects.filter {holds : Task → Prop} {keeps : Task → Bool} (tasks : List Task)
    (same : ∀ task, keeps task = true ↔ holds task) : Selects tasks holds (tasks.filter keeps) :=
  ⟨List.filter_sublist, fun task => by rw [List.mem_filter, same]⟩

/-- The listings of a store are parts of the order of its tasks. -/
structure Listings (store : MemoryStore) : Prop where
  tasksOf : ∀ id, Selects store.tasks (fun task => task.instanceId = id)
    (store.answer (.tasksOf id)).1
  pendingTasks : ∀ id, Selects store.tasks
    (fun task => task.instanceId = id ∧ task.status = .pending) (store.answer (.pendingTasks id)).1
  assignedTasks : ∀ principal filter, ∃ matching,
    Selects store.tasks (fun task => task.assignee = some principal ∧
      (∀ status, filter.status = some status → task.status = status) ∧
      ∀ id, filter.instanceId = some id → task.instanceId = id) matching ∧
    (filter.limit = none → (store.answer (.assignedTasks principal filter)).1 = matching) ∧
    ∀ limit, filter.limit = some limit →
      (store.answer (.assignedTasks principal filter)).1 = matching.take limit

theorem TaskFilter.admits_iff {filter : TaskFilter} {task : Task} :
    filter.admits task = true ↔
      (∀ status, filter.status = some status → task.status = status) ∧
        ∀ id, filter.instanceId = some id → task.instanceId = id := by
  simp only [admits, Bool.and_eq_true, Option.all_eq_true, decide_eq_true_eq]

theorem MemoryStore.listings (store : MemoryStore) : Listings store where
  tasksOf id := .filter store.tasks fun _ => decide_eq_true_iff
  pendingTasks id := .filter store.tasks fun task => by
    rw [Bool.and_eq_true, Task.isPending, decide_eq_true_eq, decide_eq_true_eq]
  assignedTasks principal filter := by
    refine ⟨store.tasks.filter fun task => task.assignee = some principal && filter.admits task,
      .filter store.tasks fun task => ?_, fun none => ?_, fun limit some => ?_⟩
    · rw [Bool.and_eq_true, decide_eq_true_eq, TaskFilter.admits_iff]
    · simp only [answer, assignedTasks, none]
    · simp only [answer, assignedTasks, some]

/-- A table of tasks with their order answers as a store does. -/
structure AnswersAs (table : TaskTable) (store : MemoryStore) : Prop where
  order : table.order = store.tasks.map (·.id)
  found : ∀ id, table.tasks.lookup id = (store.answer (.loadTask id)).1
  tasksOf : ∀ id, table.listed (fun task => task.instanceId = id) = (store.answer (.tasksOf id)).1
  pendingTasks : ∀ id, table.listed (fun task => task.instanceId = id && task.isPending) =
    (store.answer (.pendingTasks id)).1
  assignedTasks : ∀ principal filter,
    table.assignedTasks principal filter = (store.answer (.assignedTasks principal filter)).1
  count : table.count = store.taskCount

theorem Tabulates.answersAs {table : TaskTable} {store : MemoryStore}
    (tabulates : Tabulates table store.tasks) (once : (store.tasks.map (·.id)).Nodup) :
    AnswersAs table store where
  order := tabulates.order
  found := tabulates.found
  tasksOf id := tabulates.listed_eq once _
  pendingTasks id := tabulates.listed_eq once _
  assignedTasks principal filter := by
    simp only [TaskTable.assignedTasks, tabulates.listed_eq once]
    rfl
  count := tabulates.count_eq once

theorem Collects.length_eq {tasks records : List Task} (collects : Collects Task.id tasks records) :
    records.length = (tasks.map (·.id)).toFinset.card := by
  have same : (records.map (·.id)).toFinset = (tasks.map (·.id)).toFinset := by
    ext id
    rw [List.mem_toFinset, List.mem_toFinset, collects.complete]
  rw [← same, List.toFinset_card_of_nodup collects.once, List.length_map]

/-- Whatever calls a store answers from the beginning on: it has each task once that was ever written,
at the place of its first write and as its last write left it. Listings are parts of this order, cut
to their limit, and tasks are counted by their identifiers. So does a table of tasks that is kept
beside their order. -/
theorem tasks_keep_their_places (calls : List (Sigma StoreCall)) :
    Collects Task.id (writtenTasks calls) (({} : MemoryStore).after calls).tasks ∧
      Listings (({} : MemoryStore).after calls) ∧
      (({} : MemoryStore).after calls).taskCount = ((writtenTasks calls).map (·.id)).toFinset.card ∧
      AnswersAs (({} : TaskTable).after calls) (({} : MemoryStore).after calls) := by
  have empty : Collects Task.id [] [] :=
    ⟨.nil, fun _ => Iff.rfl, .nil, fun _ none => nomatch none⟩
  have collects := empty.writes (writtenTasks calls)
  have tabulates : Tabulates (({} : TaskTable).after calls) (({} : MemoryStore).after calls).tasks := by
    rw [MemoryStore.after_tasks]
    exact Tabulates.after ⟨rfl, fun _ => Finmap.lookup_empty _⟩ calls
  rw [List.nil_append, ← MemoryStore.after_tasks {} calls] at collects
  exact ⟨collects, MemoryStore.listings _, collects.length_eq, tabulates.answersAs collects.once⟩

end Workflow
