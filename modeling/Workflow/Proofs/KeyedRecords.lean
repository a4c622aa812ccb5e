import Workflow.Store.Memory

/-! Records that are written under a key. Writing one leaves every other record and every key at
its place, so that what a store answers after a write follows from what it answered before. -/

namespace Workflow

section Upsert

variable {α κ : Type} [DecidableEq κ] {key : α → κ} {record : α} {records : List α}

theorem find?_upsert (key : α → κ) (record : α) (records : List α) (wanted : κ) :
    (upsert key record records).find? (fun other => key other = wanted) =
      if key record = wanted then some record
      else records.find? fun other => key other = wanted := by
  induction records with
  | nil => simp only [upsert, List.find?_singleton, List.find?_nil, decide_eq_true_eq]
  | cons first rest ih =>
    simp only [upsert]
    split
    next same =>
      by_cases selected : key record = wanted
      · simp [selected]
      · have missed : ¬ key first = wanted := fun equal => selected (same.symm.trans equal)
        simp [selected, missed]
    next different =>
      by_cases selected : key first = wanted
      · have missed : ¬ key record = wanted := fun equal => different (selected.trans equal.symm)
        simp [selected, missed]
      · simp only [List.find?_cons, selected, decide_false, ih]

theorem upsert_new (absent : key record ∉ records.map key) :
    upsert key record records = records ++ [record] := by
  induction records with
  | nil => rfl
  | cons first rest ih =>
    simp only [List.map_cons, List.mem_cons, not_or] at absent
    simp only [upsert, if_neg (Ne.symm absent.1), List.cons_append, ih absent.2]

/-- A record with a known key takes the place of the one that is found under it. -/
theorem upsert_known {old : α}
    (found : records.find? (fun other => key other = key record) = some old) :
    ∃ before after, records = before ++ old :: after ∧
      upsert key record records = before ++ record :: after := by
  induction records with
  | nil => cases found
  | cons first rest ih =>
    by_cases same : key first = key record
    · simp only [List.find?_cons, same, decide_true, Option.some.injEq] at found
      subst found
      exact ⟨[], rest, rfl, by simp [upsert, same]⟩
    · simp only [List.find?_cons, same, decide_false] at found
      obtain ⟨before, after, shape, written⟩ := ih found
      exact ⟨first :: before, after, by rw [shape, List.cons_append],
        by rw [upsert, if_neg same, written, List.cons_append]⟩

theorem map_key_upsert_known (known : key record ∈ records.map key) :
    (upsert key record records).map key = records.map key := by
  induction records with
  | nil => cases known
  | cons first rest ih =>
    simp only [upsert]
    split
    next same => simp only [List.map_cons, same]
    next different =>
      rcases List.mem_cons.mp known with equal | later
      · exact False.elim (different equal.symm)
      · simp only [List.map_cons, ih later]

theorem mem_upsert {wanted : α} (member : wanted ∈ upsert key record records) :
    wanted = record ∨ wanted ∈ records := by
  induction records with
  | nil => exact Or.inl (List.mem_singleton.mp member)
  | cons first rest ih =>
    simp only [upsert] at member
    split at member
    · rcases List.mem_cons.mp member with same | later
      · exact Or.inl same
      · exact Or.inr (List.mem_cons_of_mem _ later)
    · rcases List.mem_cons.mp member with same | later
      · exact Or.inr (same ▸ List.mem_cons_self)
      · exact (ih later).imp_right (List.mem_cons_of_mem _)

theorem upsert_map {change : α → α} (same : ∀ record, key (change record) = key record)
    (record : α) (records : List α) :
    upsert key (change record) (records.map change) = (upsert key record records).map change := by
  induction records with
  | nil => rfl
  | cons first rest ih =>
    simp only [List.map_cons, upsert, same]
    split
    · rfl
    · rw [ih, List.map_cons]

theorem nodup_upsert (distinct : (records.map key).Nodup) :
    ((upsert key record records).map key).Nodup := by
  by_cases known : key record ∈ records.map key
  · rwa [map_key_upsert_known known]
  · rw [upsert_new known, List.map_append, List.map_singleton]
    refine List.nodup_append.mpr ⟨distinct, by simp, ?_⟩
    intro other member single same equal
    exact known (equal.trans (List.mem_singleton.mp same) ▸ member)

/-- With distinct keys a record is what its own key finds. -/
theorem find?_of_mem (distinct : (records.map key).Nodup) (member : record ∈ records) :
    records.find? (fun other => key other = key record) = some record := by
  induction records with
  | nil => cases member
  | cons first rest ih =>
    simp only [List.map_cons, List.nodup_cons] at distinct
    rcases List.mem_cons.mp member with rfl | later
    · simp
    · have different : key first ≠ key record := fun same =>
        distinct.1 (same ▸ List.mem_map.mpr ⟨record, later, rfl⟩)
      simp only [List.find?_cons, different, decide_false, ih distinct.2 later]

theorem find?_key {wanted : κ}
    (found : records.find? (fun other => key other = wanted) = some record) :
    key record = wanted := by
  simpa using List.find?_some found

theorem find?_none_of_not_mem {wanted : κ} (absent : wanted ∉ records.map key) :
    records.find? (fun other => key other = wanted) = none := by
  refine List.find?_eq_none.mpr fun other member selected => absent ?_
  exact List.mem_map.mpr ⟨other, member, by simpa using selected⟩

/-- Writing what a filter leaves out, over what it left out, does not show in the filter. -/
theorem filter_upsert (keeps : α → Bool) (out : keeps record = false)
    (was : ∀ old, records.find? (fun other => key other = key record) = some old →
      keeps old = false) :
    (upsert key record records).filter keeps = records.filter keeps := by
  by_cases known : key record ∈ records.map key
  · cases found : records.find? (fun other => key other = key record) with
    | none =>
      obtain ⟨other, member, same⟩ := List.mem_map.mp known
      exact False.elim (List.find?_eq_none.mp found other member (by simpa using same))
    | some old =>
      obtain ⟨before, after, shape, written⟩ := upsert_known found
      rw [written, shape, List.filter_append, List.filter_append,
        List.filter_cons_of_neg (by simp [out]), List.filter_cons_of_neg (by simp [was old found])]
  · rw [upsert_new known, List.filter_append, List.filter_cons_of_neg (by simp [out]),
      List.filter_nil, List.append_nil]

/-- Writing what a filter lets through, over what it let through, is writing among what it lets
through. -/
theorem filter_upsert_in (keeps : α → Bool) (through : keeps record = true)
    (was : ∀ old, records.find? (fun other => key other = key record) = some old →
      keeps old = true) :
    (upsert key record records).filter keeps = upsert key record (records.filter keeps) := by
  induction records with
  | nil => simp [upsert, through]
  | cons first rest ih =>
    by_cases same : key first = key record
    · have kept : keeps first = true := was first (by simp [same])
      simp only [upsert, if_pos same, List.filter_cons_of_pos through, List.filter_cons_of_pos kept]
    · have later := ih fun old found => was old (by simpa [List.find?_cons, same] using found)
      cases kept : keeps first with
      | true => simp only [upsert, if_neg same, List.filter_cons_of_pos kept, later]
      | false =>
        have out : ¬ keeps first = true := by simp [kept]
        simp only [upsert, if_neg same, List.filter_cons_of_neg out, later]

/-- Writing what a filter leaves out, over what it may have let through, takes the old record out
of the filter. -/
theorem filter_upsert_out (keeps : α → Bool) (out : keeps record = false)
    (distinct : (records.map key).Nodup) :
    (upsert key record records).filter keeps =
      (records.filter keeps).filter fun other => key other ≠ key record := by
  induction records with
  | nil => simp [upsert, out]
  | cons first rest ih =>
    simp only [List.map_cons, List.nodup_cons] at distinct
    simp only [upsert]
    split
    next same =>
      have others : ∀ other ∈ rest.filter keeps, key other ≠ key record := by
        intro other member equal
        have known : key other ∈ rest.map key :=
          List.mem_map.mpr ⟨other, (List.mem_filter.mp member).1, rfl⟩
        exact distinct.1 (by rw [same, ← equal]; exact known)
      have kept : (rest.filter keeps).filter (fun other => key other ≠ key record) =
          rest.filter keeps := List.filter_eq_self.mpr (by simpa using others)
      rw [List.filter_cons_of_neg (by simp [out])]
      cases through : keeps first with
      | true => rw [List.filter_cons_of_pos through, List.filter_cons_of_neg (by simp [same]), kept]
      | false => rw [List.filter_cons_of_neg (by simp [through]), kept]
    next different =>
      cases through : keeps first with
      | true => simp [through, different, ih distinct.2]
      | false => simp [through, ih distinct.2]

/-- Records with new keys go to the end in the order in which they are written. -/
theorem foldl_upsert_new {added : List α} (distinct : (added.map key).Nodup)
    (absent : ∀ one ∈ added, key one ∉ records.map key) :
    added.foldl (fun records one => upsert key one records) records = records ++ added := by
  induction added generalizing records with
  | nil => simp only [List.foldl_nil, List.append_nil]
  | cons first rest ih =>
    simp only [List.map_cons, List.nodup_cons] at distinct
    rw [List.foldl_cons, upsert_new (absent first List.mem_cons_self), ih distinct.2,
      List.append_assoc, List.singleton_append]
    intro one member known
    rw [List.map_append, List.mem_append, List.map_singleton, List.mem_singleton] at known
    rcases known with old | same
    · exact absent one (List.mem_cons_of_mem _ member) old
    · exact distinct.1 (same ▸ List.mem_map.mpr ⟨one, member, rfl⟩)

theorem nodup_foldl_upsert {added : List α} (distinct : (records.map key).Nodup) :
    ((added.foldl (fun records one => upsert key one records) records).map key).Nodup := by
  induction added generalizing records with
  | nil => exact distinct
  | cons first rest ih => exact ih (nodup_upsert distinct)

theorem find?_foldl_upsert {added : List α} {wanted : κ} {old : α}
    (found : records.find? (fun other => key other = wanted) = some old) :
    ∃ one, (added.foldl (fun records one => upsert key one records) records).find?
        (fun other => key other = wanted) = some one ∧ (one ∈ added ∨ one = old) := by
  induction added generalizing records old with
  | nil => exact ⟨old, found, Or.inr rfl⟩
  | cons first rest ih =>
    have written := find?_upsert key first records wanted
    by_cases same : key first = wanted
    · rw [if_pos same] at written
      obtain ⟨one, later, origin⟩ := ih written
      refine ⟨one, later, Or.inl ?_⟩
      rcases origin with member | equal
      · exact List.mem_cons_of_mem _ member
      · exact equal ▸ List.mem_cons_self
    · rw [if_neg same, found] at written
      obtain ⟨one, later, origin⟩ := ih written
      exact ⟨one, later, origin.imp_left (List.mem_cons_of_mem _)⟩

theorem mem_foldl_upsert {added : List α} {wanted : α}
    (member : wanted ∈ added.foldl (fun records one => upsert key one records) records) :
    wanted ∈ added ∨ wanted ∈ records := by
  induction added generalizing records with
  | nil => exact Or.inr member
  | cons first rest ih =>
    rcases ih member with new | written
    · exact Or.inl (List.mem_cons_of_mem _ new)
    rcases mem_upsert written with same | old
    · exact Or.inl (same ▸ List.mem_cons_self)
    · exact Or.inr old

end Upsert

namespace MemoryStore

variable {records : MemoryStore}

private theorem saveTasks (records : MemoryStore) (tasks : List Task) :
    tasks.foldl (fun store task => store.saveTask task) records =
      { records with tasks := tasks.foldl (fun all task => upsert (·.id) task all) records.tasks } := by
  induction tasks generalizing records with
  | nil => rfl
  | cons first rest ih => rw [List.foldl_cons, ih]; rfl

@[simp] theorem commit_definitions (changes : ChangeSet) :
    (records.commit changes).definitions = records.definitions := by
  rw [commit, saveTasks]; rfl

@[simp] theorem commit_instances (changes : ChangeSet) :
    (records.commit changes).instances = upsert (·.id) changes.target records.instances := by
  rw [commit, saveTasks]; rfl

theorem commit_tasks (changes : ChangeSet) :
    (records.commit changes).tasks =
      changes.tasks.foldl (fun all task => upsert (·.id) task all) records.tasks := by
  rw [commit, saveTasks]; rfl

theorem mem_commit_tasks {changes : ChangeSet} {task : Task}
    (member : task ∈ (records.commit changes).tasks) :
    task ∈ changes.tasks ∨ task ∈ records.tasks := by
  rw [commit_tasks] at member
  exact mem_foldl_upsert member

theorem definition?_saveDefinition (definition : Definition) (id : Uuid) :
    (records.saveDefinition definition).definition? id =
      if definition.id = id then some definition else records.definition? id :=
  find?_upsert _ _ _ _

@[simp] theorem definition?_commit (changes : ChangeSet) (id : Uuid) :
    (records.commit changes).definition? id = records.definition? id := by
  rw [definition?, commit_definitions, definition?]

theorem instance?_commit (changes : ChangeSet) (id : Uuid) :
    (records.commit changes).instance? id =
      if changes.target.id = id then some changes.target else records.instance? id := by
  rw [instance?, commit_instances, find?_upsert, instance?]

theorem task?_commit (changes : ChangeSet) {id : Uuid} {old : Task}
    (found : records.task? id = some old) :
    ∃ new, (records.commit changes).task? id = some new ∧ (new ∈ changes.tasks ∨ new = old) := by
  rw [task?, commit_tasks]
  exact find?_foldl_upsert found

theorem commit_tasks_new {target : Instance} {task : Task} {added : List Task}
    (distinct : (added.map (·.id)).Nodup)
    (absent : ∀ one ∈ added, one.id ∉ records.tasks.map (·.id) ∧ one.id ≠ task.id) :
    (records.commit { target, tasks := task :: added }).tasks =
      upsert (·.id) task records.tasks ++ added := by
  rw [commit_tasks, List.foldl_cons, foldl_upsert_new distinct]
  intro one member known
  obtain ⟨other, written, same⟩ := List.mem_map.mp known
  rcases mem_upsert written with rfl | old
  · exact (absent one member).2 same.symm
  · exact (absent one member).1 (List.mem_map.mpr ⟨other, old, same⟩)

theorem instance?_id {id : Uuid} {target : Instance} (found : records.instance? id = some target) :
    target.id = id :=
  find?_key found

theorem task?_id {id : Uuid} {task : Task} (found : records.task? id = some task) : task.id = id :=
  find?_key found

theorem definition?_id {id : Uuid} {definition : Definition}
    (found : records.definition? id = some definition) : definition.id = id :=
  find?_key found

theorem mem_of_instance? {id : Uuid} {target : Instance}
    (found : records.instance? id = some target) : target ∈ records.instances :=
  List.mem_of_find?_eq_some found

theorem mem_of_task? {id : Uuid} {task : Task} (found : records.task? id = some task) :
    task ∈ records.tasks :=
  List.mem_of_find?_eq_some found

theorem mem_of_definition? {id : Uuid} {definition : Definition}
    (found : records.definition? id = some definition) : definition ∈ records.definitions :=
  List.mem_of_find?_eq_some found

theorem pendingTasks_eq (records : MemoryStore) (id : Uuid) :
    records.pendingTasks id = (records.tasksOf id).filter Task.isPending := by
  rw [pendingTasks, tasksOf, List.filter_filter]
  exact List.filter_congr fun task _ => Bool.and_comm _ _

/-- A commit that only writes tasks of its own instance. -/
structure Confined (records : MemoryStore) (changes : ChangeSet) : Prop where
  own : ∀ task ∈ changes.tasks, task.instanceId = changes.target.id
  was : ∀ task ∈ changes.tasks, ∀ old, records.task? task.id = some old →
    old.instanceId = changes.target.id

/-- Every task that is stored still has its instance beside it. -/
theorem Confined.housed {changes : ChangeSet} (confined : records.Confined changes)
    (housed : ∀ task ∈ records.tasks, (records.instance? task.instanceId).isSome = true) :
    ∀ task ∈ (records.commit changes).tasks,
      ((records.commit changes).instance? task.instanceId).isSome = true := by
  intro task member
  rw [instance?_commit]
  rcases mem_commit_tasks member with new | old
  · rw [if_pos (confined.own task new).symm]
    rfl
  · split
    · rfl
    · exact housed task old

theorem tasksOf_commit_other {changes : ChangeSet} {id : Uuid} (confined : records.Confined changes)
    (different : changes.target.id ≠ id) : (records.commit changes).tasksOf id = records.tasksOf id := by
  have other : ∀ task ∈ changes.tasks, task.instanceId ≠ id := by
    intro task member same
    exact different ((confined.own task member).symm.trans same)
  have was : ∀ task ∈ changes.tasks, ∀ old, records.task? task.id = some old →
      old.instanceId ≠ id := by
    intro task member old found same
    exact different ((confined.was task member old found).symm.trans same)
  simp only [tasksOf, commit_tasks, task?] at was ⊢
  generalize changes.tasks = written at other was
  generalize records.tasks = tasks at was ⊢
  clear confined
  induction written generalizing tasks with
  | nil => rfl
  | cons first rest ih =>
    have out : decide (first.instanceId = id) = false :=
      decide_eq_false (other first List.mem_cons_self)
    rw [List.foldl_cons, ih (fun task member => other task (List.mem_cons_of_mem _ member))]
    · refine filter_upsert _ out fun old found => decide_eq_false ?_
      exact was first List.mem_cons_self old found
    · intro task member old found
      rw [find?_upsert] at found
      split at found
      · cases found
        exact other first List.mem_cons_self
      · exact was task (List.mem_cons_of_mem _ member) old found

/-- The tasks of the instance that is written follow from what they were, whatever else is stored. -/
theorem tasksOf_commit_own {changes : ChangeSet} (confined : records.Confined changes) :
    (records.commit changes).tasksOf changes.target.id =
      changes.tasks.foldl (fun all task => upsert (·.id) task all)
        (records.tasksOf changes.target.id) := by
  obtain ⟨own, was⟩ := confined
  simp only [tasksOf, commit_tasks, task?] at was ⊢
  generalize changes.tasks = written at own was
  generalize records.tasks = tasks at was ⊢
  induction written generalizing tasks with
  | nil => rfl
  | cons first rest ih =>
    have here : first.instanceId = changes.target.id := own first List.mem_cons_self
    rw [List.foldl_cons, List.foldl_cons, ih (fun task member => own task (List.mem_cons_of_mem _ member))]
    · congr 1
      refine filter_upsert_in _ (decide_eq_true here) fun old found => decide_eq_true ?_
      exact was first List.mem_cons_self old found
    · intro task member old found
      rw [find?_upsert] at found
      split at found
      · cases found
        exact here
      · exact was task (List.mem_cons_of_mem _ member) old found

theorem pendingTasks_commit_other {changes : ChangeSet} {id : Uuid}
    (confined : records.Confined changes) (different : changes.target.id ≠ id) :
    (records.commit changes).pendingTasks id = records.pendingTasks id := by
  rw [pendingTasks_eq, tasksOf_commit_other confined different, pendingTasks_eq]

theorem task?_commit_other {changes : ChangeSet} {id : Uuid}
    (other : id ∉ changes.tasks.map (·.id)) :
    (records.commit changes).task? id = records.task? id := by
  simp only [task?, commit_tasks]
  generalize changes.tasks = written at other
  generalize records.tasks = tasks
  induction written generalizing tasks with
  | nil => rfl
  | cons first rest ih =>
    simp only [List.map_cons, List.mem_cons, not_or] at other
    rw [List.foldl_cons, ih other.2, find?_upsert, if_neg (Ne.symm other.1)]

theorem mem_pendingTasks {id : Uuid} {task : Task} :
    task ∈ records.pendingTasks id ↔
      task ∈ records.tasks ∧ task.instanceId = id ∧ task.isPending = true := by
  rw [pendingTasks, List.mem_filter, Bool.and_eq_true, decide_eq_true_eq]

end MemoryStore

end Workflow
