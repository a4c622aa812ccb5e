import Workflow.Proofs.Histories
import Workflow.Proofs.WellFormed

/-! The invariant of stored records. It ties the three tables to each other: instances to valid,
active definitions, tasks to steps of their definitions, and the pending steps of an instance to
its pending tasks. Every effect of a call keeps it, as long as new identifiers are new. -/

namespace Workflow

structure Balances (records : MemoryStore) (target : Instance) : Prop where
  pending : target.pendingSteps = (records.pendingTasks target.id).map (·.stepId)
  completed : target.status = .completed ↔ target.pendingSteps = []
  dated : target.completedAt.isSome = true ↔ target.status = .completed

/-- A task says by whom and when it was completed once it is, and has no data before. -/
structure Settled (task : Task) : Prop where
  completedBy : task.completedBy.isSome = true ↔ task.status = .completed
  completedAt : task.completedAt.isSome = true ↔ task.status = .completed
  data : task.status = .pending → task.data = []

/-- A task is for a step of the definition of its instance, and owned as the step's rule says. -/
inductive Placed (permits : Moment → Prop) (records : MemoryStore) (task : Task) : Prop where
  | intro (target : Instance) (definition : Definition) (step : Step) (data : Json.Members)
      (acting : String) (housed : records.instance? task.instanceId = some target)
      (defined : records.definition? target.definitionId = some definition)
      (found : definition.step? task.stepId = some step) (makes : step.kind.createsTask = true)
      (owned : Resolves permits data acting step.assign ⟨task.assignee, task.assignedRole⟩)

structure Sound (permits : Moment → Prop) (records : MemoryStore) : Prop where
  definitions : (records.definitions.map (·.id)).Nodup
  instances : (records.instances.map (·.id)).Nodup
  tasks : (records.tasks.map (·.id)).Nodup
  valid : ∀ definition ∈ records.definitions, definition.validate.isOk = true
  governed : ∀ target ∈ records.instances, ∃ definition,
    records.definition? target.definitionId = some definition ∧ definition.status = .active
  placed : ∀ task ∈ records.tasks, Placed permits records task
  settled : ∀ task ∈ records.tasks, Settled task
  balanced : ∀ target ∈ records.instances, Balances records target

/-- Identifiers that no instance and no task has, each of them once. -/
structure Fresh (records : MemoryStore) (ids : List Uuid) : Prop where
  distinct : ids.Nodup
  instances : ∀ id ∈ ids, id ∉ records.instances.map (·.id)
  tasks : ∀ id ∈ ids, id ∉ records.tasks.map (·.id)

variable {permits : Moment → Prop} {records : MemoryStore}

theorem Sound.empty : Sound permits {} where
  definitions := List.nodup_nil
  instances := List.nodup_nil
  tasks := List.nodup_nil
  valid _ member := nomatch member
  governed _ member := nomatch member
  placed _ member := nomatch member
  settled _ member := nomatch member
  balanced _ member := nomatch member

theorem Resolves.owned {data : Json.Members} {acting : String} {rule : Option AssignmentRule}
    {assignment : Assignment} (resolves : Resolves permits data acting rule assignment) :
    assignment.principal.isSome = true ∨ assignment.role.isSome = true := by
  cases resolves with
  | unruled => exact Or.inl rfl
  | direct => exact Or.inl rfl
  | role => exact Or.inr rfl
  | acting => exact Or.inl rfl

theorem Creates.mem {target : Instance} {acting : String} {now : Timestamp}
    {arrivals : List Arrival} {tasks : List Task}
    (creates : Creates permits target acting now arrivals tasks) {task : Task}
    (member : task ∈ tasks) :
    ∃ step assignment, .step step ∈ arrivals ∧
      Resolves permits target.data acting step.assign assignment ∧
      task = Task.make task.id target step assignment now := by
  induction creates with
  | nil => cases member
  | cons resolved later ih =>
    rcases List.mem_cons.mp member with same | later
    · exact ⟨_, _, List.mem_cons_self, resolved, by rw [same]; rfl⟩
    · obtain ⟨step, assignment, arrived, resolved, made⟩ := ih later
      exact ⟨step, assignment, List.mem_cons_of_mem _ arrived, resolved, made⟩

theorem settled_make {id : Uuid} {target : Instance} {step : Step} {assignment : Assignment}
    {now : Timestamp} : Settled (Task.make id target step assignment now) :=
  ⟨by simp [Task.make], by simp [Task.make], fun _ => rfl⟩

theorem settled_complete {task : Task} {data : Json.Members} {principal : String}
    {now : Timestamp} : Settled (task.complete data principal now) :=
  ⟨by simp [Task.complete], by simp [Task.complete], fun pending => by cases pending⟩

/-- The account of an instance stays right when another one is written. -/
theorem Balances.commit_other {target : Instance} (before : Balances records target)
    {changes : ChangeSet} (confined : records.Confined changes)
    (different : changes.target.id ≠ target.id) : Balances (records.commit changes) target where
  pending := by
    rw [MemoryStore.pendingTasks_commit_other confined different]
    exact before.pending
  completed := before.completed
  dated := before.dated

namespace Sound

/-- Writing a definition under a new identifier, or one that changes nothing that its instances
rely on. -/
theorem saveDefinition (sound : Sound permits records) {definition : Definition}
    (valid : definition.validate.isOk = true)
    (kept : ∀ old, records.definition? definition.id = some old →
      definition.status = .active ∧ definition.steps = old.steps) :
    Sound permits (records.saveDefinition definition) where
  definitions := nodup_upsert sound.definitions
  instances := sound.instances
  tasks := sound.tasks
  valid other member := by
    rcases mem_upsert member with same | old
    · rw [same]
      exact valid
    · exact sound.valid other old
  governed target member := by
    obtain ⟨old, found, active⟩ := sound.governed target member
    rw [MemoryStore.definition?_saveDefinition]
    split
    next same => exact ⟨definition, rfl, (kept old (same ▸ found)).1⟩
    next => exact ⟨old, found, active⟩
  placed task member := by
    obtain ⟨target, old, step, data, acting, housed, defined, found, makes, owned⟩ :=
      sound.placed task member
    by_cases same : definition.id = target.definitionId
    · have steps := (kept old (same ▸ defined)).2
      refine .intro target definition step data acting housed ?_ ?_ makes owned
      · rw [MemoryStore.definition?_saveDefinition, if_pos same]
      · rw [Definition.step?, steps]
        exact found
    · refine .intro target old step data acting housed ?_ found makes owned
      rw [MemoryStore.definition?_saveDefinition, if_neg same]
      exact defined
  settled := sound.settled
  balanced target member :=
    have before := sound.balanced target member
    ⟨before.pending, before.completed, before.dated⟩

/-- Writing an instance that keeps its definition, and tasks of it that keep their instance. -/
theorem commit (sound : Sound permits records) {changes : ChangeSet}
    (governed : ∃ definition, records.definition? changes.target.definitionId = some definition ∧
      definition.status = .active)
    (kept : ∀ old, records.instance? changes.target.id = some old →
      old.definitionId = changes.target.definitionId)
    (confined : records.Confined changes)
    (placed : ∀ task ∈ changes.tasks, Placed permits (records.commit changes) task)
    (settled : ∀ task ∈ changes.tasks, Settled task)
    (balanced : Balances (records.commit changes) changes.target) :
    Sound permits (records.commit changes) where
  definitions := by
    rw [MemoryStore.commit_definitions]
    exact sound.definitions
  instances := by
    rw [MemoryStore.commit_instances]
    exact nodup_upsert sound.instances
  tasks := by
    rw [MemoryStore.commit_tasks]
    exact nodup_foldl_upsert sound.tasks
  valid := by
    rw [MemoryStore.commit_definitions]
    exact sound.valid
  governed target member := by
    rw [MemoryStore.definition?_commit]
    rw [MemoryStore.commit_instances] at member
    rcases mem_upsert member with same | old
    · rw [same]
      exact governed
    · exact sound.governed target old
  placed task member := by
    rcases MemoryStore.mem_commit_tasks member with new | old
    · exact placed task new
    obtain ⟨target, definition, step, data, acting, housed, defined, found, makes, owned⟩ :=
      sound.placed task old
    by_cases same : changes.target.id = task.instanceId
    · rw [← same] at housed
      rw [kept target housed] at defined
      refine .intro changes.target definition step data acting ?_ ?_ found makes owned
      · rw [MemoryStore.instance?_commit, if_pos same]
      · rw [MemoryStore.definition?_commit]
        exact defined
    · refine .intro target definition step data acting ?_ ?_ found makes owned
      · rw [MemoryStore.instance?_commit, if_neg same]
        exact housed
      · rw [MemoryStore.definition?_commit]
        exact defined
  settled task member := by
    rcases MemoryStore.mem_commit_tasks member with new | old
    · exact settled task new
    · exact sound.settled task old
  balanced target member := by
    rw [MemoryStore.commit_instances] at member
    have found := find?_of_mem (nodup_upsert sound.instances) member
    rw [find?_upsert] at found
    split at found
    next same =>
      cases found
      exact balanced
    next different =>
      exact (sound.balanced target (List.mem_of_find?_eq_some found)).commit_other confined different

theorem instance?_of_mem (sound : Sound permits records) {target : Instance}
    (member : target ∈ records.instances) : records.instance? target.id = some target :=
  find?_of_mem sound.instances member

theorem formed (sound : Sound permits records) {id : Uuid} {definition : Definition}
    (found : records.definition? id = some definition) : definition.WellFormed :=
  Definition.wellFormed_of_isOk (sound.valid definition (MemoryStore.mem_of_definition? found))

theorem tasksOf_unknown (sound : Sound permits records) {id : Uuid}
    (absent : records.instance? id = none) : records.tasksOf id = [] := by
  refine List.filter_eq_nil_iff.mpr fun task member => ?_
  obtain ⟨target, _, _, _, _, housed, _⟩ := sound.placed task member
  simp only [decide_eq_true_eq]
  intro same
  rw [same, absent] at housed
  cases housed

end Sound

namespace Beginning

variable {id : Uuid} {data : Json.Members} {startedBy : String}
  (begun : Beginning permits records id data startedBy)

theorem isActive : begun.definition.status = .active := by
  simpa [Definition.isActive] using begun.active

theorem located : begun.definition.step? begun.step.id = some begun.step := by
  have placed := begun.placed
  rw [Definition.startStep?, ← Definition.step?_id placed] at placed
  exact placed

theorem makes (sound : Sound permits records) : begun.step.kind.createsTask = true := by
  obtain ⟨start, placed, makes⟩ := (sound.formed begun.found).started
  cases begun.placed.symm.trans placed
  exact makes

theorem defined : records.definition? begun.target.definitionId = some begun.definition := by
  have same : begun.target.definitionId = id := MemoryStore.definition?_id begun.found
  rw [same]
  exact begun.found

theorem housed_after :
    (records.commit begun.changes).instance? begun.id = some begun.target :=
  (MemoryStore.instance?_commit _ _).trans (if_pos rfl)

theorem defined_after : (records.commit begun.changes).definition? begun.target.definitionId =
    some begun.definition := by
  rw [MemoryStore.definition?_commit]
  exact begun.defined

theorem unknown (fresh : Fresh records [begun.taskId, begun.id]) :
    records.instance? begun.id = none :=
  find?_none_of_not_mem (fresh.instances begun.id (by simp))

theorem confined (fresh : Fresh records [begun.taskId, begun.id]) :
    records.Confined begun.changes where
  own task member := by
    rw [List.mem_singleton.mp member]
    rfl
  was task member old stored := by
    have unused : records.task? begun.taskId = none :=
      find?_none_of_not_mem (fresh.tasks begun.taskId (by simp))
    rw [List.mem_singleton.mp member] at stored
    cases unused.symm.trans stored

theorem tasks_after (fresh : Fresh records [begun.taskId, begun.id]) :
    (records.commit begun.changes).tasks = records.tasks ++ [begun.task] := by
  rw [MemoryStore.commit_tasks]
  exact upsert_new (fresh.tasks begun.taskId (by simp))

theorem pendingTasks_begun (none : records.tasksOf begun.id = [])
    (fresh : Fresh records [begun.taskId, begun.id]) :
    (records.commit begun.changes).pendingTasks begun.id = [begun.task] := by
  have none : records.tasks.filter (fun task => task.instanceId = begun.id) = [] := none
  rw [MemoryStore.pendingTasks_eq, MemoryStore.tasksOf, begun.tasks_after fresh,
    List.filter_append, none]
  simp [task, Task.make, Task.isPending, target, Instance.begin]

theorem pendingTasks_after (sound : Sound permits records)
    (fresh : Fresh records [begun.taskId, begun.id]) :
    (records.commit begun.changes).pendingTasks begun.id = [begun.task] :=
  begun.pendingTasks_begun (sound.tasksOf_unknown (begun.unknown fresh)) fresh

theorem balances (none : records.tasksOf begun.id = [])
    (fresh : Fresh records [begun.taskId, begun.id]) :
    Balances (records.commit begun.changes) begun.changes.target where
  pending := by
    have pending := begun.pendingTasks_begun none fresh
    exact congrArg (List.map (·.stepId)) pending.symm
  completed := by simp [changes, target, Instance.begin]
  dated := by simp [changes, target, Instance.begin]

end Beginning

theorem Sound.begun (sound : Sound permits records) {id : Uuid} {data : Json.Members}
    {startedBy : String} (begun : Beginning permits records id data startedBy)
    (fresh : Fresh records [begun.taskId, begun.id]) :
    Sound permits (records.commit begun.changes) := by
  have none := sound.tasksOf_unknown (begun.unknown fresh)
  refine sound.commit ⟨begun.definition, begun.defined, begun.isActive⟩ ?_ (begun.confined fresh) ?_ ?_
    (begun.balances none fresh)
  · intro old stored
    cases (begun.unknown fresh).symm.trans stored
  · intro task member
    rw [List.mem_singleton.mp member]
    exact .intro begun.target begun.definition begun.step data startedBy begun.housed_after
      begun.defined_after begun.located (begun.makes sound) begun.resolved
  · intro task member
    rw [List.mem_singleton.mp member]
    exact settled_make

namespace Instance

variable {target : Instance} {steps : List String} {now : Timestamp}

@[simp] theorem withPending_id : (target.withPending steps now).id = target.id := by
  unfold withPending
  split <;> rfl

@[simp] theorem withPending_definitionId :
    (target.withPending steps now).definitionId = target.definitionId := by
  unfold withPending
  split <;> rfl

@[simp] theorem withPending_pendingSteps : (target.withPending steps now).pendingSteps = steps := by
  unfold withPending
  split <;> rfl

theorem withPending_completed (running : target.status ≠ .completed) :
    (target.withPending steps now).status = .completed ↔
      (target.withPending steps now).pendingSteps = [] := by
  unfold withPending
  cases steps with
  | nil => exact ⟨fun _ => rfl, fun _ => rfl⟩
  | cons first rest => exact ⟨fun completed => absurd completed running, fun empty => nomatch empty⟩

theorem withPending_completedAt
    (dated : target.completedAt.isSome = true ↔ target.status = .completed) :
    (target.withPending steps now).completedAt.isSome = true ↔
      (target.withPending steps now).status = .completed := by
  unfold withPending
  split
  · exact ⟨fun _ => rfl, fun _ => rfl⟩
  · exact dated

end Instance

namespace Completion

variable {id : Uuid} {data : Json.Members} {principal : String}
  (done : Completion permits records id data principal)

@[simp] theorem changes_id : done.changes.target.id = done.target.id := Instance.withPending_id

@[simp] theorem changes_definitionId :
    done.changes.target.definitionId = done.target.definitionId :=
  Instance.withPending_definitionId

theorem target_id : done.target.id = done.task.instanceId :=
  done.advances.located.symm

theorem task_id : done.task.id = id :=
  MemoryStore.task?_id done.found

theorem housed_after :
    (records.commit done.changes).instance? done.target.id = some done.changes.target := by
  rw [MemoryStore.instance?_commit, if_pos done.changes_id]

theorem defined_after : (records.commit done.changes).definition? done.changes.target.definitionId =
    some done.definition := by
  rw [MemoryStore.definition?_commit, done.changes_definitionId]
  exact done.defined

def remaining : List Task :=
  (records.pendingTasks done.target.id).filter
    (fun task => task.id ≠ done.task.id ∧ task.isPending) ++ done.created

theorem created_pending {task : Task} (member : task ∈ done.created) :
    task.instanceId = done.target.id ∧ task.isPending = true := by
  obtain ⟨step, assignment, _, _, made⟩ := done.advances.creates.mem member
  rw [made]
  exact ⟨rfl, rfl⟩

theorem created_distinct (fresh : Fresh records done.ids) : (done.created.map (·.id)).Nodup :=
  (List.reverse_perm _).nodup_iff.mp fresh.distinct

theorem created_new (fresh : Fresh records done.ids) {task : Task} (member : task ∈ done.created) :
    task.id ∉ records.tasks.map (·.id) :=
  fresh.tasks task.id (List.mem_reverse.mpr (List.mem_map.mpr ⟨task, member, rfl⟩))

theorem forall_written {holds : Task → Prop}
    (first : holds (done.task.complete data principal done.now))
    (rest : ∀ task ∈ done.created, holds task) : ∀ task ∈ done.changes.tasks, holds task := by
  intro task member
  rcases List.mem_cons.mp member with same | created
  · exact same ▸ first
  · exact rest task created

theorem confined (fresh : Fresh records done.ids) : records.Confined done.changes where
  own := by
    rw [done.changes_id]
    exact done.forall_written done.target_id.symm fun task member => (done.created_pending member).1
  was := by
    rw [done.changes_id]
    refine done.forall_written ?_ ?_
    · intro old found
      have same : records.task? done.task.id = some old := found
      rw [done.task_id, done.found] at same
      rw [← Option.some.inj same, done.target_id]
    · intro task member old found
      cases (find?_none_of_not_mem (done.created_new fresh member)).symm.trans found

theorem tasks_after (fresh : Fresh records done.ids) :
    (records.commit done.changes).tasks =
      upsert (·.id) (done.task.complete data principal done.now) records.tasks ++
        done.created := by
  apply MemoryStore.commit_tasks_new (done.created_distinct fresh)
  intro one member
  refine ⟨done.created_new fresh member, fun same => done.created_new fresh member ?_⟩
  rw [same]
  exact List.mem_map.mpr ⟨done.task, MemoryStore.mem_of_task? done.found, rfl⟩

theorem pendingTasks_after (distinct : (records.tasks.map (·.id)).Nodup)
    (fresh : Fresh records done.ids) :
    (records.commit done.changes).pendingTasks done.target.id = done.remaining := by
  let keeps : Task → Bool := fun task => task.instanceId = done.target.id && task.isPending
  have out : keeps (done.task.complete data principal done.now) = false := by
    simp [keeps, Task.complete, Task.isPending]
  have created : done.created.filter keeps = done.created := by
    refine List.filter_eq_self.mpr fun task member => ?_
    obtain ⟨same, pending⟩ := done.created_pending member
    simp [keeps, same, pending]
  have others : (records.tasks.filter keeps).filter (fun task => task.id ≠ done.task.id) =
      (records.tasks.filter keeps).filter
        (fun task => task.id ≠ done.task.id ∧ task.isPending) := by
    refine List.filter_congr fun task member => ?_
    have pending := (MemoryStore.mem_pendingTasks.mp member).2.2
    simp [pending]
  change (records.commit done.changes).tasks.filter keeps = _
  rw [done.tasks_after fresh, List.filter_append, created, filter_upsert_out keeps out distinct]
  exact congrArg (· ++ done.created) others

theorem balances (distinct : (records.tasks.map (·.id)).Nodup) (fresh : Fresh records done.ids)
    (before : Balances records done.target) :
    Balances (records.commit done.changes) done.changes.target where
  pending := by
    rw [done.changes_id, done.pendingTasks_after distinct fresh]
    exact Instance.withPending_pendingSteps
  completed := by
    refine Instance.withPending_completed ?_
    simpa [Instance.isCompleted] using done.advances.running
  dated := Instance.withPending_completedAt before.dated

end Completion

theorem Sound.completed (sound : Sound permits records) {id : Uuid} {data : Json.Members}
    {principal : String} (done : Completion permits records id data principal)
    (fresh : Fresh records done.ids) : Sound permits (records.commit done.changes) := by
  have housed : records.instance? done.target.id = some done.target := by
    rw [done.target_id]
    exact done.housed
  have stored := MemoryStore.mem_of_instance? housed
  refine sound.commit ?_ ?_ (done.confined fresh) ?_ ?_
    (done.balances sound.tasks fresh (sound.balanced done.target stored))
  · rw [done.changes_definitionId]
    exact sound.governed done.target stored
  · intro old found
    rw [done.changes_id, housed] at found
    rw [done.changes_definitionId, Option.some.inj found]
  · refine done.forall_written ?_ ?_
    · obtain ⟨target, definition, step, acquired, acting, held, defined, found, makes, owned⟩ :=
        sound.placed done.task (MemoryStore.mem_of_task? done.found)
      cases done.housed.symm.trans held
      cases done.defined.symm.trans defined
      refine .intro done.changes.target done.definition step acquired acting ?_ done.defined_after found
        makes owned
      rw [← done.housed_after, done.target_id]
      rfl
    · intro task member
      obtain ⟨step, assignment, arrived, resolved, made⟩ := done.advances.creates.mem member
      obtain ⟨_, same, found, makes⟩ := (sound.formed done.defined).mem_arrivals
        (Definition.mem_of_step? done.advances.placed) arrived
      cases same
      rw [made]
      exact .intro done.changes.target done.definition step _ principal done.housed_after done.defined_after
        found makes resolved
  · refine done.forall_written settled_complete fun task member => ?_
    obtain ⟨step, assignment, _, _, made⟩ := done.advances.creates.mem member
    rw [made]
    exact settled_make

/-- Every effect of a call keeps the records sound. -/
theorem Effect.sound {α : Type} {call : EngineCall α} {value : α} {drawn : List Uuid}
    {after : MemoryStore} (effect : Effect permits records call value drawn after)
    (sound : Sound permits records) (fresh : Fresh records drawn) : Sound permits after := by
  cases effect with
  | read _ => exact sound
  | defined valid _ unused =>
    refine sound.saveDefinition valid ?_
    intro old found
    cases unused.symm.trans found
  | @activated id definition found draft =>
    have valid := sound.valid definition (MemoryStore.mem_of_definition? found)
    refine sound.saveDefinition valid ?_
    intro old same
    have known : records.definition? _ = some old := same
    rw [MemoryStore.definition?_id found, found] at known
    cases known
    exact ⟨rfl, rfl⟩
  | begun begun => exact sound.begun begun fresh
  | completed done => exact sound.completed done fresh

structure Accounted (records : MemoryStore) (drawn : List Uuid) : Prop where
  instances : ∀ id ∈ records.instances.map (·.id), id ∈ drawn
  tasks : ∀ id ∈ records.tasks.map (·.id), id ∈ drawn

theorem Accounted.fresh {drawn new : List Uuid} (accounted : Accounted records drawn)
    (distinct : (new ++ drawn).Nodup) : Fresh records new := by
  obtain ⟨apart, _, disjoint⟩ := List.nodup_append.mp distinct
  exact ⟨apart, fun id member known => disjoint id member id (accounted.instances id known) rfl,
    fun id member known => disjoint id member id (accounted.tasks id known) rfl⟩

theorem Accounted.commit {drawn new : List Uuid} (accounted : Accounted records drawn)
    {changes : ChangeSet}
    (target : changes.target.id ∈ new ∨ changes.target.id ∈ records.instances.map (·.id))
    (tasks : ∀ task ∈ changes.tasks, task.id ∈ new ∨ task.id ∈ records.tasks.map (·.id)) :
    Accounted (records.commit changes) (new ++ drawn) where
  instances id member := by
    rw [MemoryStore.commit_instances] at member
    obtain ⟨stored, written, rfl⟩ := List.mem_map.mp member
    apply List.mem_append.mpr
    rcases mem_upsert written with rfl | old
    · exact target.imp_right (accounted.instances _)
    · exact Or.inr (accounted.instances _ (List.mem_map.mpr ⟨stored, old, rfl⟩))
  tasks id member := by
    obtain ⟨task, written, rfl⟩ := List.mem_map.mp member
    apply List.mem_append.mpr
    rcases MemoryStore.mem_commit_tasks written with new | old
    · exact (tasks task new).imp_right (accounted.tasks _)
    · exact Or.inr (accounted.tasks _ (List.mem_map.mpr ⟨task, old, rfl⟩))

theorem Effect.accounted {α : Type} {call : EngineCall α} {value : α} {new drawn : List Uuid}
    {after : MemoryStore} (effect : Effect permits records call value new after)
    (accounted : Accounted records drawn) : Accounted after (new ++ drawn) := by
  cases effect with
  | read _ => exact accounted
  | defined _ _ _ => exact ⟨accounted.instances, accounted.tasks⟩
  | activated _ _ => exact ⟨accounted.instances, accounted.tasks⟩
  | begun begun =>
    apply accounted.commit (Or.inl (List.mem_cons_of_mem _ List.mem_cons_self))
    intro task member
    rw [List.mem_singleton.mp member]
    exact Or.inl List.mem_cons_self
  | completed done =>
    refine accounted.commit (Or.inr ?_) ?_
    · rw [done.changes_id]
      exact List.mem_map.mpr ⟨done.target, MemoryStore.mem_of_instance? done.housed, rfl⟩
    · intro task member
      rcases List.mem_cons.mp member with same | created
      · rw [same]
        exact Or.inr (List.mem_map.mpr ⟨done.task, MemoryStore.mem_of_task? done.found, rfl⟩)
      · exact Or.inl (List.mem_reverse.mpr (List.mem_map.mpr ⟨task, created, rfl⟩))

/-- The records of a world are sound, and what it drew accounts for them. -/
structure World.Sound (permits : Moment → Prop) (world : World) : Prop where
  records : Workflow.Sound permits world.records
  accounted : Accounted world.records world.drawn

theorem World.Sound.perform {world : World} (sound : world.Sound permits) (attempt : Attempt)
    (within : attempt.Within permits) (fresh : (world.perform attempt).2.drawn.Nodup) :
    (world.perform attempt).2.Sound permits := by
  have serves := world.perform_serves attempt within
  cases result : (world.perform attempt).1 with
  | error failure =>
    rw [result] at serves
    have same : (world.perform attempt).2.records = world.records := serves
    obtain ⟨drawn, grown⟩ := world.drawn_perform attempt
    refine ⟨same ▸ sound.records, ?_⟩
    rw [same, grown]
    exact ⟨fun id member => List.mem_append_right _ (sound.accounted.instances id member),
      fun id member => List.mem_append_right _ (sound.accounted.tasks id member)⟩
  | ok value =>
    rw [result] at serves
    obtain ⟨new, grown, effect⟩ := serves
    rw [grown] at fresh
    refine ⟨effect.sound sound.records (sound.accounted.fresh fresh), ?_⟩
    rw [grown]
    exact effect.accounted sound.accounted

theorem Reachable.sound {world : World} (reached : Reachable permits world) :
    world.Sound permits := by
  induction reached with
  | empty => exact ⟨.empty, fun _ member => (nomatch member), fun _ member => nomatch member⟩
  | perform _ attempt within fresh ih => exact ih.perform attempt within fresh

/-- In every reachable world instances keep the right account of their tasks, and tasks say by whom
and when they were completed once they are. -/
theorem reachable_accounts_agree {world : World} (reached : Reachable permits world) :
    (∀ target ∈ world.records.instances, Balances world.records target) ∧
      ∀ task ∈ world.records.tasks, Settled task :=
  ⟨reached.sound.records.balanced, reached.sound.records.settled⟩

/-- Once the first task of an article is completed, its instance accounts for the two that follow. -/
theorem article_accounts_agree :
    (({} : World).after articleForks).records.instances.map (·.pendingSteps) =
        [["review", "print"]] ∧
      (∀ target ∈ (({} : World).after articleForks).records.instances,
        Balances (({} : World).after articleForks).records target) ∧
      ∀ task ∈ (({} : World).after articleForks).records.tasks, Settled task :=
  ⟨by decide, reachable_accounts_agree (@article_forks (fun _ => True) fun _ _ => trivial)⟩

end Workflow
