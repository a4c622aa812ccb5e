import Workflow.Proofs.Soundness

/-! How a completion ends. In a reachable world the stored task, the principal and the directory
decide it: the checks of the engine for records that do not fit together never fail there. -/

namespace Workflow

open World

/-- A moment without failures in which a directory says who holds a role. -/
structure Healthy (holds : String → String → Bool) (moment : Moment) : Prop where
  store : moment.fault = none
  holders : ∀ role, ∃ principals, moment.holders role = .ok principals
  hasRole : ∀ principal role, moment.hasRole principal role = .ok (holds principal role)

theorem Healthy.not_met {holds : String → String → Bool} {failure : Failure} :
    ¬ Met (Healthy holds) failure := by
  intro met
  cases met with
  | store healthy fault => exact nomatch healthy.store.symm.trans fault
  | holders healthy reply =>
    obtain ⟨principals, listed⟩ := healthy.holders _
    cases listed.symm.trans reply
  | hasRole healthy reply => exact nomatch (healthy.hasRole _ _).symm.trans reply

/-- A principal may complete a task as its assignee or as a holder of its role. -/
def Entitled (holds : String → String → Bool) (task : Task) (principal : String) : Prop :=
  task.assignee = some principal ∨
    ∃ role, task.assignedRole = some role ∧ holds principal role = true

inductive Fits (records : MemoryStore) (task : Task) : Prop where
  | intro (target : Instance) (definition : Definition) (step : Step)
      (housed : records.instance? task.instanceId = some target)
      (defined : records.definition? target.definitionId = some definition)
      (running : target.status = .running)
      (located : task.instanceId = target.id ∧ target.definitionId = definition.id)
      (found : definition.step? task.stepId = some step)
      (leads : ∀ data, ∀ arrival ∈ definition.arrivals data step, ∃ next, arrival = .step next)

variable {past permits : Moment → Prop} {holds : String → String → Bool} {records : MemoryStore}
  {task : Task}

namespace Sound

theorem running (sound : Sound past records) (stored : task ∈ records.tasks)
    (pending : task.isPending = true) {target : Instance}
    (housed : records.instance? task.instanceId = some target) : target.status = .running := by
  have balanced := sound.balanced target (MemoryStore.mem_of_instance? housed)
  have waits : task ∈ records.pendingTasks target.id :=
    MemoryStore.mem_pendingTasks.mpr ⟨stored, (MemoryStore.instance?_id housed).symm, pending⟩
  cases status : target.status with
  | running => rfl
  | completed =>
    have none := balanced.pending.symm.trans (balanced.completed.mp status)
    rw [List.map_eq_nil_iff.mp none] at waits
    cases waits

theorem fits (sound : Sound past records) (stored : task ∈ records.tasks)
    (pending : task.isPending = true) : Fits records task := by
  obtain ⟨target, definition, step, _, _, housed, defined, found, _⟩ := sound.placed task stored
  refine .intro target definition step housed defined (sound.running stored pending housed)
    ⟨(MemoryStore.instance?_id housed).symm, (MemoryStore.definition?_id defined).symm⟩ found ?_
  intro data arrival member
  obtain ⟨next, same, _⟩ :=
    (sound.formed defined).mem_arrivals (Definition.mem_of_step? found) member
  exact ⟨next, same⟩

theorem owned (sound : Sound past records) (stored : task ∈ records.tasks) :
    task.assignee.isSome = true ∨ task.assignedRole.isSome = true := by
  obtain ⟨_, _, _, _, _, _, _, _, _, owned⟩ := sound.placed task stored
  exact owned.owned

end Sound

theorem Admits.entitled {principal : String} (admits : Admits (Healthy holds) task principal)
    (owned : task.assignee.isSome = true ∨ task.assignedRole.isSome = true) :
    Entitled holds task principal := by
  cases admits with
  | assignee same => exact Or.inl same
  | holder assigned healthy held =>
    rw [healthy.hasRole] at held
    exact Or.inr ⟨_, assigned, Except.ok.inj held⟩
  | unowned noAssignee noRole => simp [noAssignee, noRole] at owned

theorem Refuses.not_entitled {principal : String} (refuses : Refuses (Healthy holds) task principal) :
    ¬ Entitled holds task principal := by
  intro entitled
  cases refuses with
  | outsider other assigned healthy held =>
    rw [healthy.hasRole] at held
    rcases entitled with own | ⟨role, same, holder⟩
    · exact other own
    · cases assigned.symm.trans same
      cases holder.symm.trans (Except.ok.inj held)
  | stranger owned other noRole =>
    rcases entitled with own | ⟨role, same, _⟩
    · exact other (Option.some.inj (owned.symm.trans own))
    · cases noRole.symm.trans same

/-- Why a completion fails over sound records. No failure says that records do not fit together. -/
inductive Declines (permits : Moment → Prop) (records : MemoryStore) (id : Uuid)
    (principal : String) : Failure → Prop where
  | met {failure : Failure} (met : Met permits failure) :
      Declines permits records id principal failure
  | noTask (absent : records.task? id = none) :
      Declines permits records id principal (.noTask id)
  | completed {task : Task} (found : records.task? id = some task)
      (completed : task.status = .completed) :
      Declines permits records id principal (.taskAlreadyCompleted id)
  | refused {task : Task} (found : records.task? id = some task)
      (pending : task.status = .pending) (refuses : Refuses permits task principal) :
      Declines permits records id principal (.notAllowed principal id)

theorem Task.status_of_pending (pending : task.isPending = true) : task.status = .pending := by
  simpa [isPending] using pending

theorem Task.status_of_not_pending (completed : task.isPending = false) :
    task.status = .completed := by
  cases status : task.status with
  | pending => simp [isPending, status] at completed
  | completed => rfl

theorem Rejects.declines (sound : Sound past records) {id : Uuid} {data : Json.Members}
    {principal : String} {failure : Failure}
    (rejects : Rejects permits records id data principal failure) :
    Declines permits records id principal failure := by
  cases rejects with
  | met met => exact .met met
  | noTask absent => exact .noTask absent
  | noInstance found absent =>
    obtain ⟨_, _, _, _, _, housed, _⟩ := sound.placed _ (MemoryStore.mem_of_task? found)
    cases absent.symm.trans housed
  | noDefinition found housed absent =>
    obtain ⟨_, known, _⟩ := sound.governed _ (MemoryStore.mem_of_instance? housed)
    cases absent.symm.trans known
  | @stops task target definition failure found housed defined stops =>
    have stored := MemoryStore.mem_of_task? found
    have same := MemoryStore.task?_id found
    cases stops with
    | met met => exact .met met
    | taskCompleted completed =>
      rw [same]
      exact .completed found (Task.status_of_not_pending completed)
    | instanceCompleted pending completed =>
      simp [Instance.isCompleted, sound.running stored pending housed] at completed
    | foreign elsewhere =>
      rcases elsewhere with other | other
      · exact absurd (MemoryStore.instance?_id housed).symm other
      · exact absurd (MemoryStore.definition?_id defined).symm other
    | refused pending refuses =>
      rw [same]
      exact .refused found (Task.status_of_pending pending) refuses
    | noStep pending absent =>
      obtain ⟨_, _, _, held, known, _, _, placed, _⟩ := sound.fits stored pending
      cases housed.symm.trans held
      cases defined.symm.trans known
      cases absent.symm.trans placed
    | dangling pending placed member =>
      obtain ⟨_, same, _⟩ :=
        (sound.formed defined).mem_arrivals (Definition.mem_of_step? placed) member
      cases same

structure Determined (holds : String → String → Bool) (records : MemoryStore) (id : Uuid)
    (principal : String) (result : Except Failure TaskCompletion) : Prop where
  notFound : (∃ failure, result = .error failure ∧ failure.kind = .notFound) ↔
    records.task? id = none
  invalidState : (∃ failure, result = .error failure ∧ failure.kind = .invalidState) ↔
    ∃ task, records.task? id = some task ∧ task.status = .completed
  forbidden : (∃ failure, result = .error failure ∧ failure.kind = .forbidden) ↔
    ∃ task, records.task? id = some task ∧ task.status = .pending ∧ ¬ Entitled holds task principal
  ok : (∃ outcome, result = .ok outcome) ↔
    ∃ task, records.task? id = some task ∧ task.status = .pending ∧ Entitled holds task principal
  failure : ∀ failure, result = .error failure →
    failure = .noTask id ∨ failure = .taskAlreadyCompleted id ∨ failure = .notAllowed principal id

/-- The four ways in which a completion ends while nothing fails, each with what it takes. -/
inductive Concludes (holds : String → String → Bool) (records : MemoryStore) (id : Uuid)
    (principal : String) : Except Failure TaskCompletion → Prop where
  | noTask (absent : records.task? id = none) :
      Concludes holds records id principal (.error (.noTask id))
  | completed {task : Task} (found : records.task? id = some task)
      (completed : task.status = .completed) :
      Concludes holds records id principal (.error (.taskAlreadyCompleted id))
  | refused {task : Task} (found : records.task? id = some task) (pending : task.status = .pending)
      (stranger : ¬ Entitled holds task principal) :
      Concludes holds records id principal (.error (.notAllowed principal id))
  | done {task : Task} (outcome : TaskCompletion) (found : records.task? id = some task)
      (pending : task.status = .pending) (entitled : Entitled holds task principal) :
      Concludes holds records id principal (.ok outcome)

theorem Concludes.determined {id : Uuid} {principal : String}
    {result : Except Failure TaskCompletion}
    (concludes : Concludes holds records id principal result) :
    Determined holds records id principal result := by
  cases concludes with
  | noTask absent => constructor <;> simp [absent, Failure.kind]
  | completed found completed => constructor <;> simp [found, completed, Failure.kind]
  | refused found pending stranger => constructor <;> simp [found, pending, stranger, Failure.kind]
  | done outcome found pending entitled => constructor <;> simp [found, pending, entitled]

theorem complete_concludes {world : World} (sound : Sound past world.records) (id : Uuid)
    (data : Json.Members) (principal : String) {moments : Moments}
    (healthy : ∀ n, Healthy holds (moments n)) :
    Concludes holds world.records id principal
      (world.perform ⟨.complete id data principal, moments⟩).1 := by
  have completes := world.perform_complete id data principal healthy
  cases result : (world.perform ⟨.complete id data principal, moments⟩).1 with
  | error failure =>
    rw [result] at completes
    have declines := completes.2.2.declines sound
    cases declines with
    | met met => exact absurd met Healthy.not_met
    | noTask absent => exact .noTask absent
    | completed found completed => exact .completed found completed
    | refused found pending refuses => exact .refused found pending refuses.not_entitled
  | ok outcome =>
    rw [result] at completes
    obtain ⟨done, _⟩ := completes
    have owned := sound.owned (MemoryStore.mem_of_task? done.found)
    exact .done outcome done.found (Task.status_of_pending done.advances.pending)
      (done.advances.admitted.entitled owned)

/-- In every reachable world the outcome of a completion is determined, while nothing fails. The
records of a pending task fit together, and no task is without an owner. -/
theorem reachable_completion_determined {world : World} (reached : Reachable past world)
    (id : Uuid) (data : Json.Members) (principal : String) {moments : Moments}
    (healthy : ∀ n, Healthy holds (moments n)) :
    Determined holds world.records id principal
        (world.perform ⟨.complete id data principal, moments⟩).1 ∧
      ∀ task ∈ world.records.tasks, (task.isPending = true → Fits world.records task) ∧
        (task.assignee.isSome = true ∨ task.assignedRole.isSome = true) := by
  have sound := reached.sound.records
  refine ⟨(complete_concludes sound id data principal healthy).determined, ?_⟩
  intro task stored
  exact ⟨sound.fits stored, sound.owned stored⟩

theorem calm_healthy (first n : Nat) :
    Healthy (fun principal _ => principal = "ada") (calm first n) :=
  ⟨rfl, fun _ => ⟨_, rfl⟩, fun _ _ => rfl⟩

/-- Somebody without the role may not review the article, whose reviewer may. -/
theorem article_review_determined :
    Determined (fun principal _ => principal = "ada") (({} : World).after articleForks).records
        (Uuid.ofNat 48) "bob"
        ((({} : World).after articleForks).perform
          ⟨.complete (Uuid.ofNat 48) [] "bob", calm 60⟩).1 ∧
      Determined (fun principal _ => principal = "ada") (({} : World).after articleForks).records
        (Uuid.ofNat 48) "ada"
        ((({} : World).after articleForks).perform
          ⟨.complete (Uuid.ofNat 48) [] "ada", calm 60⟩).1 ∧
      ∃ task, (({} : World).after articleForks).records.task? (Uuid.ofNat 48) = some task ∧
        task.status = .pending ∧ task.assignedRole = some "editor" :=
  have reached := article_forks calm_healthy
  ⟨(reachable_completion_determined reached (Uuid.ofNat 48) [] "bob" (calm_healthy 60)).1,
    (reachable_completion_determined reached (Uuid.ofNat 48) [] "ada" (calm_healthy 60)).1,
    _, rfl, rfl, rfl⟩

end Workflow
