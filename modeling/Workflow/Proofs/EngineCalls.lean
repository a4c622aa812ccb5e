import Workflow.Proofs.Completion

/-! The calls an engine serves and everything one of them can do to the records. Later arguments
about runs of calls split on the cases of `Effect` and do not look into the operations again. -/

namespace Workflow

open World

inductive EngineCall : Type → Type where
  | define (definition : Definition) : EngineCall Uuid
  | activate (definition : Uuid) : EngineCall Unit
  | start (definition : Uuid) (data : Json.Members) (startedBy : String) : EngineCall Uuid
  | complete (task : Uuid) (data : Json.Members) (principal : String) : EngineCall TaskCompletion
  | status (target : Uuid) : EngineCall StatusView
  | instancesFor (principal : String) : EngineCall (List Instance)
  | tasksFor (principal : String) (filter : TaskFilter) : EngineCall (List Task)

namespace EngineCall

def operation {α : Type} : EngineCall α → Operation α
  | define definition => Engine.define definition
  | activate definition => Engine.activate definition
  | start definition data startedBy => Engine.start definition data startedBy
  | complete task data principal => Engine.complete task data principal
  | status target => Engine.status target
  | instancesFor principal => Engine.instancesFor principal
  | tasksFor principal filter => Engine.tasksFor principal filter

def IsQuery {α : Type} : EngineCall α → Prop
  | status _ => True
  | instancesFor _ => True
  | tasksFor .. => True
  | _ => False

end EngineCall

/-- An active definition of which an instance begins with a task for its start step. -/
structure Beginning (permits : Moment → Prop) (records : MemoryStore) (definitionId : Uuid)
    (data : Json.Members) (startedBy : String) where
  definition : Definition
  step : Step
  now : Timestamp
  assignment : Assignment
  id : Uuid
  taskId : Uuid
  found : records.definition? definitionId = some definition
  active : definition.isActive = true
  placed : definition.startStep? = some step
  resolved : Resolves permits data startedBy step.assign assignment

namespace Beginning

variable {permits : Moment → Prop} {records : MemoryStore} {definitionId : Uuid}
  {data : Json.Members} {startedBy : String}

def target (begun : Beginning permits records definitionId data startedBy) : Instance :=
  { Instance.begin begun.id begun.definition data startedBy begun.now with
    pendingSteps := [begun.step.id] }

def task (begun : Beginning permits records definitionId data startedBy) : Task :=
  Task.make begun.taskId begun.target begun.step begun.assignment begun.now

def changes (begun : Beginning permits records definitionId data startedBy) : ChangeSet :=
  { target := begun.target, tasks := [begun.task] }

end Beginning

/-- What a successful call has done: its answer, the identifiers that it drew, the last one first,
and the records that it leaves. -/
inductive Effect (permits : Moment → Prop) (records : MemoryStore) :
    {α : Type} → EngineCall α → α → List Uuid → MemoryStore → Prop where
  | read {α : Type} {call : EngineCall α} {value : α} (query : call.IsQuery) :
      Effect permits records call value [] records
  | defined {definition : Definition} {now : Timestamp} (valid : definition.validate.isOk = true)
      (unnamed : records.named? definition.name definition.version = none)
      (unused : records.definition? definition.id = none) :
      Effect permits records (.define definition) definition.id []
        (records.saveDefinition { definition with status := .draft, createdAt := some now })
  | activated {id : Uuid} {definition : Definition}
      (found : records.definition? id = some definition) (draft : definition.status = .draft) :
      Effect permits records (.activate id) () []
        (records.saveDefinition { definition with status := .active })
  | begun {id : Uuid} {data : Json.Members} {startedBy : String}
      (begun : Beginning permits records id data startedBy) :
      Effect permits records (.start id data startedBy) begun.id [begun.taskId, begun.id]
        (records.commit begun.changes)
  | completed {id : Uuid} {data : Json.Members} {principal : String}
      (done : Completion permits records id data principal) :
      Effect permits records (.complete id data principal) done.outcome done.ids
        (records.commit done.changes)

/-- A call has had an effect, or it has failed and left the records alone. -/
def Serves {α : Type} (permits : Moment → Prop) (world : World) (call : EngineCall α) :
    Except Failure α → World → Prop
  | .ok value, after => ∃ drawn, after.drawn = drawn ++ world.drawn ∧
      Effect permits world.records call value drawn after.records
  | .error _, after => after.records = world.records

variable {permits : Moment → Prop} {moments : Moments} {world : World}

/-- A draft is prepared only under a name and an identifier that are free. -/
theorem prepareDraft_ends (within : ∀ n, permits (moments n)) (definition : Definition) :
    Ends moments (Engine.prepareDraft definition) world fun result after =>
      Still world after ∧ match result with
        | .ok draft => definition.validate.isOk = true ∧
            world.records.named? definition.name definition.version = none ∧
            world.records.definition? definition.id = none ∧
            ∃ moment, permits moment ∧
              draft = { definition with status := .draft, createdAt := some moment.now }
        | .error _ => True := by
  unfold Engine.prepareDraft
  cases valid : definition.validate.isOk with
  | false =>
    simp only [valid]
    exact Ends.throw ⟨.refl world, trivial⟩
  | true =>
  simp only [valid, Bool.not_true, Bool.false_eq_true, if_false]
  refine (Ends.store within (.findDefinition definition.name definition.version)).bind
    (fun _ _ stores => ⟨stores.still rfl, trivial⟩) ?_
  intro found first stores
  have still := stores.still rfl
  obtain ⟨unnamed, _⟩ := stores
  cases found with
  | some other => exact Ends.throw ⟨still, trivial⟩
  | none =>
  refine (Ends.store within (.loadDefinition definition.id)).bind
    (fun _ _ stores => ⟨still.trans (stores.still rfl), trivial⟩) ?_
  intro found second stores
  have later := still.trans (stores.still rfl)
  obtain ⟨unused, _⟩ := stores
  rw [still.records] at unused
  cases found with
  | some other => exact Ends.throw ⟨later, trivial⟩
  | none =>
  refine Ends.clock within fun moment permitted third last => ?_
  exact Ends.pure ⟨later.trans last, trivial, unnamed.symm, unused.symm, moment, permitted, rfl⟩

theorem define_serves (within : ∀ n, permits (moments n)) (definition : Definition) :
    Ends moments (Engine.define definition) world (Serves permits world (.define definition)) := by
  rw [Engine.define_eq]
  apply (prepareDraft_ends within definition).bind (fun _ _ ended => ended.1.records)
  intro _ middle ended
  obtain ⟨still, valid, unnamed, unused, moment, _, rfl⟩ := ended
  refine (Ends.store within (.saveDefinition _)).bind
    (fun _ _ stores => (still.trans stores.1).records) ?_
  intro _ after stores
  obtain ⟨_, written, grown, _⟩ := stores
  refine Ends.pure ⟨[], grown.trans still.drawn, ?_⟩
  rw [written, still.records]
  exact .defined valid unnamed unused

theorem checkDraft_ends (within : ∀ n, permits (moments n)) (id : Uuid) :
    Ends moments (Engine.checkDraft id) world fun result after =>
      Still world after ∧ match result with
        | .ok _ => ∃ definition, world.records.definition? id = some definition ∧
            definition.status = .draft
        | .error _ => True := by
  unfold Engine.checkDraft
  apply (Ends.load within rfl (.noDefinition id)).bind (fun _ _ ended => ⟨ended.1, trivial⟩)
  intro definition first ended
  obtain ⟨still, found⟩ := ended
  cases active : definition.isActive with
  | true => exact Ends.throw ⟨still, trivial⟩
  | false =>
  have draft : definition.status = .draft := by
    cases status : definition.status with
    | draft => rfl
    | active => simp [Definition.isActive, status] at active
  cases valid : definition.validate.isOk with
  | false =>
    simp only [valid]
    exact Ends.throw ⟨still, trivial⟩
  | true =>
    simp only [valid]
    exact Ends.pure ⟨still, definition, found, draft⟩

theorem activate_serves (within : ∀ n, permits (moments n)) (id : Uuid) :
    Ends moments (Engine.activate id) world (Serves permits world (.activate id)) := by
  rw [Engine.activate_eq]
  apply (checkDraft_ends within id).bind (fun _ _ ended => ended.1.records)
  intro _ middle ended
  obtain ⟨still, definition, found, draft⟩ := ended
  refine (Ends.store within (.transition id .draft .active)).bind
    (fun _ _ stores => (still.trans stores.1).records) ?_
  intro switched after stores
  obtain ⟨same, written, grown, _⟩ := stores
  simp only [MemoryStore.answer, MemoryStore.transition, still.records, found, draft,
    if_true] at same written
  subst same
  refine Ends.pure ⟨[], grown.trans still.drawn, ?_⟩
  rw [written]
  exact .activated found draft

theorem begin_consults {drawn : List Uuid} {id : Uuid} {definition : Definition}
    {records : MemoryStore} (found : records.definition? id = some definition)
    (data : Json.Members) (startedBy : String) (now : Timestamp) :
    Operation.Consults permits drawn (Engine.begin definition data startedBy now)
      fun ids result => match result with
        | .ok changes => ∃ begun : Beginning permits records id data startedBy,
            changes = begun.changes ∧ begun.now = now ∧ ids = [begun.taskId, begun.id] ++ drawn
        | .error _ => True := by
  unfold Engine.begin
  cases active : definition.isActive with
  | false => exact .throw trivial
  | true =>
  cases placed : definition.startStep? with
  | none => exact .throw trivial
  | some step =>
  simp only [Bool.not_true, Bool.false_eq_true, if_false]
  have named : Operation.Consults permits drawn (Operation.ask .freshId)
      fun ids result => ∃ id, result = .ok id ∧ ids = id :: drawn :=
    .freshId fun id => ⟨id, rfl, rfl⟩
  refine named.bind (fun _ _ told => nomatch told) ?_
  intro ids fresh told
  obtain ⟨_, same, rfl⟩ := told
  cases same
  refine (createTask_consults _ step startedBy now).bind (fun _ _ _ => trivial) ?_
  intro later task told
  obtain ⟨rfl, assignment, resolved, made⟩ := told
  refine .pure ⟨⟨definition, step, now, assignment, fresh, task.id, found, active, placed, resolved⟩,
    ?_, rfl, rfl⟩
  rw [made]
  rfl

theorem prepareStart_ends (within : ∀ n, permits (moments n)) (id : Uuid) (data : Json.Members)
    (startedBy : String) :
    Ends moments (Engine.prepareStart id data startedBy) world fun result after =>
      after.records = world.records ∧ after.sent = world.sent ∧ match result with
        | .ok changes => ∃ begun : Beginning permits world.records id data startedBy,
            changes = begun.changes ∧ (∃ moment, permits moment ∧ begun.now = moment.now) ∧
              after.drawn = [begun.taskId, begun.id] ++ world.drawn
        | .error _ => True := by
  unfold Engine.prepareStart
  by_cases blank : Text.Blank startedBy
  · simp only [if_pos blank]
    exact Ends.throw ⟨rfl, rfl, trivial⟩
  simp only [if_neg blank]
  apply (Ends.load within rfl (.noDefinition id)).bind
    (fun _ _ ended => ⟨ended.1.records, ended.1.sent, trivial⟩)
  intro definition first ended
  obtain ⟨still, found⟩ := ended
  refine Ends.clock within fun moment permitted second later => ?_
  replace still := still.trans later
  apply ((begin_consults found data startedBy moment.now).ends within).mono
  intro result after ended
  obtain ⟨records, sent, told⟩ := ended
  refine ⟨records.trans still.records, sent.trans still.sent, ?_⟩
  cases result with
  | error failure => exact trivial
  | ok changes =>
    obtain ⟨begun, same, dated, drawn⟩ := told
    exact ⟨begun, same, ⟨moment, permitted, dated⟩, by rw [drawn, still.drawn]⟩

def Begins (permits : Moment → Prop) (world : World) (id : Uuid) (data : Json.Members)
    (startedBy : String) : Except Failure Uuid → World → Prop
  | .ok target, after => ∃ begun : Beginning permits world.records id data startedBy,
      target = begun.id ∧ after.records = world.records.commit begun.changes ∧
        after.drawn = [begun.taskId, begun.id] ++ world.drawn
  | .error _, after => after.records = world.records

theorem start_ends (within : ∀ n, permits (moments n)) (id : Uuid) (data : Json.Members)
    (startedBy : String) :
    Ends moments (Engine.start id data startedBy) world
      (Begins permits world id data startedBy) := by
  rw [Engine.start_eq]
  apply (prepareStart_ends within id data startedBy).bind (fun _ _ ended => ended.1)
  intro _ middle ended
  obtain ⟨records, _, begun, rfl, _, drawn⟩ := ended
  refine (Ends.store within (.commit begun.changes)).bind
    (fun _ _ stores => stores.1.records.trans records) ?_
  intro _ after stores
  obtain ⟨_, committed, grown, _⟩ := stores
  rw [records] at committed
  refine Ends.tell fun told sameRecords sameDrawn _ => ?_
  exact Ends.pure ⟨begun, rfl, sameRecords.trans committed, sameDrawn.trans (grown.trans drawn)⟩

theorem start_serves (within : ∀ n, permits (moments n)) (id : Uuid) (data : Json.Members)
    (startedBy : String) :
    Ends moments (Engine.start id data startedBy) world
      (Serves permits world (.start id data startedBy)) := by
  apply (start_ends within id data startedBy).mono
  intro result after begins
  cases result with
  | error failure => exact begins
  | ok target =>
    obtain ⟨begun, rfl, written, grown⟩ := begins
    refine ⟨_, grown, ?_⟩
    rw [written]
    exact .begun begun

theorem complete_serves (within : ∀ n, permits (moments n)) (id : Uuid) (data : Json.Members)
    (principal : String) :
    Ends moments (Engine.complete id data principal) world
      (Serves permits world (.complete id data principal)) := by
  apply (complete_ends within id data principal).mono
  intro result after completes
  cases result with
  | error failure => exact completes.1
  | ok outcome =>
    obtain ⟨done, rfl, written, grown, _⟩ := completes
    refine ⟨_, grown, ?_⟩
    rw [written]
    exact .completed done

theorem loadInstances_still (within : ∀ n, permits (moments n)) (ids : List Uuid) :
    Ends moments (Engine.loadInstances ids) world fun _ after => Still world after := by
  induction ids generalizing world with
  | nil => exact Ends.pure (.refl _)
  | cons id rest ih =>
    apply (Ends.load within rfl (.noInstance id)).bind (fun _ _ ended => ended.1)
    intro target first ended
    obtain ⟨still, _⟩ := ended
    apply ih.bind (fun _ _ later => still.trans later)
    intro targets after later
    exact Ends.pure (still.trans later)

theorem query_still {α : Type} (within : ∀ n, permits (moments n)) (call : EngineCall α)
    (query : call.IsQuery) :
    Ends moments call.operation world fun _ after => Still world after := by
  cases call with
  | define _ | activate _ | start _ _ _ | complete _ _ _ => cases query
  | status id =>
    apply (Ends.load within rfl (.noInstance id)).bind (fun _ _ ended => ended.1)
    intro target first ended
    obtain ⟨still, _⟩ := ended
    refine (Ends.store within (.tasksOf id)).bind
      (fun _ _ stores => still.trans (stores.still rfl)) ?_
    intro tasks after stores
    exact Ends.pure (still.trans (stores.still rfl))
  | instancesFor principal =>
    refine (Ends.store within (.assignedTasks principal .pending)).bind
      (fun _ _ stores => stores.still rfl) ?_
    intro tasks first stores
    exact (loadInstances_still within _).mono fun _ _ later => (stores.still rfl).trans later
  | tasksFor principal filter =>
    exact (Ends.store within (.assignedTasks principal filter)).mono fun _ _ stores => stores.still rfl

theorem call_serves {α : Type} (within : ∀ n, permits (moments n)) (call : EngineCall α) :
    Ends moments call.operation world (Serves permits world call) := by
  have quiet (query : call.IsQuery) :
      Ends moments call.operation world (Serves permits world call) := by
    apply (query_still within call query).mono
    intro result after still
    cases result with
    | error failure => exact still.records
    | ok value =>
      refine ⟨[], still.drawn, ?_⟩
      rw [still.records]
      exact .read query
  cases call with
  | define definition => exact define_serves within definition
  | activate id => exact activate_serves within id
  | start id data startedBy => exact start_serves within id data startedBy
  | complete id data principal => exact complete_serves within id data principal
  | status _ | instancesFor _ | tasksFor _ _ => exact quiet trivial

end Workflow
