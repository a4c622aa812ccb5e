import Workflow.Proofs.Phases
import Workflow.Proofs.TaskCreation

/-! What completing a task does: either everything that is written follows from the stored records
and the answers met on the way, or nothing is written and the failure says why. -/

namespace Workflow

open World

inductive Stops (permits : Moment → Prop) (definition : Definition) (target : Instance) (task : Task)
    (data : Json.Members) (principal : String) : Failure → Prop where
  | met {failure : Failure} (met : Met permits failure) :
      Stops permits definition target task data principal failure
  | taskCompleted (completed : task.isPending = false) :
      Stops permits definition target task data principal (.taskAlreadyCompleted task.id)
  | instanceCompleted (pending : task.isPending = true) (completed : target.isCompleted = true) :
      Stops permits definition target task data principal (.instanceAlreadyCompleted target.id)
  | foreign (elsewhere : task.instanceId ≠ target.id ∨ target.definitionId ≠ definition.id) :
      Stops permits definition target task data principal (.foreignTask task.id target.id)
  | refused (pending : task.isPending = true) (refused : Refuses permits task principal) :
      Stops permits definition target task data principal (.notAllowed principal task.id)
  | noStep (pending : task.isPending = true) (absent : definition.step? task.stepId = none) :
      Stops permits definition target task data principal
        (.stepMissing task.stepId definition.name)
  | dangling {step : Step} {source missing : String} (pending : task.isPending = true)
      (placed : definition.step? task.stepId = some step)
      (member : .dangling source missing ∈
        definition.arrivals (Json.Members.overlay target.data data) step) :
      Stops permits definition target task data principal (.danglingTransition source missing)

structure Advances (permits : Moment → Prop) (definition : Definition) (target : Instance)
    (task : Task) (data : Json.Members) (principal : String) (now : Timestamp) (step : Step)
    (created : List Task) : Prop where
  pending : task.isPending = true
  running : target.isCompleted = false
  located : task.instanceId = target.id
  admitted : Admits permits task principal
  placed : definition.step? task.stepId = some step
  creates : Creates permits { target with data := Json.Members.overlay target.data data } principal
    now (definition.arrivals (Json.Members.overlay target.data data) step) created

def completionChanges (target : Instance) (task : Task) (pending created : List Task)
    (data : Json.Members) (principal : String) (now : Timestamp) : ChangeSet :=
  { target := { target with data := Json.Members.overlay target.data data }.withPending
      (Engine.pendingSteps task.id pending created) now
    tasks := task.complete data principal now :: created }

/-- A task that the records let a principal complete, and the tasks that are made for it. -/
structure Completion (permits : Moment → Prop) (records : MemoryStore) (id : Uuid)
    (data : Json.Members) (principal : String) where
  task : Task
  target : Instance
  definition : Definition
  now : Timestamp
  step : Step
  created : List Task
  found : records.task? id = some task
  housed : records.instance? task.instanceId = some target
  defined : records.definition? target.definitionId = some definition
  advances : Advances permits definition target task data principal now step created

inductive Rejects (permits : Moment → Prop) (records : MemoryStore) (id : Uuid)
    (data : Json.Members) (principal : String) : Failure → Prop where
  | met {failure : Failure} (met : Met permits failure) :
      Rejects permits records id data principal failure
  | noTask (absent : records.task? id = none) :
      Rejects permits records id data principal (.noTask id)
  | noInstance {task : Task} (found : records.task? id = some task)
      (absent : records.instance? task.instanceId = none) :
      Rejects permits records id data principal (.noInstance task.instanceId)
  | noDefinition {task : Task} {target : Instance} (found : records.task? id = some task)
      (housed : records.instance? task.instanceId = some target)
      (absent : records.definition? target.definitionId = none) :
      Rejects permits records id data principal (.noDefinition target.definitionId)
  | stops {task : Task} {target : Instance} {definition : Definition} {failure : Failure}
      (found : records.task? id = some task)
      (housed : records.instance? task.instanceId = some target)
      (defined : records.definition? target.definitionId = some definition)
      (stops : Stops permits definition target task data principal failure) :
      Rejects permits records id data principal failure

namespace Completion

variable {permits : Moment → Prop} {records : MemoryStore} {id : Uuid} {data : Json.Members}
  {principal : String}

def changes (done : Completion permits records id data principal) : ChangeSet :=
  completionChanges done.target done.task (records.pendingTasks done.target.id) done.created data
    principal done.now

/-- The identifiers drawn for it, the last one first. -/
def ids (done : Completion permits records id data principal) : List Uuid :=
  (done.created.map (·.id)).reverse

def outcome (done : Completion permits records id data principal) : TaskCompletion :=
  { instanceId := done.changes.target.id
    instanceStatus := done.changes.target.status
    createdTasks := done.changes.createdTasks }

end Completion

variable {permits : Moment → Prop} {moments : Moments} {world : World}

theorem advance_consults {drawn : List Uuid} (definition : Definition) (target : Instance)
    (task : Task) (pending : List Task) (data : Json.Members) (principal : String)
    (now : Timestamp) :
    Operation.Consults permits drawn
      (Engine.advance definition target task pending data principal now)
      fun ids result => match result with
        | .ok changes => ∃ step created,
            Advances permits definition target task data principal now step created ∧
              ids = (created.map (·.id)).reverse ++ drawn ∧
              changes = completionChanges target task pending created data principal now
        | .error failure => Stops permits definition target task data principal failure := by
  unfold Engine.advance
  cases waiting : task.isPending with
  | false => exact .throw (.taskCompleted waiting)
  | true =>
  cases ended : target.isCompleted with
  | true => exact .throw (.instanceCompleted waiting ended)
  | false =>
  by_cases elsewhere : task.instanceId ≠ target.id ∨ target.definitionId ≠ definition.id
  · simp only [if_pos elsewhere]
    exact .throw (.foreign elsewhere)
  simp only [if_neg elsewhere]
  refine (authorize_consults task principal).bind ?_ ?_
  · intro ids failure told
    obtain ⟨_, met | ⟨refused, rfl⟩⟩ := told
    · exact .met met
    · exact .refused waiting refused
  · intro ids _ told
    obtain ⟨rfl, admitted⟩ := told
    cases placed : definition.step? task.stepId with
    | none => exact .throw (.noStep waiting placed)
    | some step =>
      refine (createTasks_consults _ principal now _).bind ?_ ?_
      · intro later failure cause
        obtain met | ⟨source, missing, member, rfl⟩ := cause
        · exact .met met
        · exact .dangling waiting placed member
      · intro later created told
        obtain ⟨grown, creates⟩ := told
        have located : task.instanceId = target.id :=
          Decidable.of_not_not fun different => elsewhere (Or.inl different)
        exact .pure ⟨step, created, ⟨waiting, ended, located, admitted, placed, creates⟩, grown, rfl⟩

/-- The changes that complete a task are prepared from the stored records at the time of a moment,
and nothing is written yet. -/
theorem prepare_ends (within : ∀ n, permits (moments n)) (id : Uuid) (data : Json.Members)
    (principal : String) :
    Ends moments (Engine.prepare id data principal) world fun result after =>
      after.records = world.records ∧ after.sent = world.sent ∧ match result with
        | .ok changes => ∃ done : Completion permits world.records id data principal,
            changes = done.changes ∧ (∃ moment, permits moment ∧ done.now = moment.now) ∧
              after.drawn = done.ids ++ world.drawn
        | .error failure => Rejects permits world.records id data principal failure := by
  unfold Engine.prepare
  apply (Ends.load within rfl (.noTask id)).bind
  · intro failure after ended
    obtain ⟨still, met | ⟨rfl, absent⟩⟩ := ended
    · exact ⟨still.records, still.sent, .met met⟩
    · exact ⟨still.records, still.sent, .noTask absent⟩
  intro task first ended
  obtain ⟨still, found⟩ := ended
  apply (Ends.load within rfl (.noInstance task.instanceId)).bind
  · intro failure after ended
    obtain ⟨later, met | ⟨rfl, absent⟩⟩ := ended
    · exact ⟨(still.trans later).records, (still.trans later).sent, .met met⟩
    · exact ⟨(still.trans later).records, (still.trans later).sent,
        .noInstance found (by rw [← still.records]; exact absent)⟩
  intro target second ended
  obtain ⟨later, housed⟩ := ended
  rw [still.records] at housed
  replace still := still.trans later
  apply (Ends.load within rfl (.noDefinition target.definitionId)).bind
  · intro failure after ended
    obtain ⟨later, met | ⟨rfl, absent⟩⟩ := ended
    · exact ⟨(still.trans later).records, (still.trans later).sent, .met met⟩
    · exact ⟨(still.trans later).records, (still.trans later).sent,
        .noDefinition found housed (by rw [← still.records]; exact absent)⟩
  intro definition third ended
  obtain ⟨later, defined⟩ := ended
  rw [still.records] at defined
  replace still := still.trans later
  apply (Ends.store within (.pendingTasks target.id)).bind
  · intro failure after stores
    exact ⟨(still.trans (stores.still rfl)).records, (still.trans (stores.still rfl)).sent,
      .met stores.2⟩
  intro pending fourth stores
  have listed : pending = world.records.pendingTasks target.id := by
    rw [stores.1, still.records]
    rfl
  subst listed
  replace still := still.trans (stores.still rfl)
  refine Ends.clock within fun moment permitted fifth later => ?_
  replace still := still.trans later
  apply ((advance_consults definition target task _ data principal moment.now).ends within).mono
  intro result after ended
  obtain ⟨records, sent, told⟩ := ended
  refine ⟨records.trans still.records, sent.trans still.sent, ?_⟩
  cases result with
  | error failure => exact .stops found housed defined told
  | ok changes =>
    obtain ⟨step, created, advances, drawn, rfl⟩ := told
    refine ⟨⟨task, target, definition, moment.now, step, created, found, housed, defined, advances⟩,
      rfl, ⟨moment, permitted, rfl⟩, ?_⟩
    rw [drawn, still.drawn]
    rfl

theorem completeLocked_ends (within : ∀ n, permits (moments n)) (id : Uuid) (data : Json.Members)
    (principal : String) :
    Ends moments (Engine.completeLocked id data principal) world fun result after =>
      after.sent = world.sent ∧ match result with
        | .ok changes => ∃ done : Completion permits world.records id data principal,
            changes = done.changes ∧ after.records = world.records.commit done.changes ∧
              after.drawn = done.ids ++ world.drawn
        | .error failure => after.records = world.records ∧
            Rejects permits world.records id data principal failure := by
  rw [Engine.completeLocked_eq]
  apply (prepare_ends within id data principal).bind
  · intro failure after ended
    obtain ⟨records, sent, rejects⟩ := ended
    exact ⟨sent, records, rejects⟩
  intro _ middle ended
  obtain ⟨records, sent, done, rfl, _, drawn⟩ := ended
  apply (Ends.store within (.commit done.changes)).bind
  · intro failure after stores
    obtain ⟨same, met⟩ := stores
    exact ⟨same.sent.trans sent, same.records.trans records, .met met⟩
  · intro _ after stores
    obtain ⟨_, committed, grown, told⟩ := stores
    refine Ends.pure ⟨told.trans sent, done, rfl, ?_, grown.trans drawn⟩
    rw [committed, records]
    rfl

/-- One completion is written and the principals of its new tasks are told, or the operation fails
and leaves the records and the messages as they are. -/
def Completes (permits : Moment → Prop) (world : World) (id : Uuid) (data : Json.Members)
    (principal : String) : Except Failure TaskCompletion → World → Prop
  | .ok outcome, after => ∃ done : Completion permits world.records id data principal,
      outcome = done.outcome ∧ after.records = world.records.commit done.changes ∧
        after.drawn = done.ids ++ world.drawn ∧
        after.sent = world.sent ++ outcome.createdTasks.filterMap TaskAssignment.forTask?
  | .error failure, after => after.records = world.records ∧ after.sent = world.sent ∧
      Rejects permits world.records id data principal failure

theorem complete_ends (within : ∀ n, permits (moments n)) (id : Uuid) (data : Json.Members)
    (principal : String) :
    Ends moments (Engine.complete id data principal) world
      (Completes permits world id data principal) := by
  unfold Engine.complete
  apply (Ends.load within rfl (.noTask id)).bind
  · intro failure after ended
    obtain ⟨still, met | ⟨rfl, absent⟩⟩ := ended
    · exact ⟨still.records, still.sent, .met met⟩
    · exact ⟨still.records, still.sent, .noTask absent⟩
  intro task first ended
  obtain ⟨still, found⟩ := ended
  refine Ends.pass (fun _ => ⟨rfl, rfl, rfl⟩) fun _ second later => ?_
  replace still := still.trans later
  have locked : Ends moments (Engine.completeLocked id data principal) second _ :=
    completeLocked_ends within id data principal
  rw [still.records, still.drawn, still.sent] at locked
  apply locked.lift
  intro result third ended
  obtain ⟨sent, ended⟩ := ended
  refine Ends.pass (fun _ => ⟨rfl, rfl, rfl⟩) fun _ fourth later => ?_
  cases result with
  | error failure =>
    obtain ⟨records, rejects⟩ := ended
    refine Ends.pass (fun _ => ⟨rfl, rfl, rfl⟩) fun _ fifth last => ?_
    replace later := later.trans last
    exact Ends.throw ⟨later.records.trans records, later.sent.trans sent, rejects⟩
  | ok changes =>
    obtain ⟨done, rfl, records, drawn⟩ := ended
    -- The announcement is the same whether the lock was released before it or not.
    have told {before : World} (still : Still third before) :
        Ends moments (do Engine.announce done.changes; return done.outcome) before
          (Completes permits world id data principal) := by
      refine Ends.tell fun after sameRecords sameDrawn grown => Ends.pure ⟨done, rfl, ?_, ?_, ?_⟩
      · exact sameRecords.trans (still.records.trans records)
      · exact sameDrawn.trans (still.drawn.trans drawn)
      · rw [grown, still.sent, sent]
        rfl
    simp only
    split
    · exact Ends.pass (fun _ => ⟨rfl, rfl, rfl⟩) fun _ fifth last => told (later.trans last)
    · exact told later

end Workflow
