import Workflow.Engine.Operation
import Workflow.Proofs.Consultation

/-! Which tasks an operation makes and whom it lets act. The relations say what each step of the
engine may conclude from the answers it was given; the lemmas say that it concludes nothing else. -/

namespace Workflow

open World

inductive Resolves (permits : Moment → Prop) (data : Json.Members) (acting : String) :
    Option AssignmentRule → Assignment → Prop where
  | unruled : Resolves permits data acting none { principal := some acting }
  | direct {rule : AssignmentRule} {principal : String} (named : rule.direct? data = some principal) :
      Resolves permits data acting (some rule) { principal := some principal }
  | role {rule : AssignmentRule} {role : String} {holders : List String} {moment : Moment}
      (unnamed : rule.direct? data = none) (named : rule.role.bind nonEmpty = some role)
      (permitted : permits moment) (listed : moment.holders role = .ok holders) :
      Resolves permits data acting (some rule) { principal := least holders, role := some role }
  | acting {rule : AssignmentRule} (unnamed : rule.direct? data = none)
      (noRole : rule.role.bind nonEmpty = none) :
      Resolves permits data acting (some rule) { principal := some acting }

/-- The tasks made for arrivals, one for each and in their order. -/
inductive Creates (permits : Moment → Prop) (target : Instance) (acting : String) (now : Timestamp) :
    List Arrival → List Task → Prop where
  | nil : Creates permits target acting now [] []
  | cons {step : Step} {arrivals : List Arrival} {assignment : Assignment} {id : Uuid}
      {tasks : List Task} (resolved : Resolves permits target.data acting step.assign assignment)
      (later : Creates permits target acting now arrivals tasks) :
      Creates permits target acting now (.step step :: arrivals)
        (Task.make id target step assignment now :: tasks)

inductive Admits (permits : Moment → Prop) (task : Task) (principal : String) : Prop where
  | assignee (same : task.assignee = some principal)
  | holder {role : String} {moment : Moment} (assigned : task.assignedRole = some role)
      (permitted : permits moment) (held : moment.hasRole principal role = .ok true)
  | unowned (noAssignee : task.assignee = none) (noRole : task.assignedRole = none)

inductive Refuses (permits : Moment → Prop) (task : Task) (principal : String) : Prop where
  | outsider {role : String} {moment : Moment} (other : task.assignee ≠ some principal)
      (assigned : task.assignedRole = some role) (permitted : permits moment)
      (held : moment.hasRole principal role = .ok false)
  | stranger {owner : String} (owned : task.assignee = some owner) (other : owner ≠ principal)
      (noRole : task.assignedRole = none)

variable {permits : Moment → Prop} {drawn : List Uuid}

theorem resolve_consults (rule : Option AssignmentRule) (data : Json.Members) (acting : String) :
    Operation.Consults permits drawn (AssignmentRule.resolve rule data acting) fun ids result =>
      ids = drawn ∧ match result with
        | .ok assignment => Resolves permits data acting rule assignment
        | .error failure => Met permits failure := by
  cases rule with
  | none => exact .pure ⟨rfl, .unruled⟩
  | some rule =>
    simp only [AssignmentRule.resolve]
    cases direct : rule.direct? data with
    | some principal => exact .pure ⟨rfl, .direct direct⟩
    | none =>
      cases named : rule.role.bind nonEmpty with
      | none => exact .pure ⟨rfl, .acting direct named⟩
      | some role =>
        have asked : Operation.Consults permits drawn (Operation.attempt (.holders role))
            fun ids result => ids = drawn ∧ match result with
              | .ok holders => ∃ moment, permits moment ∧ moment.holders role = .ok holders
              | .error failure => Met permits failure := by
          refine .holders fun moment permitted => ⟨rfl, ?_⟩
          cases reply : moment.holders role with
          | ok holders => exact ⟨moment, permitted, reply⟩
          | error failure => exact .holders permitted reply
        refine asked.bind (fun _ _ met => met) ?_
        intro ids holders told
        obtain ⟨same, moment, permitted, listed⟩ := told
        exact .pure ⟨same, .role direct named permitted listed⟩

theorem createTask_consults (target : Instance) (step : Step) (acting : String) (now : Timestamp) :
    Operation.Consults permits drawn (Engine.createTask target step acting now)
      fun ids result => match result with
        | .ok task => ids = task.id :: drawn ∧
            ∃ assignment, Resolves permits target.data acting step.assign assignment ∧
              task = Task.make task.id target step assignment now
        | .error failure => Met permits failure := by
  refine (resolve_consults step.assign target.data acting).bind (fun _ _ told => told.2) ?_
  intro ids assignment told
  obtain ⟨rfl, resolved⟩ := told
  have new : Operation.Consults permits ids (Operation.ask .freshId)
      fun later result => ∃ id, result = .ok id ∧ later = id :: ids :=
    .freshId fun id => ⟨id, rfl, rfl⟩
  refine new.bind (fun _ _ told => nomatch told) ?_
  intro later id told
  obtain ⟨_, same, rfl⟩ := told
  cases same
  exact .pure ⟨rfl, assignment, resolved, rfl⟩

theorem createTasks_consults (target : Instance) (acting : String) (now : Timestamp)
    (arrivals : List Arrival) :
    Operation.Consults permits drawn (Engine.createTasks target acting now arrivals)
      fun ids result => match result with
        | .ok tasks => ids = (tasks.map (·.id)).reverse ++ drawn ∧
            Creates permits target acting now arrivals tasks
        | .error failure => Met permits failure ∨
            ∃ source missing, .dangling source missing ∈ arrivals ∧
              failure = .danglingTransition source missing := by
  induction arrivals generalizing drawn with
  | nil => exact .pure ⟨rfl, .nil⟩
  | cons arrival rest ih =>
    cases arrival with
    | dangling source missing =>
      exact .throw (Or.inr ⟨source, missing, List.mem_cons_self, rfl⟩)
    | step step =>
      refine (createTask_consults target step acting now).bind (fun _ _ met => Or.inl met) ?_
      intro ids task told
      obtain ⟨rfl, assignment, resolved, made⟩ := told
      refine ih.bind ?_ ?_
      · intro later failure cause
        refine cause.imp_right ?_
        intro dangling
        obtain ⟨source, missing, member, same⟩ := dangling
        exact ⟨source, missing, List.mem_cons_of_mem _ member, same⟩
      · intro later tasks told
        obtain ⟨rfl, creates⟩ := told
        refine .pure ⟨?_, made ▸ .cons resolved creates⟩
        rw [List.map_cons, List.reverse_cons, List.append_assoc, List.singleton_append]

theorem authorize_consults (task : Task) (principal : String) :
    Operation.Consults permits drawn (Engine.authorize task principal) fun ids result =>
      ids = drawn ∧ match result with
        | .ok _ => Admits permits task principal
        | .error failure => Met permits failure ∨
            Refuses permits task principal ∧ failure = .notAllowed principal task.id := by
  unfold Engine.authorize
  by_cases own : task.assignee = some principal
  · rw [if_pos own]
    exact .pure ⟨rfl, .assignee own⟩
  rw [if_neg own]
  cases assigned : task.assignedRole with
  | none =>
    cases owned : task.assignee with
    | none => exact .pure ⟨rfl, .unowned owned assigned⟩
    | some owner =>
      have other : owner ≠ principal := fun same => own (same ▸ owned)
      exact .throw ⟨rfl, Or.inr ⟨.stranger owned other assigned, rfl⟩⟩
  | some role =>
    have asked : Operation.Consults permits drawn (Operation.attempt (.hasRole principal role))
        fun ids result => ids = drawn ∧ match result with
          | .ok held => ∃ moment, permits moment ∧ moment.hasRole principal role = .ok held
          | .error failure => Met permits failure := by
      refine .hasRole fun moment permitted => ⟨rfl, ?_⟩
      cases reply : moment.hasRole principal role with
      | ok held => exact ⟨moment, permitted, reply⟩
      | error failure => exact .hasRole permitted reply
    refine asked.bind (fun _ _ told => ⟨told.1, Or.inl told.2⟩) ?_
    intro ids held told
    obtain ⟨same, moment, permitted, reply⟩ := told
    cases held with
    | true => exact .pure ⟨same, .holder assigned permitted reply⟩
    | false => exact .throw ⟨same, Or.inr ⟨.outsider own assigned permitted reply, rfl⟩⟩

end Workflow
