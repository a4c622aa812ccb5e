import Mathlib.Data.List.Basic
import Workflow.Engine.Advance
import Workflow.Proofs.Retention
import Workflow.Proofs.WellFormed

/-! Which data of an instance matter to how it moves on: the fields that the conditions and the
assignment rules of its definition name. Over data that agree on these, every condition has the same
outcome, every rule names the same principal, and routing arrives at the same steps. -/

namespace Workflow

namespace Json.Members

/-- The value of a field as conditions and rules see it. One that is null is as good as missing. -/
def seen? (field : String) (data : Members) : Option Json :=
  match value? field data with
  | some .null => none
  | value => value

/-- Data that nobody can tell apart who only looks at some fields. -/
def AgreeOn (fields : List String) (first second : Members) : Prop :=
  ∀ field ∈ fields, seen? field first = seen? field second

variable {fields : List String} {first second : Members}

theorem AgreeOn.mono (agree : AgreeOn fields first second) {fewer : List String}
    (within : ∀ field ∈ fewer, field ∈ fields) : AgreeOn fewer first second :=
  fun field member => agree field (within field member)

end Json.Members

open Json.Members

/-- The fields that a step looks at when it is entered or left. -/
def Step.namedFields (step : Step) : List String :=
  step.transitions.filterMap (fun transition => transition.guard.map (·.field)) ++
    (step.assign.bind (·.field)).toList

/-- The fields that a definition looks at: those that its conditions and its rules name. -/
def Definition.namedFields (definition : Definition) : List String :=
  definition.steps.flatMap Step.namedFields

theorem Step.namedFields_subset {definition : Definition} {step : Step}
    (placed : step ∈ definition.steps) : ∀ field ∈ step.namedFields, field ∈ definition.namedFields :=
  fun _ member => List.mem_flatMap.mpr ⟨step, placed, member⟩

variable {first second : Json.Members}

theorem Condition.holds_congr {condition : Condition}
    (same : seen? condition.field first = seen? condition.field second) :
    condition.holds first = condition.holds second := by
  have shown (data : Json.Members) : condition.actual data =
      (seen? condition.field data).getD (zero condition.op condition.value) := by
    rw [actual, seen?]
    cases value? condition.field data with
    | none => rfl
    | some value => cases value <;> rfl
  have actual : condition.actual first = condition.actual second := by
    rw [shown, shown, same]
  rw [holds, holds, actual]

theorem AssignmentRule.direct?_congr {rule : AssignmentRule}
    (same : ∀ field, rule.field = some field → seen? field first = seen? field second) :
    rule.direct? first = rule.direct? second := by
  have shown (field : String) (data : Json.Members) :
      (value? field data).bind principal? = (seen? field data).bind principal? := by
    rw [seen?]
    cases value? field data with
    | none => rfl
    | some value => cases value <;> rfl
  cases named : rule.field with
  | none => rw [direct?, direct?, named, Option.bind_none, Option.bind_none]
  | some field =>
    rw [direct?, direct?, named, Option.bind_some, Option.bind_some, shown, shown, same field named]

theorem Transition.isSatisfied_congr {step : Step} (agree : AgreeOn step.namedFields first second)
    {transition : Transition} (leaves : transition ∈ step.transitions) :
    transition.isSatisfied first = transition.isSatisfied second := by
  rw [isSatisfied, isSatisfied, guardHolds, guardHolds]
  cases guarded : transition.guard with
  | none => rfl
  | some condition =>
    have looked : condition.field ∈ step.namedFields := by
      refine List.mem_append_left _ (List.mem_filterMap.mpr ⟨transition, leaves, ?_⟩)
      rw [guarded, Option.map_some]
    rw [Option.all_some, Option.all_some, Condition.holds_congr (agree condition.field looked)]

theorem Step.fired_congr {step : Step} (agree : AgreeOn step.namedFields first second) :
    step.fired first = step.fired second := by
  have satisfied : (step.transitions.filter fun transition => transition.isSatisfied first) =
      step.transitions.filter fun transition => transition.isSatisfied second :=
    List.filter_congr fun _ leaves => Transition.isSatisfied_congr agree leaves
  rw [fired, fired, satisfied]

theorem Step.direct?_congr {step : Step} (agree : AgreeOn step.namedFields first second)
    {rule : AssignmentRule} (assigned : step.assign = some rule) :
    rule.direct? first = rule.direct? second := by
  refine AssignmentRule.direct?_congr fun field named => agree field ?_
  refine List.mem_append_right _ ?_
  rw [assigned, Option.bind_some, named]
  exact List.mem_singleton_self field

namespace Definition

variable {definition : Definition}

theorem moves_congr (agree : AgreeOn definition.namedFields first second) {visits : List Visit}
    (own : ∀ visit ∈ visits, visit.step ∈ definition.steps) :
    definition.moves first visits = definition.moves second visits := by
  refine List.flatMap_congr fun visit member => ?_
  have here : AgreeOn visit.step.namedFields first second :=
    agree.mono (Step.namedFields_subset (own visit member))
  rw [Step.fired_congr here]

/-- Every level of the search is the same, as what it enters is the same. -/
theorem follow_congr (agree : AgreeOn definition.namedFields first second) {levels : Nat}
    {visits : List Visit} (own : ∀ visit ∈ visits, visit.step ∈ definition.steps) :
    definition.follow first levels visits = definition.follow second levels visits := by
  induction levels generalizing visits with
  | zero => rfl
  | succ levels ih =>
    have moves := moves_congr agree own
    have entered : ∀ visit ∈ (definition.moves second visits).filterMap Move.visit?,
        visit.step ∈ definition.steps := by
      intro visit enters
      obtain ⟨move, moved, same⟩ := List.mem_filterMap.mp enters
      obtain ⟨visit, _, leads⟩ := List.mem_flatMap.mp moved
      obtain ⟨transition, _, here⟩ := List.mem_map.mp leads
      cases move with
      | enter other =>
        cases same
        exact mem_of_step? (move_enter here).1
      | arrive _ => cases same
      | stop => cases same
    simp only [follow, moves, ih entered]

theorem arrivals_congr (agree : AgreeOn definition.namedFields first second) {source : Step}
    (placed : source ∈ definition.steps) :
    definition.arrivals first source = definition.arrivals second source :=
  follow_congr agree fun _ single => List.mem_singleton.mp single ▸ placed

theorem mem_steps_of_arrivals {data : Json.Members} {source step : Step}
    (placed : source ∈ definition.steps) (arrives : .step step ∈ definition.arrivals data source) :
    step ∈ definition.steps := by
  have own : ∀ visit ∈ [({ step := source } : Visit)], visit.step ∈ definition.steps :=
    fun _ single => List.mem_singleton.mp single ▸ placed
  obtain ⟨visit, transition, _, _, moved⟩ := mem_follow own arrives
  exact mem_of_step? (move_step moved).1

end Definition

namespace Engine

variable {target : Instance} {principal : String} {now : Timestamp}

/-- A rule asks the directory the same, and comes to the same with the same answers. -/
theorem resolve_congr {step : Step} (agree : AgreeOn step.namedFields first second) :
    AssignmentRule.resolve step.assign first principal =
      AssignmentRule.resolve step.assign second principal := by
  cases assigned : step.assign with
  | none => rfl
  | some rule => rw [AssignmentRule.resolve, AssignmentRule.resolve, Step.direct?_congr agree assigned]

theorem createTask_congr {step : Step} (agree : AgreeOn step.namedFields first second) :
    createTask { target with data := first } step principal now =
      createTask { target with data := second } step principal now := by
  rw [createTask, createTask, resolve_congr agree]
  rfl

theorem createTasks_congr {definition : Definition}
    (agree : AgreeOn definition.namedFields first second) {arrivals : List Arrival}
    (own : ∀ step, .step step ∈ arrivals → step ∈ definition.steps) :
    createTasks { target with data := first } principal now arrivals =
      createTasks { target with data := second } principal now arrivals := by
  induction arrivals with
  | nil => rfl
  | cons arrival rest ih =>
    cases arrival with
    | dangling source missing => rfl
    | step step =>
      have here : AgreeOn step.namedFields first second :=
        agree.mono (Step.namedFields_subset (own step List.mem_cons_self))
      rw [createTasks, createTasks, createTask_congr here,
        ih fun other later => own other (List.mem_cons_of_mem _ later)]

end Engine

end Workflow
