import Workflow.Definition.Validation
import Workflow.Engine.Routing

/-! What validation promises and how routing relies on it. In a valid definition every transition
leads to a step, so that what leaves a step only arrives at steps for which tasks are made. -/

namespace Workflow

theorem StepKind.createsTask_iff {kind : StepKind} :
    kind.createsTask = true ↔ kind ≠ .finish ∧ kind ≠ .gateway := by
  cases kind <;> simp [createsTask]

structure Definition.WellFormed (definition : Definition) : Prop where
  distinct : (definition.steps.map (·.id)).Nodup
  started : ∃ step, definition.startStep? = some step ∧ step.kind.createsTask = true
  targets : ∀ step ∈ definition.steps, ∀ transition ∈ step.transitions,
    (definition.step? transition.target).isSome = true

namespace Definition

open Text

variable {definition : Definition}

theorem whenever_eq_nil {condition : Prop} [Decidable condition] {issue : Issue} :
    whenever condition issue = [] ↔ ¬ condition := by
  unfold whenever
  split
  next holds => simp [holds]
  next fails => simp [fails]

/-- Without errors no identifier is blank, and they are different from each other and from those
seen before. -/
theorem idErrors_eq_nil {seen : List String} {steps : List Step} :
    idErrors seen steps = [] ↔
      (∀ step ∈ steps, ¬ Blank step.id ∧ step.id ∉ seen) ∧ (steps.map (·.id)).Nodup := by
  induction steps generalizing seen with
  | nil => simp [idErrors]
  | cons step rest ih =>
    -- The rest is checked against this identifier too, which makes it differ from the later ones.
    simp only [idErrors, List.forall_mem_cons, List.map_cons, List.nodup_cons]
    split
    next blank => simp [blank]
    next written =>
      split
      next known => simp [known]
      next fresh =>
        rw [ih]
        constructor
        · rintro ⟨clear, distinct⟩
          refine ⟨⟨⟨written, fresh⟩, fun other member => ?_⟩, ?_, distinct⟩
          · exact ⟨(clear other member).1,
              fun early => (clear other member).2 (List.mem_cons_of_mem _ early)⟩
          · intro again
            obtain ⟨other, member, same⟩ := List.mem_map.mp again
            exact (clear other member).2 (same ▸ List.mem_cons_self)
        · rintro ⟨⟨_, clear⟩, new, distinct⟩
          refine ⟨fun other member => ⟨(clear other member).1, ?_⟩, distinct⟩
          intro known
          rcases List.mem_cons.mp known with same | early
          · exact new (List.mem_map.mpr ⟨other, member, same⟩)
          · exact (clear other member).2 early

theorem startErrors_eq_nil :
    definition.startErrors = [] ↔
      ∃ start, definition.startStep? = some start ∧ start.kind.createsTask = true := by
  unfold startErrors
  split
  next absent => simp [absent]
  next start found => simp [found, whenever_eq_nil]

theorem transitionErrors_eq_nil {known : List String} {step : Step} {transition : Transition} :
    transitionErrors known step transition = [] ↔
      transition.target ∈ known ∧ ∀ condition, transition.guard = some condition →
        ¬ Blank condition.field ∧ transition.otherwise = false := by
  unfold transitionErrors guardErrors
  cases transition.guard with
  | none => simp [whenever_eq_nil]
  | some condition => simp [whenever_eq_nil]

theorem stepErrors_eq_nil {known : List String} {step : Step} :
    stepErrors known step = [] ↔
      step.kind.isRecognized = true ∧
        ∀ transition ∈ step.transitions, transitionErrors known step transition = [] := by
  simp [stepErrors, whenever_eq_nil]

/-- A definition has no errors exactly if no check of its parts finds one. -/
theorem errors_eq_nil :
    definition.errors = [] ↔
      (¬ Blank definition.name ∧ ¬ Blank definition.version) ∧ definition.steps ≠ [] ∧
        idErrors [] definition.steps = [] ∧ definition.startErrors = [] ∧
        definition.startKinds ≤ 1 ∧
        ∀ step ∈ definition.steps, stepErrors definition.knownIds step = [] := by
  unfold errors headerErrors startCountErrors
  split
  next none => simp [List.isEmpty_iff.mp none]
  next some =>
    simp only [List.isEmpty_iff] at some
    simp [whenever_eq_nil, some, and_assoc]

theorem mem_of_step? {id : String} {step : Step} (found : definition.step? id = some step) :
    step ∈ definition.steps :=
  List.mem_of_find?_eq_some found

theorem step?_id {id : String} {step : Step} (found : definition.step? id = some step) :
    step.id = id := by
  simpa using List.find?_some found

theorem mem_knownIds {id : String} (known : id ∈ definition.knownIds) :
    ∃ step ∈ definition.steps, step.id = id :=
  List.mem_map.mp (List.mem_filter.mp known).1

theorem wellFormed_of_isOk (valid : definition.validate.isOk = true) : definition.WellFormed := by
  have none : definition.errors = [] := List.isEmpty_iff.mp valid
  obtain ⟨_, _, ids, starts, _, steps⟩ := errors_eq_nil.mp none
  refine ⟨(idErrors_eq_nil.mp ids).2, startErrors_eq_nil.mp starts, ?_⟩
  intro step member transition leaves
  have clear := (stepErrors_eq_nil.mp (steps step member)).2 transition leaves
  obtain ⟨target, stored, same⟩ := mem_knownIds (transitionErrors_eq_nil.mp clear).1
  refine List.find?_isSome.mpr ⟨target, stored, ?_⟩
  simpa using same

end Definition

theorem Step.fired_sublist (step : Step) (data : Json.Members) :
    (step.fired data).Sublist step.transitions := by
  unfold fired
  split
  · exact List.nil_sublist _
  · simp only
    split
    · exact List.filter_sublist
    · exact List.filter_sublist

namespace Definition

variable {definition : Definition}

theorem move_step {visit : Visit} {transition : Transition} {step : Step}
    (moved : definition.move visit transition = .arrive (.step step)) :
    definition.step? transition.target = some step ∧ step.kind.createsTask = true := by
  unfold move at moved
  split at moved
  · cases moved
  next target found =>
    split at moved
    · cases moved
    · split at moved <;> cases moved
    next notFinish notGateway =>
      cases moved
      refine ⟨found, ?_⟩
      cases kind : step.kind with
      | finish => exact absurd kind notFinish
      | gateway => exact absurd kind notGateway
      | _ => rfl

theorem move_dangling {visit : Visit} {transition : Transition} {source missing : String}
    (moved : definition.move visit transition = .arrive (.dangling source missing)) :
    definition.step? transition.target = none := by
  unfold move at moved
  split at moved
  next absent => exact absent
  · split at moved
    · cases moved
    · split at moved <;> cases moved
    · cases moved

theorem move_enter {visit next : Visit} {transition : Transition}
    (moved : definition.move visit transition = .enter next) :
    definition.step? transition.target = some next.step ∧ next.step.kind = .gateway ∧
      next.step.id ∉ visit.path ∧ next.path = next.step.id :: visit.path := by
  unfold move at moved
  split at moved
  · cases moved
  next target found =>
    split at moved
    · cases moved
    next gateway =>
      split at moved
      · cases moved
      next off =>
        cases moved
        exact ⟨found, gateway, off, rfl⟩
    · cases moved

theorem mem_follow {data : Json.Members} {levels : Nat} {visits : List Visit} {arrival : Arrival}
    (own : ∀ visit ∈ visits, visit.step ∈ definition.steps)
    (member : arrival ∈ definition.follow data levels visits) :
    ∃ visit transition, visit.step ∈ definition.steps ∧ transition ∈ visit.step.transitions ∧
      definition.move visit transition = .arrive arrival := by
  induction levels generalizing visits with
  | zero => cases member
  | succ levels ih =>
    have made {move : Move} (moved : move ∈ definition.moves data visits) :
        ∃ visit transition, visit.step ∈ definition.steps ∧
          transition ∈ visit.step.transitions ∧ definition.move visit transition = move := by
      obtain ⟨visit, here, leaves⟩ := List.mem_flatMap.mp moved
      obtain ⟨transition, fires, same⟩ := List.mem_map.mp leaves
      exact ⟨visit, transition, own visit here,
        (visit.step.fired_sublist data).subset fires, same⟩
    have arrived (now : arrival ∈ (definition.moves data visits).filterMap Move.arrival?) :
        ∃ visit transition, visit.step ∈ definition.steps ∧
          transition ∈ visit.step.transitions ∧
          definition.move visit transition = .arrive arrival := by
      obtain ⟨move, moved, same⟩ := List.mem_filterMap.mp now
      cases move with
      | arrive other =>
        cases same
        exact made moved
      | enter _ => cases same
      | stop => cases same
    simp only [follow] at member
    split at member
    · exact arrived member
    rcases List.mem_append.mp member with now | later
    · exact arrived now
    · refine ih ?_ later
      intro visit entered
      obtain ⟨move, moved, same⟩ := List.mem_filterMap.mp entered
      cases move with
      | enter other =>
        cases same
        obtain ⟨_, _, _, _, moves⟩ := made moved
        exact mem_of_step? (move_enter moves).1
      | arrive _ => cases same
      | stop => cases same

/-- What leaves a step of a well-formed definition arrives at steps that make tasks, and at nothing
else. -/
theorem WellFormed.mem_arrivals (formed : definition.WellFormed) {data : Json.Members}
    {source : Step} (placed : source ∈ definition.steps) {arrival : Arrival}
    (member : arrival ∈ definition.arrivals data source) :
    ∃ step, arrival = .step step ∧ definition.step? step.id = some step ∧
      step.kind.createsTask = true := by
  have own : ∀ visit ∈ [({ step := source } : Visit)], visit.step ∈ definition.steps := by
    intro visit single
    rw [List.mem_singleton.mp single]
    exact placed
  obtain ⟨visit, transition, here, leaves, moved⟩ := mem_follow own member
  cases arrival with
  | dangling _ _ =>
    have known := formed.targets visit.step here transition leaves
    rw [move_dangling moved] at known
    cases known
  | step step =>
    obtain ⟨found, makes⟩ := move_step moved
    refine ⟨step, rfl, ?_, makes⟩
    rw [step?_id found]
    exact found

end Definition

end Workflow
