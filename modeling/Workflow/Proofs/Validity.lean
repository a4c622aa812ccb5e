import Mathlib.Data.List.TakeWhile
import Workflow.Proofs.KeyedRecords
import Workflow.Proofs.WellFormed

/-! What validation demands. The rules for definitions are stated here one by one, without regard to
the order in which they are checked, to what a check has seen before it or to where checking ends
early. Validation reports no error exactly for the definitions that keep all of them. -/

namespace Workflow

/-- A definition that keeps every rule. -/
structure Definition.Lawful (definition : Definition) : Prop where
  named : Text.trim definition.name.toList ≠ []
  versioned : Text.trim definition.version.toList ≠ []
  inhabited : definition.steps ≠ []
  identified : ∀ step ∈ definition.steps, Text.trim step.id.toList ≠ []
  distinct : definition.steps.Pairwise fun first later => first.id ≠ later.id
  started : ∃ step ∈ definition.steps, step.id = definition.start ∧
    step.kind ≠ .finish ∧ step.kind ≠ .gateway
  startedOnce : definition.steps.Pairwise fun first later =>
    ¬ (first.kind = .start ∧ later.kind = .start)
  recognized : ∀ step ∈ definition.steps, step.kind ∈ StepKind.recognizedKinds
  targets : ∀ step ∈ definition.steps, ∀ transition ∈ step.transitions,
    ∃ target ∈ definition.steps, target.id = transition.target
  fields : ∀ step ∈ definition.steps, ∀ transition ∈ step.transitions, ∀ condition,
    transition.guard = some condition → Text.trim condition.field.toList ≠ []
  exclusive : ∀ step ∈ definition.steps, ∀ transition ∈ step.transitions,
    ¬ (transition.guard.isSome = true ∧ transition.otherwise = true)

theorem Text.trim_eq_nil {chars : List Char} :
    trim chars = [] ↔ ∀ c ∈ chars, isBlank c = true := by
  have kept : trim chars = [] ↔ ∀ c ∈ trimStart chars, isBlank c = true := by
    simp only [trim, trimEnd, trimStart, List.reverse_eq_nil_iff, List.dropWhile_eq_nil_iff,
      List.mem_reverse]
  rw [kept]
  refine ⟨fun blank c member => ?_, fun blank c member => ?_⟩
  · rw [← List.takeWhile_append_dropWhile (p := isBlank) (l := chars)] at member
    rcases List.mem_append.mp member with front | rest
    · exact List.mem_takeWhile_imp front
    · exact blank c rest
  · exact blank c ((List.dropWhile_sublist _).subset member)

theorem Text.not_blank_iff {text : String} : ¬ Blank text ↔ trim text.toList ≠ [] :=
  not_congr trim_eq_nil.symm

theorem StepKind.isRecognized_iff {kind : StepKind} :
    kind.isRecognized = true ↔ kind ∈ recognizedKinds := by
  cases kind <;> simp [isRecognized, recognizedKinds]

theorem countP_le_one {α : Type} {p : α → Bool} {items : List α} :
    items.countP p ≤ 1 ↔ items.Pairwise fun first later => ¬ (p first = true ∧ p later = true) := by
  induction items with
  | nil => simp
  | cons item rest ih =>
    rw [List.pairwise_cons, ← ih]
    cases held : p item with
    | false => simp [held]
    | true =>
      have alone : (∀ later ∈ rest, ¬ (true = true ∧ p later = true)) ↔ rest.countP p = 0 := by
        simp [List.countP_eq_zero]
      rw [List.countP_cons_of_pos held, alone]
      omega

namespace Definition

variable {definition : Definition}

theorem startKinds_le_one :
    definition.startKinds ≤ 1 ↔ definition.steps.Pairwise fun first later =>
      ¬ (first.kind = .start ∧ later.kind = .start) := by
  simp only [startKinds, countP_le_one, decide_eq_true_eq]

/-- With distinct identifiers, the start step is the one with the identifier of the start. -/
theorem startStep?_makes (distinct : (definition.steps.map (·.id)).Nodup) :
    (∃ start, definition.startStep? = some start ∧ start.kind.createsTask = true) ↔
      ∃ step ∈ definition.steps, step.id = definition.start ∧
        step.kind ≠ .finish ∧ step.kind ≠ .gateway := by
  constructor
  · rintro ⟨start, found, makes⟩
    exact ⟨start, mem_of_step? found, step?_id found, StepKind.createsTask_iff.mp makes⟩
  · rintro ⟨step, member, same, makes⟩
    refine ⟨step, ?_, StepKind.createsTask_iff.mpr makes⟩
    rw [startStep?, step?, ← same]
    exact find?_of_mem distinct member

theorem mem_knownIds_iff (written : ∀ step ∈ definition.steps, ¬ Text.Blank step.id) {id : String} :
    id ∈ definition.knownIds ↔ ∃ step ∈ definition.steps, step.id = id := by
  refine ⟨mem_knownIds, ?_⟩
  rintro ⟨step, member, rfl⟩
  exact List.mem_filter.mpr
    ⟨List.mem_map.mpr ⟨step, member, rfl⟩, decide_eq_true (written step member)⟩

/-- A step is reported for nothing if its kind is recognized and its transitions lead to steps,
under conditions that name a field and are not kept for when no other transition fires. -/
theorem stepErrors_eq_nil_iff (written : ∀ step ∈ definition.steps, ¬ Text.Blank step.id)
    {step : Step} :
    stepErrors definition.knownIds step = [] ↔
      step.kind ∈ StepKind.recognizedKinds ∧ ∀ transition ∈ step.transitions,
        (∃ target ∈ definition.steps, target.id = transition.target) ∧
        (∀ condition, transition.guard = some condition → Text.trim condition.field.toList ≠ []) ∧
        ¬ (transition.guard.isSome = true ∧ transition.otherwise = true) := by
  rw [stepErrors_eq_nil, StepKind.isRecognized_iff]
  refine and_congr_right fun _ => forall₂_congr fun transition _ => ?_
  rw [transitionErrors_eq_nil, mem_knownIds_iff written]
  refine and_congr_right fun _ => ?_
  cases transition.guard with
  | none => simp
  | some condition => simp [Text.not_blank_iff]

/-- Validation reports no error exactly for the definitions that keep every rule. -/
theorem no_errors_iff_lawful : definition.validate.errors = [] ↔ definition.Lawful := by
  have reported : definition.validate.errors = definition.errors := rfl
  rw [reported, errors_eq_nil, idErrors_eq_nil, startErrors_eq_nil, startKinds_le_one,
    Text.not_blank_iff, Text.not_blank_iff]
  constructor
  · rintro ⟨⟨named, versioned⟩, inhabited, ⟨clear, distinct⟩, starts, startedOnce, steps⟩
    have written : ∀ step ∈ definition.steps, ¬ Text.Blank step.id :=
      fun step member => (clear step member).1
    have own := fun step member => (stepErrors_eq_nil_iff written).mp (steps step member)
    exact {
      named, versioned, inhabited, startedOnce
      identified := fun step member => Text.not_blank_iff.mp (written step member)
      distinct := List.pairwise_map.mp distinct
      started := (startStep?_makes distinct).mp starts
      recognized := fun step member => (own step member).1
      targets := fun step member transition leaves => ((own step member).2 transition leaves).1
      fields := fun step member transition leaves => ((own step member).2 transition leaves).2.1
      exclusive := fun step member transition leaves =>
        ((own step member).2 transition leaves).2.2 }
  · intro lawful
    have written : ∀ step ∈ definition.steps, ¬ Text.Blank step.id :=
      fun step member => Text.not_blank_iff.mpr (lawful.identified step member)
    have distinct : (definition.steps.map (·.id)).Nodup := List.pairwise_map.mpr lawful.distinct
    refine ⟨⟨lawful.named, lawful.versioned⟩, lawful.inhabited,
      ⟨fun step member => ⟨written step member, List.not_mem_nil⟩, distinct⟩,
      (startStep?_makes distinct).mpr lawful.started, lawful.startedOnce, fun step member => ?_⟩
    exact (stepErrors_eq_nil_iff written).mpr ⟨lawful.recognized step member,
      fun transition leaves => ⟨lawful.targets step member transition leaves,
        lawful.fields step member transition leaves,
        lawful.exclusive step member transition leaves⟩⟩

end Definition

end Workflow
