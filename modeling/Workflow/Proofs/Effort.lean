import Mathlib.Algebra.GroupWithZero.Nat
import Mathlib.Algebra.Order.BigOperators.Group.List
import Mathlib.Algebra.Order.Group.Nat
import Workflow.Proofs.WellFormed

/-! A measure for definitions without cycles: how many tasks at most can come of a step, if every
transition fires. Routing only makes less of a step than that, whatever the data says. -/

namespace Workflow.Definition

def Leads (definition : Definition) (source target : String) : Prop :=
  ∃ step, definition.step? source = some step ∧ step.kind ≠ .finish ∧
    ∃ transition ∈ step.transitions, transition.target = target

def Acyclic (definition : Definition) : Prop :=
  ∀ id, ¬ Relation.TransGen definition.Leads id id

theorem acyclic_of_rank {definition : Definition} (rank : String → Nat)
    (rises : ∀ step ∈ definition.steps, ∀ transition ∈ step.transitions,
      rank step.id < rank transition.target) : definition.Acyclic := by
  have climbs : ∀ source target, Relation.TransGen definition.Leads source target →
      rank source < rank target := by
    intro source target path
    have edge : ∀ source target, definition.Leads source target → rank source < rank target := by
      intro source target steps
      obtain ⟨step, found, _, transition, member, same⟩ := steps
      rw [← same, ← step?_id found]
      exact rises step (mem_of_step? found) transition member
    induction path with
    | single leads => exact edge _ _ leads
    | tail _ leads ih => exact Nat.lt_trans ih (edge _ _ leads)
  exact fun id cycle => Nat.lt_irrefl _ (climbs id id cycle)

/-- The tasks that entering a step can make, counted along paths of a limited length. -/
def effortWithin (definition : Definition) : Nat → String → Nat
  | 0, _ => 0
  | depth + 1, id =>
    match definition.step? id with
    | none => 0
    | some step =>
      if step.kind = .finish then 0
      else
        (if step.kind.createsTask then 1 else 0) +
          (step.transitions.map fun transition =>
            definition.effortWithin depth transition.target).sum

/-- The tasks that entering a step can make. Without cycles no path is longer than there are steps. -/
def effort (definition : Definition) (id : String) : Nat :=
  definition.effortWithin definition.steps.length id

def effortAfter (definition : Definition) (step : Step) : Nat :=
  (step.transitions.map fun transition => definition.effort transition.target).sum

variable {definition : Definition}

/-- A path along which all steps lead to the next one, none of them met before. -/
structure Path (definition : Definition) (path : List String) (id : String) : Prop where
  distinct : path.Nodup
  known : path ⊆ definition.steps.map (·.id)
  leads : ∀ other ∈ path, Relation.TransGen definition.Leads other id

theorem Path.nil (id : String) : definition.Path [] id :=
  ⟨List.nodup_nil, fun _ member => (nomatch member), fun _ member => nomatch member⟩

theorem Path.here {path : List String} {id : String} {step : Step} (onward : definition.Path path id)
    (acyclic : definition.Acyclic) (found : definition.step? id = some step) :
    (id :: path).Nodup ∧ id :: path ⊆ definition.steps.map (·.id) := by
  refine ⟨List.nodup_cons.mpr ⟨fun member => acyclic id (onward.leads id member),
    onward.distinct⟩, ?_⟩
  intro other member
  rcases List.mem_cons.mp member with same | earlier
  · rw [same, ← step?_id found]
    exact List.mem_map.mpr ⟨step, mem_of_step? found, rfl⟩
  · exact onward.known earlier

theorem Path.next {path : List String} {id target : String} {step : Step}
    (onward : definition.Path path id) (acyclic : definition.Acyclic)
    (found : definition.step? id = some step) (leads : definition.Leads id target) :
    definition.Path (id :: path) target := by
  obtain ⟨distinct, known⟩ := onward.here acyclic found
  refine ⟨distinct, known, ?_⟩
  intro other member
  rcases List.mem_cons.mp member with same | earlier
  · rw [same]
    exact .single leads
  · exact .tail (onward.leads other earlier) leads

/-- Behind a path that is as long as there are steps there is nothing more to count. -/
theorem effortWithin_succ (acyclic : definition.Acyclic) {depth : Nat} {id : String}
    {path : List String} (onward : definition.Path path id)
    (long : definition.steps.length ≤ depth + path.length) :
    definition.effortWithin depth id = definition.effortWithin (depth + 1) id := by
  induction depth generalizing id path with
  | zero =>
    cases found : definition.step? id with
    | none => simp only [effortWithin, found]
    | some step =>
      obtain ⟨distinct, known⟩ := onward.here acyclic found
      have bound := distinct.length_le_of_subset known
      rw [List.length_cons, List.length_map] at bound
      omega
  | succ depth ih =>
    cases found : definition.step? id with
    | none => simp only [effortWithin, found]
    | some step =>
      rw [effortWithin, effortWithin]
      simp only [found]
      split
      · rfl
      next leaves =>
        have same : step.transitions.map (fun transition =>
              definition.effortWithin depth transition.target) =
            step.transitions.map fun transition =>
              definition.effortWithin (depth + 1) transition.target := by
          refine List.map_congr_left fun transition member => ?_
          have edge : definition.Leads id transition.target :=
            ⟨step, found, leaves, transition, member, rfl⟩
          apply ih (onward.next acyclic found edge)
          rw [List.length_cons]
          omega
        rw [same]

/-- What entering a step can make is one task for the step, where it makes any, and what leaving it
can make. -/
theorem effort_eq (acyclic : definition.Acyclic) {id : String} {step : Step}
    (found : definition.step? id = some step) :
    definition.effort id =
      if step.kind = .finish then 0
      else (if step.kind.createsTask then 1 else 0) + definition.effortAfter step := by
  rw [effort, effortWithin_succ acyclic (.nil id) (Nat.le_refl _), effortWithin]
  simp only [found]
  rfl

theorem effort_finish (acyclic : definition.Acyclic) {id : String} {step : Step}
    (found : definition.step? id = some step) (ends : step.kind = .finish) :
    definition.effort id = 0 := by
  rw [effort_eq acyclic found, if_pos ends]

theorem effort_gateway (acyclic : definition.Acyclic) {id : String} {step : Step}
    (found : definition.step? id = some step) (routes : step.kind = .gateway) :
    definition.effort id = definition.effortAfter step := by
  rw [effort_eq acyclic found, routes]
  simp [StepKind.createsTask]

theorem effort_task (acyclic : definition.Acyclic) {id : String} {step : Step}
    (found : definition.step? id = some step) (makes : step.kind.createsTask = true) :
    definition.effort id = 1 + definition.effortAfter step := by
  have goes : step.kind ≠ .finish := by
    intro ends
    rw [ends] at makes
    cases makes
  rw [effort_eq acyclic found, if_neg goes, makes, if_pos rfl]

def effortOf (definition : Definition) : Arrival → Nat
  | .step step => definition.effort step.id
  | .dangling .. => 0

def effortOfMove (definition : Definition) : Move → Nat
  | .arrive arrival => definition.effortOf arrival
  | .enter visit => definition.effortAfter visit.step
  | .stop => 0

theorem effortOfMove_le (acyclic : definition.Acyclic) (visit : Visit) (transition : Transition) :
    definition.effortOfMove (definition.move visit transition) ≤
      definition.effort transition.target := by
  unfold move
  split
  · exact Nat.zero_le _
  next target found =>
    split
    · exact Nat.zero_le _
    next routes =>
      split
      · exact Nat.zero_le _
      · rw [effort_gateway acyclic found routes]
        exact Nat.le_refl _
    · rw [effortOfMove, effortOf, step?_id found]

theorem effort_moves_le (acyclic : definition.Acyclic) (data : Json.Members) (visits : List Visit) :
    ((definition.moves data visits).map definition.effortOfMove).sum ≤
      (visits.map fun visit => definition.effortAfter visit.step).sum := by
  induction visits with
  | nil => exact Nat.le_refl _
  | cons visit rest ih =>
    rw [moves, List.flatMap_cons, List.map_append, List.sum_append, List.map_cons, List.sum_cons]
    refine Nat.add_le_add ?_ ih
    rw [List.map_map]
    have fires := ((visit.step.fired_sublist data).map fun transition =>
      definition.effort transition.target).sum_le_sum fun _ _ => Nat.zero_le _
    refine Nat.le_trans (List.sum_le_sum fun transition _ => ?_) fires
    exact effortOfMove_le acyclic visit transition

theorem effort_moves_split (definition : Definition) (moves : List Move) :
    (moves.map definition.effortOfMove).sum =
      ((moves.filterMap Move.arrival?).map definition.effortOf).sum +
        ((moves.filterMap Move.visit?).map fun visit => definition.effortAfter visit.step).sum := by
  induction moves with
  | nil => rfl
  | cons move rest ih =>
    cases move with
    | arrive arrival =>
      simp only [List.map_cons, List.sum_cons, ih, List.filterMap_cons, Move.arrival?, Move.visit?,
        effortOfMove]
      omega
    | enter visit =>
      simp only [List.map_cons, List.sum_cons, ih, List.filterMap_cons, Move.arrival?, Move.visit?,
        effortOfMove]
      omega
    | stop =>
      simp only [List.map_cons, List.sum_cons, ih, List.filterMap_cons, Move.arrival?, Move.visit?,
        effortOfMove]
      omega

/-- What comes of following visits is no more than what leaving the visited steps can make. -/
theorem effort_follow_le (acyclic : definition.Acyclic) (data : Json.Members) (levels : Nat)
    (visits : List Visit) :
    ((definition.follow data levels visits).map definition.effortOf).sum ≤
      (visits.map fun visit => definition.effortAfter visit.step).sum := by
  induction levels generalizing visits with
  | zero => exact Nat.zero_le _
  | succ levels ih =>
    have level := effort_moves_le acyclic data visits
    rw [effort_moves_split] at level
    simp only [follow]
    split
    · omega
    · have later := ih ((definition.moves data visits).filterMap Move.visit?)
      rw [List.map_append, List.sum_append]
      omega

theorem effort_arrivals_le (acyclic : definition.Acyclic) (data : Json.Members) (source : Step) :
    ((definition.arrivals data source).map definition.effortOf).sum ≤
      definition.effortAfter source := by
  have bound := effort_follow_le acyclic data (definition.steps.length + 1) [{ step := source }]
  rw [List.map_singleton, List.sum_singleton] at bound
  exact bound

end Workflow.Definition
