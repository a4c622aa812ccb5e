import Workflow.Proofs.KeyedRecords
import Workflow.Proofs.WellFormed

/-! The search for the steps that a start leads to is complete: what it has found is closed under
transitions. Routing never leaves what is found, so that it follows no transition of a step that is
reported as unreachable. -/

namespace Workflow

namespace Definition

variable {definition : Definition}

def Closed (definition : Definition) (seen : List String) : Prop :=
  ∀ id ∈ seen, ∀ next ∈ definition.successors id, next ∈ seen

def unseen (definition : Definition) (seen : List String) : List String :=
  (definition.steps.map (·.id)).filter fun id => id ∉ seen

theorem mem_ids_of_mem_successors {id next : String} (leads : next ∈ definition.successors id) :
    next ∈ definition.steps.map (·.id) := by
  unfold successors at leads
  split at leads
  · cases leads
  · obtain ⟨step, found⟩ := Option.isSome_iff_exists.mp (List.mem_filter.mp leads).2
    exact List.mem_map.mpr ⟨step, mem_of_step? found, step?_id found⟩

theorem unseen_append_lt {seen found : List String} {id : String} (known : id ∈ definition.unseen seen)
    (new : id ∈ found) : (definition.unseen (seen ++ found)).length < (definition.unseen seen).length := by
  have rest : definition.unseen (seen ++ found) =
      (definition.unseen seen).filter fun id => id ∉ found := by
    rw [unseen, unseen, List.filter_filter]
    refine List.filter_congr fun id _ => ?_
    simp only [List.mem_append, not_or, Bool.decide_and, Bool.and_comm]
  rw [rest]
  exact List.length_filter_lt_length_iff_exists.mpr ⟨id, known, by simpa using new⟩

theorem subset_reach (rounds : Nat) (seen : List String) : seen ⊆ definition.reach rounds seen := by
  induction rounds generalizing seen with
  | zero => exact List.Subset.refl seen
  | succ rounds ih =>
    simp only [reach]
    split
    · exact List.Subset.refl seen
    · exact List.Subset.trans (List.subset_append_left _ _) (ih _)

theorem waits_of_new {seen : List String} {next : String}
    (new : next ∈ (seen.flatMap definition.successors).filter fun id => id ∉ seen) :
    next ∈ definition.unseen seen := by
  obtain ⟨member, fresh⟩ := List.mem_filter.mp new
  obtain ⟨id, _, leads⟩ := List.mem_flatMap.mp member
  exact List.mem_filter.mpr ⟨mem_ids_of_mem_successors leads, fresh⟩

theorem closed_of_none {seen : List String}
    (none : (seen.flatMap definition.successors).filter (fun id => id ∉ seen) = []) :
    definition.Closed seen := by
  intro id here next leads
  have old := List.filter_eq_nil_iff.mp none next (List.mem_flatMap.mpr ⟨id, here, leads⟩)
  simpa using old

/-- With a round for every step that is not found yet, the search leaves nothing out. -/
theorem reach_closed {rounds : Nat} {seen : List String}
    (enough : (definition.unseen seen).length ≤ rounds) :
    definition.Closed (definition.reach rounds seen) := by
  induction rounds generalizing seen with
  | zero =>
    refine closed_of_none (List.eq_nil_iff_forall_not_mem.mpr fun next new => ?_)
    have waits : next ∈ definition.unseen seen := waits_of_new new
    rw [List.eq_nil_of_length_eq_zero (Nat.le_zero.mp enough)] at waits
    cases waits
  | succ rounds ih =>
    simp only [reach]
    split
    next none => exact closed_of_none (List.isEmpty_iff.mp none)
    next some =>
      obtain ⟨next, new⟩ := List.exists_mem_of_ne_nil _ fun none => some (List.isEmpty_iff.mpr none)
      have fewer := unseen_append_lt (waits_of_new new) (List.mem_eraseDups.mpr new)
      exact ih (by omega)

theorem start_reachable (definition : Definition) : definition.start ∈ definition.reachable :=
  subset_reach _ _ List.mem_cons_self

theorem reachable_closed (definition : Definition) : definition.Closed definition.reachable := by
  apply reach_closed
  exact Nat.le_trans (List.length_filter_le _ _) (Nat.le_of_eq (List.length_map _))

/-- The status of a definition has no part in the search. -/
theorem reachable_congr {other : Definition} (start : other.start = definition.start)
    (steps : other.steps = definition.steps) : other.reachable = definition.reachable := by
  have leads : other.successors = definition.successors := by
    funext id
    simp only [successors, lastStep?, step?, steps]
  have reach (rounds : Nat) (seen : List String) :
      other.reach rounds seen = definition.reach rounds seen := by
    induction rounds generalizing seen with
    | zero => rfl
    | succ rounds ih => simp only [Definition.reach, leads, ih]
  rw [reachable, reach, start, steps, reachable]

/-- With distinct identifiers the last step with an identifier is the only one. -/
theorem WellFormed.lastStep?_eq (formed : definition.WellFormed) {step : Step}
    (member : step ∈ definition.steps) : definition.lastStep? step.id = some step := by
  refine find?_of_mem ?_ (List.mem_reverse.mpr member)
  rw [List.map_reverse]
  exact (List.reverse_perm _).nodup_iff.mpr formed.distinct

theorem WellFormed.target_reachable (formed : definition.WellFormed) {step : Step}
    (member : step ∈ definition.steps) (here : step.id ∈ definition.reachable)
    {transition : Transition} (leaves : transition ∈ step.transitions) :
    transition.target ∈ definition.reachable := by
  apply definition.reachable_closed step.id here
  rw [successors, formed.lastStep?_eq member]
  exact List.mem_filter.mpr
    ⟨List.mem_map.mpr ⟨transition, leaves, rfl⟩, formed.targets step member transition leaves⟩

theorem not_unreachable {id : String} (here : id ∈ definition.reachable) :
    id ∉ definition.unreachable := by
  unfold unreachable
  split
  · intro member
    simpa [here] using (List.mem_filter.mp member).2
  · exact List.not_mem_nil

theorem eq_of_mem_whenever {condition : Prop} [Decidable condition] {issue other : Issue}
    (member : issue ∈ whenever condition other) : issue = other := by
  unfold whenever at member
  split at member
  · exact List.mem_singleton.mp member
  · cases member

/-- The other warnings about a step read differently from the one that it is unreachable. -/
theorem message_of_mem_stepWarnings {step : Step} {issue : Issue} (warned : issue ∈ stepWarnings step) :
    issue.message ≠ Finding.unreachable.message := by
  have ends : Finding.endHasTransitions.message ≠ Finding.unreachable.message := by
    unfold Finding.message
    decide
  have loops : Finding.endlessLoop.message ≠ Finding.unreachable.message := by
    unfold Finding.message
    decide
  have several (count : Nat) :
      (Finding.severalOtherwise count).message ≠ Finding.unreachable.message := by
    intro same
    have last := congrArg (fun text => text.toList.getLast?) same
    unfold Finding.message at last
    simp at last
  simp only [stepWarnings, List.mem_append, List.mem_flatMap] at warned
  obtain (here | ⟨_, _, here⟩) | here := warned
  · exact eq_of_mem_whenever here ▸ ends
  · exact eq_of_mem_whenever here ▸ loops
  · exact eq_of_mem_whenever here ▸ several _

/-- Whoever is warned that a step is unreachable is warned of a step that the search has not found. -/
theorem unreachable_of_warned {id : String}
    (warned : .about id .unreachable ∈ definition.validate.warnings) :
    id ∈ definition.unreachable := by
  unfold validate at warned
  simp only at warned
  split at warned
  · cases warned
  rcases List.mem_append.mp warned with early | late
  · obtain ⟨step, _, member⟩ := List.mem_flatMap.mp early
    exact absurd rfl (message_of_mem_stepWarnings member)
  · obtain ⟨found, member, same⟩ := List.mem_map.mp late
    cases same
    exact member

/-- The visits whose transitions are followed, from those of one level on. -/
def visited (definition : Definition) (data : Json.Members) : Nat → List Visit → List Visit
  | 0, _ => []
  | levels + 1, visits =>
    let moves := definition.moves data visits
    if moves.any Move.isDangling then visits
    else visits ++ definition.visited data levels (moves.filterMap Move.visit?)

def visits (definition : Definition) (data : Json.Members) (source : Step) : List Visit :=
  definition.visited data (definition.steps.length + 1) [{ step := source }]

theorem moves_append (data : Json.Members) (first last : List Visit) :
    definition.moves data (first ++ last) =
      definition.moves data first ++ definition.moves data last :=
  List.flatMap_append

theorem follow_eq (data : Json.Members) (levels : Nat) (visits : List Visit) :
    definition.follow data levels visits =
      (definition.moves data (definition.visited data levels visits)).filterMap Move.arrival? := by
  induction levels generalizing visits with
  | zero => rfl
  | succ levels ih =>
    simp only [follow, visited]
    split
    · rfl
    · rw [ih, moves_append, List.filterMap_append]

/-- What leaving a step arrives at comes of the visits alone. -/
theorem arrivals_eq (definition : Definition) (data : Json.Members) (source : Step) :
    definition.arrivals data source =
      (definition.moves data (definition.visits data source)).filterMap Move.arrival? :=
  follow_eq data _ _

theorem mem_moves {data : Json.Members} {visits : List Visit} {move : Move} :
    move ∈ definition.moves data visits ↔
      ∃ visit ∈ visits, ∃ transition ∈ visit.step.fired data, definition.move visit transition = move := by
  simp only [moves, List.mem_flatMap, List.mem_map]

structure Finds (definition : Definition) (step : Step) : Prop where
  member : step ∈ definition.steps
  reachable : step.id ∈ definition.reachable

theorem WellFormed.finds_target (formed : definition.WellFormed) {step target : Step}
    (finds : definition.Finds step) {data : Json.Members} {transition : Transition}
    (fires : transition ∈ step.fired data)
    (found : definition.step? transition.target = some target) : definition.Finds target := by
  refine ⟨mem_of_step? found, ?_⟩
  rw [step?_id found]
  exact formed.target_reachable finds.member finds.reachable ((step.fired_sublist data).subset fires)

theorem WellFormed.visited_found (formed : definition.WellFormed) {data : Json.Members}
    {levels : Nat} {visits : List Visit} (own : ∀ visit ∈ visits, definition.Finds visit.step) :
    ∀ visit ∈ definition.visited data levels visits, definition.Finds visit.step := by
  induction levels generalizing visits with
  | zero => exact fun _ member => nomatch member
  | succ levels ih =>
    simp only [visited]
    split
    · exact own
    intro visit member
    rcases List.mem_append.mp member with now | later
    · exact own visit now
    refine ih (fun next entered => ?_) visit later
    obtain ⟨move, moved, same⟩ := List.mem_filterMap.mp entered
    obtain ⟨visit, here, transition, fires, leads⟩ := mem_moves.mp moved
    cases move with
    | enter other =>
      cases same
      exact formed.finds_target (own visit here) fires (move_enter leads).1
    | arrive _ => cases same
    | stop => cases same

theorem WellFormed.visits_found (formed : definition.WellFormed) {source : Step}
    (finds : definition.Finds source) (data : Json.Members) :
    ∀ visit ∈ definition.visits data source, definition.Finds visit.step :=
  formed.visited_found fun _ member => List.mem_singleton.mp member ▸ finds

/-- From a step that is found, routing arrives at steps that are found. -/
theorem WellFormed.arrivals_found (formed : definition.WellFormed) {source step : Step}
    (finds : definition.Finds source) {data : Json.Members}
    (arrives : .step step ∈ definition.arrivals data source) : definition.Finds step := by
  rw [arrivals_eq] at arrives
  obtain ⟨move, moved, same⟩ := List.mem_filterMap.mp arrives
  obtain ⟨visit, here, transition, fires, leads⟩ := mem_moves.mp moved
  cases move with
  | arrive arrival =>
    cases same
    exact formed.finds_target (formed.visits_found finds data visit here) fires (move_step leads).1
  | enter _ => cases same
  | stop => cases same

end Definition

end Workflow
