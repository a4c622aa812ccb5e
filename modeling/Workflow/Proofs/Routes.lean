import Mathlib.Data.List.Shortlex
import Workflow.Proofs.Reachability

/-! Routing finds routes. A route is a sequence of transitions that fire one after another, from a
step through gateways that are all different to a step for which a task is made. What leaving a step
arrives at is the ends of all routes from there, each once, the shorter routes first and those of
one length in the order in which their transitions are declared. -/

namespace Workflow

/-- A transition is due whose condition holds, unless it is kept for when no other one fires; then
it is due exactly when there is none whose condition holds. -/
def Step.Due (step : Step) (data : Json.Members) (transition : Transition) : Prop :=
  if transition.otherwise = true then
    ∀ other ∈ step.transitions, other.otherwise = false → guardHolds other.guard data = false
  else guardHolds transition.guard data = true

instance (step : Step) (data : Json.Members) (transition : Transition) :
    Decidable (step.Due data transition) := by
  unfold Step.Due
  infer_instance

structure Step.Fires (step : Step) (data : Json.Members) (place : Nat) (transition : Transition) :
    Prop where
  declared : step.transitions[place]? = some transition
  due : step.Due data transition

namespace Definition

variable (definition : Definition) (data : Json.Members)

/-- A way from a step, by the identifiers of the gateways that it enters and the places of its
transitions, to a step that is no end and no gateway. -/
inductive Way : Step → List String → List Nat → Step → Prop where
  | arrive {source last : Step} {place : Nat} {transition : Transition}
      (fires : source.Fires data place transition)
      (found : definition.step? transition.target = some last)
      (lasts : last.kind ≠ .finish ∧ last.kind ≠ .gateway) : Way source [] [place] last
  | enter {source gateway last : Step} {place : Nat} {transition : Transition}
      {gateways : List String} {places : List Nat} (fires : source.Fires data place transition)
      (found : definition.step? transition.target = some gateway)
      (routes : gateway.kind = .gateway) (onward : Way gateway gateways places last) :
      Way source (gateway.id :: gateways) (place :: places) last

/-- A way that enters no gateway twice. -/
def Route (source : Step) (places : List Nat) (last : Step) : Prop :=
  ∃ gateways, definition.Way data source gateways places last ∧ gateways.Nodup

/-- All routes from a step, each once, in their order. -/
structure Routes (source : Step) (routes : List (List Nat × Step)) : Prop where
  ordered : routes.Pairwise fun first later => List.Shortlex (· < ·) first.1 later.1
  complete : ∀ places last, (places, last) ∈ routes ↔ definition.Route data source places last

end Definition

variable {definition : Definition} {data : Json.Members}

/-- The transitions of a step that fire are those that are due, unless the step ends a branch. -/
theorem Step.fired_eq (step : Step) (data : Json.Members) :
    step.fired data = step.transitions.filter fun transition =>
      step.kind ≠ .finish ∧ step.Due data transition := by
  unfold fired
  by_cases ends : step.kind = .finish
  · simp [ends]
  simp only [if_neg ends]
  split
  next none =>
    have unmet : ∀ other ∈ step.transitions, other.isSatisfied data = false := by
      simpa using none
    refine List.filter_congr fun transition member => ?_
    have own := unmet transition member
    cases kept : transition.otherwise with
    | true =>
      have due : step.Due data transition := by
        rw [Due, if_pos kept]
        intro other declared plain
        simpa [Transition.isSatisfied, plain] using unmet other declared
      simp [ends, due]
    | false =>
      have idle : ¬ step.Due data transition := by
        simpa [Due, kept, Transition.isSatisfied] using own
      simp [idle]
  next some =>
    obtain ⟨other, declared, met⟩ : ∃ other ∈ step.transitions, other.isSatisfied data = true := by
      simpa using some
    have plain : other.otherwise = false ∧ guardHolds other.guard data = true := by
      simpa [Transition.isSatisfied] using met
    refine List.filter_congr fun transition _ => ?_
    cases kept : transition.otherwise with
    | true =>
      have idle : ¬ step.Due data transition := by
        rw [Due, if_pos kept]
        exact fun unmet => nomatch plain.2.symm.trans (unmet other declared plain.1)
      simp [Transition.isSatisfied, kept, idle]
    | false => simp [Transition.isSatisfied, kept, Due, ends]

def Step.firedAt (step : Step) (data : Json.Members) : List (Transition × Nat) :=
  step.transitions.zipIdx.filter fun entry => step.kind ≠ .finish ∧ step.Due data entry.1

theorem Step.firedAt_map_fst (step : Step) (data : Json.Members) :
    (step.firedAt data).map Prod.fst = step.fired data := by
  have named := (step.transitions.zipIdx).filter_map (f := Prod.fst)
    (p := fun transition => decide (step.kind ≠ .finish ∧ step.Due data transition))
  rw [List.zipIdx_map_fst] at named
  rw [fired_eq, named]
  rfl

theorem Step.mem_firedAt {step : Step} (leaves : step.kind ≠ .finish) {place : Nat}
    {transition : Transition} :
    (transition, place) ∈ step.firedAt data ↔ step.Fires data place transition := by
  have listed : (transition, place) ∈ step.transitions.zipIdx ↔
      step.transitions[place]? = some transition := List.mem_zipIdx_iff_getElem?
  simp only [firedAt, List.mem_filter, listed, decide_eq_true_eq]
  exact ⟨fun ⟨declared, _, due⟩ => ⟨declared, due⟩,
    fun fires => ⟨fires.declared, leaves, fires.due⟩⟩

theorem Step.firedAt_ordered (step : Step) (data : Json.Members) :
    (step.firedAt data).Pairwise fun first later => first.2 < later.2 := by
  have places : (step.transitions.zipIdx.map Prod.snd).Pairwise (· < ·) := by
    rw [List.zipIdx_map_snd]
    exact List.pairwise_lt_range'
  exact (List.pairwise_map.mp places).filter _

namespace Move

def last? : Move → Option Step
  | arrive (.step last) => some last
  | _ => none

theorem last?_eq_some {move : Move} {last : Step} :
    move.last? = some last ↔ move = .arrive (.step last) := by
  unfold last?
  split
  · simp
  next other => exact ⟨nofun, fun same => absurd same (other last)⟩

theorem visit?_eq_some {move : Move} {next : Visit} : move.visit? = some next ↔ move = .enter next := by
  cases move with
  | enter visit => simp [visit?]
  | arrive _ => simp [visit?]
  | stop => simp [visit?]

theorem arrival?_eq {move : Move} (whole : move.isDangling = false) :
    move.arrival? = move.last?.map .step := by
  cases move with
  | arrive arrival =>
    cases arrival with
    | step last => rfl
    | dangling _ _ => cases whole
  | enter _ => rfl
  | stop => rfl

end Move

def Arrival.ofRoute (route : List Nat × Step) : Arrival :=
  .step route.2

namespace Definition

theorem move_eq_step {visit : Visit} {transition : Transition} {last : Step} :
    definition.move visit transition = .arrive (.step last) ↔
      definition.step? transition.target = some last ∧
        last.kind ≠ .finish ∧ last.kind ≠ .gateway := by
  rw [← StepKind.createsTask_iff]
  refine ⟨move_step, fun ⟨found, makes⟩ => ?_⟩
  obtain ⟨goesOn, asksSomebody⟩ := StepKind.createsTask_iff.mp makes
  unfold move
  simp only [found]

theorem move_eq_enter {visit : Visit} {transition : Transition} {next : Visit} :
    definition.move visit transition = .enter next ↔
      definition.step? transition.target = some next.step ∧ next.step.kind = .gateway ∧
        next.step.id ∉ visit.path ∧ next.path = next.step.id :: visit.path := by
  refine ⟨move_enter, fun ⟨found, gateway, off, path⟩ => ?_⟩
  unfold move
  simp only [found, gateway, if_neg off]
  rw [← path]

/-- The routes on from a visit that enter a given number of gateways, none of them on its path. -/
def routesThrough (definition : Definition) (data : Json.Members) :
    Nat → Visit → List (List Nat × Step)
  | 0, visit => (visit.step.firedAt data).filterMap fun entry =>
    (definition.move visit entry.1).last?.map fun last => ([entry.2], last)
  | count + 1, visit => (visit.step.firedAt data).flatMap fun entry =>
    (definition.move visit entry.1).visit?.toList.flatMap fun next =>
      (routesThrough definition data count next).map fun route => (entry.2 :: route.1, route.2)

theorem mem_routesThrough_zero {visit : Visit} {places : List Nat} {last : Step} :
    (places, last) ∈ definition.routesThrough data 0 visit ↔
      ∃ transition place, (transition, place) ∈ visit.step.firedAt data ∧
        definition.move visit transition = .arrive (.step last) ∧ [place] = places := by
  simp only [routesThrough, List.mem_filterMap, Prod.exists, Option.map_eq_some_iff,
    Move.last?_eq_some, Prod.mk.injEq, exists_eq_right_right]

theorem mem_routesThrough_succ {count : Nat} {visit : Visit} {places : List Nat} {last : Step} :
    (places, last) ∈ definition.routesThrough data (count + 1) visit ↔
      ∃ transition place, (transition, place) ∈ visit.step.firedAt data ∧
        ∃ next, definition.move visit transition = .enter next ∧
          ∃ onward, (onward, last) ∈ definition.routesThrough data count next ∧
            place :: onward = places := by
  simp only [routesThrough, List.mem_flatMap, List.mem_map, Prod.exists, Option.mem_toList,
    Move.visit?_eq_some, Prod.mk.injEq, exists_eq_right_right]

/-- A route enters as many gateways as it is told to, and follows one transition more. -/
theorem length_of_mem_routesThrough {count : Nat} {visit : Visit} {places : List Nat} {last : Step}
    (member : (places, last) ∈ definition.routesThrough data count visit) :
    places.length = count + 1 := by
  induction count generalizing visit places with
  | zero =>
    obtain ⟨_, _, _, _, rfl⟩ := mem_routesThrough_zero.mp member
    rfl
  | succ count ih =>
    obtain ⟨_, _, _, _, _, _, later, rfl⟩ := mem_routesThrough_succ.mp member
    rw [List.length_cons, ih later]

/-- What is enumerated are the ways that enter so many gateways, all different and none of them on
the path already. -/
theorem mem_routesThrough {count : Nat} {visit : Visit} (leaves : visit.step.kind ≠ .finish)
    {places : List Nat} {last : Step} :
    (places, last) ∈ definition.routesThrough data count visit ↔
      ∃ gateways, definition.Way data visit.step gateways places last ∧ gateways.length = count ∧
        gateways.Nodup ∧ ∀ id ∈ gateways, id ∉ visit.path := by
  -- The path grows by each gateway that is entered: being off the path of the next visit is being
  -- off this one's and different from the gateway there.
  induction count generalizing visit places with
  | zero =>
    rw [mem_routesThrough_zero]
    constructor
    · rintro ⟨transition, place, fired, moved, rfl⟩
      obtain ⟨found, lasts⟩ := move_eq_step.mp moved
      exact ⟨[], .arrive ((Step.mem_firedAt leaves).mp fired) found lasts, rfl, List.nodup_nil,
        fun _ none => nomatch none⟩
    · rintro ⟨gateways, way, short, _, _⟩
      cases way with
      | arrive fires found lasts =>
        exact ⟨_, _, (Step.mem_firedAt leaves).mpr fires, move_eq_step.mpr ⟨found, lasts⟩, rfl⟩
      | enter _ _ _ _ => cases short
  | succ count ih =>
    rw [mem_routesThrough_succ]
    constructor
    · rintro ⟨transition, place, fired, next, moved, onward, later, rfl⟩
      obtain ⟨found, gateway, off, path⟩ := move_enter moved
      have goesOn : next.step.kind ≠ .finish := by rw [gateway]; nofun
      obtain ⟨gateways, way, length, distinct, fresh⟩ := (ih goesOn).mp later
      rw [path] at fresh
      refine ⟨next.step.id :: gateways,
        .enter ((Step.mem_firedAt leaves).mp fired) found gateway way, congrArg (· + 1) length,
        List.nodup_cons.mpr ⟨fun again => fresh _ again List.mem_cons_self, distinct⟩, ?_⟩
      intro id member
      rcases List.mem_cons.mp member with rfl | behind
      · exact off
      · exact fun early => fresh id behind (List.mem_cons_of_mem _ early)
    · rintro ⟨gateways, way, length, distinct, fresh⟩
      cases way with
      | arrive _ _ _ => cases length
      | @enter _ gateway _ place transition gateways onward fires found routes way =>
        obtain ⟨new, distinct⟩ := List.nodup_cons.mp distinct
        obtain ⟨off, fresh⟩ := List.forall_mem_cons.mp fresh
        let next : Visit := { step := gateway, path := gateway.id :: visit.path }
        have goesOn : next.step.kind ≠ .finish := by rw [routes]; nofun
        refine ⟨transition, place, (Step.mem_firedAt leaves).mpr fires, next,
          move_eq_enter.mpr ⟨found, routes, off, rfl⟩, onward, ?_, rfl⟩
        refine (ih goesOn).mpr
          ⟨gateways, way, Nat.succ.inj length, distinct, fun id member early => ?_⟩
        rcases List.mem_cons.mp early with rfl | early
        · exact new member
        · exact fresh id member early

/-- Routes of one length come in the order of their places. -/
theorem routesThrough_ordered (count : Nat) (visit : Visit) :
    (definition.routesThrough data count visit).Pairwise fun first later =>
      List.Shortlex (· < ·) first.1 later.1 := by
  induction count generalizing visit with
  | zero =>
    refine List.Pairwise.filterMap _ ?_ (visit.step.firedAt_ordered data)
    intro first second before start started last lasted
    obtain ⟨_, _, rfl⟩ := Option.map_eq_some_iff.mp started
    obtain ⟨_, _, rfl⟩ := Option.map_eq_some_iff.mp lasted
    exact (List.shortlex_singleton_iff _ _).mpr before
  | succ count ih =>
    rw [routesThrough, List.pairwise_flatMap]
    -- Behind one first transition the rest decides, and between two of them their places do.
    refine ⟨fun entry _ => ?_, ?_⟩
    · cases (definition.move visit entry.1).visit? with
      | none => exact List.Pairwise.nil
      | some next =>
        rw [Option.toList_some, List.flatMap_singleton, List.pairwise_map]
        exact (ih next).imp List.Shortlex.cons
    · refine (visit.step.firedAt_ordered data).imp ?_
      intro first second before start started last lasted
      obtain ⟨_, _, starts⟩ := List.mem_flatMap.mp started
      obtain ⟨_, _, lasts⟩ := List.mem_flatMap.mp lasted
      obtain ⟨onward, later, rfl⟩ := List.mem_map.mp starts
      obtain ⟨other, behind, rfl⟩ := List.mem_map.mp lasts
      refine .of_lex ?_ (.rel before)
      simp only [List.length_cons, length_of_mem_routesThrough later,
        length_of_mem_routesThrough behind]

theorem moves_eq (data : Json.Members) (visits : List Visit) :
    definition.moves data visits = visits.flatMap fun visit =>
      (visit.step.firedAt data).map fun entry => definition.move visit entry.1 := by
  refine List.flatMap_congr fun visit _ => ?_
  rw [← Step.firedAt_map_fst, List.map_map]
  rfl

/-- What a level of visits arrives at are the ends of the routes through no gateway. -/
theorem moves_arrivals {visits : List Visit}
    (whole : (definition.moves data visits).any Move.isDangling = false) :
    (definition.moves data visits).filterMap Move.arrival? =
      (visits.flatMap (definition.routesThrough data 0)).map Arrival.ofRoute := by
  have known : ∀ move ∈ definition.moves data visits, move.arrival? = move.last?.map .step := by
    intro move member
    exact Move.arrival?_eq (by simpa using List.any_eq_false.mp whole move member)
  rw [List.filterMap_congr known, moves_eq, List.filterMap_flatMap, List.map_flatMap]
  refine List.flatMap_congr fun visit _ => ?_
  simp only [routesThrough, List.filterMap_map, List.map_filterMap, Option.map_map,
    Function.comp_def, Arrival.ofRoute]

/-- The routes through a gateway and more are those that go on from the visits of the next level. -/
theorem moves_visits (count : Nat) (visits : List Visit) :
    (((definition.moves data visits).filterMap Move.visit?).flatMap
        (definition.routesThrough data count)).map Arrival.ofRoute =
      (visits.flatMap (definition.routesThrough data (count + 1))).map Arrival.ofRoute := by
  rw [moves_eq, List.filterMap_flatMap, List.flatMap_assoc, List.map_flatMap, List.map_flatMap]
  refine List.flatMap_congr fun visit _ => ?_
  simp only [routesThrough, List.filterMap_eq_flatMap_toList, List.flatMap_assoc, List.flatMap_map,
    List.map_flatMap, List.map_map]
  rfl

theorem WellFormed.moves_whole (formed : definition.WellFormed) {visits : List Visit}
    (own : ∀ visit ∈ visits, visit.step ∈ definition.steps) :
    (definition.moves data visits).any Move.isDangling = false := by
  refine List.any_eq_false.mpr fun move member dangling => ?_
  obtain ⟨visit, here, transition, fires, rfl⟩ := mem_moves.mp member
  have known := formed.targets visit.step (own visit here) transition
    ((visit.step.fired_sublist data).subset fires)
  cases moved : definition.move visit transition with
  | enter _ => rw [moved] at dangling; cases dangling
  | stop => rw [moved] at dangling; cases dangling
  | arrive arrival =>
    cases arrival with
    | step _ => rw [moved] at dangling; cases dangling
    | dangling _ _ =>
      rw [move_dangling moved] at known
      cases known

/-- Following levels of visits is following the routes from them, the shorter ones first. -/
theorem WellFormed.follow_routes (formed : definition.WellFormed) (levels : Nat)
    {visits : List Visit} (own : ∀ visit ∈ visits, visit.step ∈ definition.steps) :
    definition.follow data levels visits =
      ((List.range levels).flatMap fun count =>
        visits.flatMap (definition.routesThrough data count)).map Arrival.ofRoute := by
  induction levels generalizing visits with
  | zero => rfl
  | succ levels ih =>
    have whole : (definition.moves data visits).any Move.isDangling = false :=
      formed.moves_whole own
    have onward : ∀ visit ∈ (definition.moves data visits).filterMap Move.visit?,
        visit.step ∈ definition.steps := by
      intro next entered
      obtain ⟨move, moved, same⟩ := List.mem_filterMap.mp entered
      obtain ⟨_, _, _, _, rfl⟩ := mem_moves.mp moved
      exact mem_of_step? (move_enter (Move.visit?_eq_some.mp same)).1
    simp only [follow, whole, Bool.false_eq_true, if_false, ih onward, moves_arrivals whole]
    rw [List.range_succ_eq_map, List.flatMap_cons, List.map_append, List.flatMap_map]
    simp only [List.map_flatMap (l := List.range levels), moves_visits]

theorem Way.gateways_subset {source last : Step} {gateways : List String} {places : List Nat}
    (way : definition.Way data source gateways places last) :
    gateways ⊆ definition.steps.map (·.id) := by
  induction way with
  | arrive _ _ _ => exact List.nil_subset _
  | enter _ found _ _ ih =>
    exact List.cons_subset.mpr ⟨List.mem_map.mpr ⟨_, mem_of_step? found, rfl⟩, ih⟩

/-- The routes from a step. None enters more gateways than there are steps. -/
def routes (definition : Definition) (data : Json.Members) (source : Step) :
    List (List Nat × Step) :=
  (List.range (definition.steps.length + 1)).flatMap fun count =>
    definition.routesThrough data count { step := source }

theorem WellFormed.arrivals_routes (formed : definition.WellFormed) {source : Step}
    (placed : source ∈ definition.steps) :
    definition.arrivals data source = (definition.routes data source).map Arrival.ofRoute := by
  have own : ∀ visit ∈ [({ step := source } : Visit)], visit.step ∈ definition.steps :=
    fun _ single => List.mem_singleton.mp single ▸ placed
  rw [arrivals, formed.follow_routes _ own, routes]
  simp only [List.flatMap_singleton]

theorem mem_routes {source : Step} (leaves : source.kind ≠ .finish) {places : List Nat}
    {last : Step} :
    (places, last) ∈ definition.routes data source ↔ definition.Route data source places last := by
  have through (count : Nat) :=
    @mem_routesThrough definition data count { step := source } leaves places last
  rw [routes, List.mem_flatMap]
  constructor
  · rintro ⟨count, _, member⟩
    obtain ⟨gateways, way, _, distinct, _⟩ := (through count).mp member
    exact ⟨gateways, way, distinct⟩
  · rintro ⟨gateways, way, distinct⟩
    have bound := distinct.length_le_of_subset way.gateways_subset
    rw [List.length_map] at bound
    exact ⟨gateways.length, List.mem_range.mpr (Nat.lt_succ_of_le bound),
      (through _).mpr ⟨gateways, way, rfl, distinct, fun _ _ => List.not_mem_nil⟩⟩

/-- The routes from a step that goes on, each once and in their order. -/
theorem routes_complete {source : Step} (leaves : source.kind ≠ .finish) :
    definition.Routes data source (definition.routes data source) := by
  refine ⟨?_, fun _ _ => mem_routes leaves⟩
  rw [routes, List.pairwise_flatMap]
  refine ⟨fun count _ => routesThrough_ordered count _, ?_⟩
  refine List.pairwise_lt_range.imp fun less first started later lasted => ?_
  apply List.Shortlex.of_length_lt
  rw [length_of_mem_routesThrough started, length_of_mem_routesThrough lasted]
  exact Nat.succ_lt_succ less

end Definition

end Workflow
