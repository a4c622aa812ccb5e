import Mathlib.Data.List.Perm.Basic
import Workflow.Proofs.Directories
import Workflow.Proofs.Indifference

/-! The order of the steps of a definition and of the transitions of each step has no part in which
tasks are made. What is followed at one level under one order is followed at the same level under
the other, each step in the place of its counterpart, so that the levels hold the same up to their
order. With a directory that always gives the same answers, completing a task comes to the same but
for the order of the new tasks. -/

namespace Workflow

open World

structure Step.Reordered (step other : Step) : Prop where
  rest : other = { step with transitions := other.transitions }
  transitions : step.transitions.Perm other.transitions

/-- The same definition with the transitions of each step in another order, and the steps too. -/
structure Definition.Reordered (definition other : Definition) : Prop where
  rest : other = { definition with steps := other.steps }
  steps : ∃ steps, List.Forall₂ Step.Reordered definition.steps steps ∧ steps.Perm other.steps

def Task.nameless (task : Task) : Task :=
  { task with id := default }

/-- Changes that differ in the order of the new tasks and of the pending steps, and in the
identifiers of the new tasks. The first task is the one that was completed. -/
structure ChangeSet.Rearranged (changes others : ChangeSet) : Prop where
  target : { changes.target with pendingSteps := others.target.pendingSteps } = others.target
  pending : changes.target.pendingSteps.Perm others.target.pendingSteps
  completed : changes.tasks.head? = others.tasks.head?
  created : (changes.tasks.tail.map Task.nameless).Perm (others.tasks.tail.map Task.nameless)

namespace Step.Reordered

variable {step other : Step} {data : Json.Members}

theorem refl (step : Step) : step.Reordered step :=
  ⟨rfl, .refl _⟩

theorem id_eq (reordered : step.Reordered other) : other.id = step.id :=
  (congrArg Step.id reordered.rest).trans rfl

theorem kind_eq (reordered : step.Reordered other) : other.kind = step.kind :=
  (congrArg Step.kind reordered.rest).trans rfl

theorem due_iff (reordered : step.Reordered other) (transition : Transition) :
    other.Due data transition ↔ step.Due data transition := by
  simp only [Due, reordered.transitions.mem_iff]

theorem fired (reordered : step.Reordered other) :
    (other.fired data).Perm (step.fired data) := by
  simp only [fired_eq, reordered.kind_eq, reordered.due_iff]
  exact reordered.transitions.symm.filter _

theorem map_id {steps others : List Step} (same : List.Forall₂ Step.Reordered steps others) :
    others.map (·.id) = steps.map (·.id) := by
  induction same with
  | nil => rfl
  | cons reordered _ ih => rw [List.map_cons, List.map_cons, ih, reordered.id_eq]

theorem exists_of_mem {steps others : List Step} (same : List.Forall₂ Step.Reordered steps others)
    (member : step ∈ steps) : ∃ other ∈ others, step.Reordered other := by
  induction same with
  | nil => cases member
  | cons reordered _ ih =>
    rcases List.mem_cons.mp member with rfl | later
    · exact ⟨_, List.mem_cons_self, reordered⟩
    · obtain ⟨other, here, reordered⟩ := ih later
      exact ⟨other, List.mem_cons_of_mem _ here, reordered⟩

end Step.Reordered

structure Definition.Counterparts (definition other : Definition) (counterpart : Step → Step) :
    Prop where
  reordered : ∀ step, Step.Reordered step (counterpart step)
  found : ∀ id, other.step? id = (definition.step? id).map counterpart
  count : other.steps.length = definition.steps.length

namespace Definition.Reordered

variable {definition other : Definition}

theorem id_eq (reordered : definition.Reordered other) : other.id = definition.id :=
  (congrArg Definition.id reordered.rest).trans rfl

theorem name_eq (reordered : definition.Reordered other) : other.name = definition.name :=
  (congrArg Definition.name reordered.rest).trans rfl

theorem ids (reordered : definition.Reordered other) :
    (other.steps.map (·.id)).Perm (definition.steps.map (·.id)) := by
  obtain ⟨steps, same, perm⟩ := reordered.steps
  rw [← Step.Reordered.map_id same]
  exact perm.symm.map _

/-- What an identifier stands for is found under it in the reordered definition too. -/
theorem step?_some (reordered : definition.Reordered other)
    (distinct : (definition.steps.map (·.id)).Nodup) {id : String} {step : Step}
    (found : definition.step? id = some step) :
    ∃ counterpart, step.Reordered counterpart ∧ other.step? id = some counterpart := by
  obtain ⟨steps, same, perm⟩ := reordered.steps
  obtain ⟨counterpart, member, twin⟩ := Step.Reordered.exists_of_mem same (mem_of_step? found)
  refine ⟨counterpart, twin, ?_⟩
  rw [← step?_id found, ← twin.id_eq]
  exact find?_of_mem (reordered.ids.nodup_iff.mpr distinct) (perm.mem_iff.mp member)

theorem step?_none (reordered : definition.Reordered other) {id : String}
    (absent : definition.step? id = none) : other.step? id = none := by
  have unknown : id ∉ definition.steps.map (·.id) := by
    simpa [step?] using absent
  rw [← reordered.ids.mem_iff] at unknown
  simpa [step?] using unknown

theorem exists_counterparts (reordered : definition.Reordered other)
    (distinct : (definition.steps.map (·.id)).Nodup) :
    ∃ counterpart, definition.Counterparts other counterpart := by
  -- A step that is not found under its identifier has no counterpart and may stand for itself.
  have each (step : Step) : ∃ counterpart, step.Reordered counterpart ∧
      ∀ id, definition.step? id = some step → other.step? id = some counterpart := by
    by_cases known : definition.step? step.id = some step
    · obtain ⟨counterpart, twin, found⟩ := reordered.step?_some distinct known
      exact ⟨counterpart, twin, fun id here => by rw [← step?_id here, found]⟩
    · exact ⟨step, .refl step, fun id here => absurd (step?_id here ▸ here) known⟩
  choose counterpart twin found using each
  refine ⟨counterpart, twin, fun id => ?_, ?_⟩
  · cases known : definition.step? id with
    | none => exact reordered.step?_none known
    | some step => exact found step id known
  · simpa using reordered.ids.length_eq

end Definition.Reordered

section Counterparts

variable {definition other : Definition} {counterpart : Step → Step}

/-- A visit of the counterpart. The path names gateways by their identifiers, which are the same. -/
def Visit.exchange (counterpart : Step → Step) (visit : Visit) : Visit :=
  { visit with step := counterpart visit.step }

def Arrival.exchange (counterpart : Step → Step) : Arrival → Arrival
  | .step target => .step (counterpart target)
  | .dangling source missing => .dangling source missing

def Move.exchange (counterpart : Step → Step) : Move → Move
  | .arrive arrival => .arrive (arrival.exchange counterpart)
  | .enter visit => .enter (visit.exchange counterpart)
  | .stop => .stop

namespace Move

@[simp] theorem arrival?_exchange (move : Move) :
    (move.exchange counterpart).arrival? =
      move.arrival?.map (Arrival.exchange counterpart) := by
  cases move <;> rfl

@[simp] theorem visit?_exchange (move : Move) :
    (move.exchange counterpart).visit? = move.visit?.map (Visit.exchange counterpart) := by
  cases move <;> rfl

@[simp] theorem isDangling_exchange (move : Move) :
    (move.exchange counterpart).isDangling = move.isDangling := by
  cases move with
  | arrive arrival => cases arrival <;> rfl
  | _ => rfl

end Move

namespace Definition.Counterparts

variable {visits others : List Visit}

/-- A transition moves from the counterpart of a visit to the counterpart of where it moves to. -/
theorem move (twins : definition.Counterparts other counterpart) (visit : Visit)
    (transition : Transition) :
    other.move (visit.exchange counterpart) transition =
      (definition.move visit transition).exchange counterpart := by
  unfold Definition.move
  rw [twins.found]
  cases definition.step? transition.target with
  | none =>
    exact congrArg (fun source => Move.arrive (.dangling source transition.target))
      (twins.reordered visit.step).id_eq
  | some target =>
    have same := (twins.reordered target).id_eq
    simp only [Option.map_some, (twins.reordered target).kind_eq]
    cases target.kind with
    | gateway =>
      simp only [Visit.exchange, same]
      split <;> rfl
    | _ => rfl

/-- One level: the moves out of counterparts are the counterparts of the moves. -/
theorem moves (twins : definition.Counterparts other counterpart) (data : Json.Members)
    (level : others.Perm (visits.map (Visit.exchange counterpart))) :
    (other.moves data others).Perm
      ((definition.moves data visits).map (Move.exchange counterpart)) := by
  have here (visit : Visit) :
      (((visit.exchange counterpart).step.fired data).map
          (other.move (visit.exchange counterpart))).Perm
        (((visit.step.fired data).map (definition.move visit)).map
          (Move.exchange counterpart)) := by
    have moved : other.move (visit.exchange counterpart) =
        Move.exchange counterpart ∘ definition.move visit := funext (twins.move visit)
    rw [List.map_map, moved]
    exact (twins.reordered visit.step).fired.map _
  unfold Definition.moves
  refine (level.flatMap_right _).trans ?_
  rw [List.flatMap_map, List.map_flatMap]
  exact List.Perm.flatMap_left visits fun visit _ => here visit

/-- All levels: whatever counterparts lead to are the counterparts of what is arrived at. -/
theorem follow (twins : definition.Counterparts other counterpart) (data : Json.Members)
    (levels : Nat) (level : others.Perm (visits.map (Visit.exchange counterpart))) :
    (other.follow data levels others).Perm
      ((definition.follow data levels visits).map (Arrival.exchange counterpart)) := by
  -- What is entered at this level is the next level, again up to its order.
  induction levels generalizing visits others with
  | zero => exact .nil
  | succ levels ih =>
    have moves := twins.moves data level
    have arrives := moves.filterMap Move.arrival?
    have enters := moves.filterMap Move.visit?
    have dangles := moves.any_eq (f := Move.isDangling)
    simp only [List.filterMap_map, Function.comp_def, Move.arrival?_exchange] at arrives
    simp only [List.filterMap_map, Function.comp_def, Move.visit?_exchange] at enters
    simp only [List.any_map, Function.comp_def, Move.isDangling_exchange] at dangles
    rw [← List.map_filterMap] at arrives enters
    simp only [Definition.follow, dangles]
    split
    · exact arrives
    · rw [List.map_append]
      exact arrives.append (ih enters)

theorem arrivals (twins : definition.Counterparts other counterpart) (data : Json.Members)
    (source : Step) :
    (other.arrivals data (counterpart source)).Perm
      ((definition.arrivals data source).map (Arrival.exchange counterpart)) := by
  unfold Definition.arrivals
  rw [twins.count]
  have start : [({ step := counterpart source } : Visit)].Perm
      ([({ step := source } : Visit)].map (Visit.exchange counterpart)) := .refl _
  exact twins.follow data _ start

end Definition.Counterparts

end Counterparts

def Arrival.draft? (roster : String → List String) (target : Instance) (acting : String)
    (now : Timestamp) : Arrival → Option Task
  | .step reached => some (Task.make default target reached
      (AssignmentRule.assignment roster reached.assign target.data acting) now)
  | .dangling _ _ => none

/-- The transitions of a step have no part in the task for it. -/
theorem Arrival.draft?_exchange {counterpart : Step → Step}
    (twins : ∀ step, Step.Reordered step (counterpart step)) (roster : String → List String)
    (target : Instance) (acting : String) (now : Timestamp) (arrival : Arrival) :
    (arrival.exchange counterpart).draft? roster target acting now =
      arrival.draft? roster target acting now := by
  cases arrival with
  | dangling _ _ => rfl
  | step step =>
    have rest := (twins step).rest
    simp only [Arrival.exchange, draft?]
    rw [rest]
    rfl

/-- Two operations that come to the same failure or to related values, wherever either starts and
whatever identifiers it draws. -/
def Operation.Parallel {α β : Type} (moments others : Moments) (first : Operation α)
    (second : Operation β) (relates : α → β → Prop) : Prop :=
  ∀ one other : World,
    Accord relates (run moments first.run one).1 (run others second.run other).1

namespace Operation.Parallel

variable {α β γ δ : Type} {moments others : Moments} {relates : α → β → Prop}
  {follows : γ → δ → Prop}

theorem pure {first : α} {second : β} (related : relates first second) :
    Parallel moments others (Pure.pure first) (Pure.pure second) relates :=
  fun _ _ => .ok related

theorem throw (failure : Failure) :
    Parallel moments others (throw failure : Operation α) (throw failure : Operation β) relates :=
  fun _ _ => .error failure

theorem bind {first : Operation α} {second : Operation β} {next : α → Operation γ}
    {last : β → Operation δ} (start : Parallel moments others first second relates)
    (resume : ∀ value reply, relates value reply →
      Parallel moments others (next value) (last reply) follows) :
    Parallel moments others (first >>= next) (second >>= last) follows := by
  intro one other
  change Accord follows (run moments (first.run.bind _) one).1
    (run others (second.run.bind _) other).1
  rw [run_bind, run_bind]
  have accord := start one other
  generalize (run moments first.run one).1 = result at accord ⊢
  generalize (run others second.run other).1 = answer at accord ⊢
  cases accord with
  | ok related => exact resume _ _ related _ _
  | error failure => exact .error failure

end Operation.Parallel

section Runs

variable {roster : String → List String} {holds : String → String → Bool} {moments others : Moments}
  {world : World} {definition other : Definition}

theorem createTasks_served (served : ∀ n, Served roster holds (moments n)) (target : Instance)
    (acting : String) (now : Timestamp) {arrivals : List Arrival}
    (reached : ∀ arrival ∈ arrivals, ∃ step, arrival = .step step) :
    Ends moments (Engine.createTasks target acting now arrivals) world fun result _ =>
      ∃ tasks, result = .ok tasks ∧
        tasks.map Task.nameless = arrivals.filterMap (Arrival.draft? roster target acting now) := by
  induction arrivals generalizing world with
  | nil => exact Ends.pure ⟨[], rfl, rfl⟩
  | cons arrival rest ih =>
    obtain ⟨⟨step, rfl⟩, later⟩ := List.forall_mem_cons.mp reached
    have first : Ends moments (Engine.createTask target step acting now) world fun result _ =>
        ∃ id, result = .ok (Task.make id target step
          (AssignmentRule.assignment roster step.assign target.data acting) now) :=
      createTask_served served target step acting now
    refine first.bind (fun _ _ made => nomatch made) fun task _ made => ?_
    obtain ⟨id, made⟩ := made
    cases made
    refine (ih later).bind (fun _ _ made => nomatch made) fun tasks _ made => ?_
    obtain ⟨_, same, drafts⟩ := made
    cases same
    exact Ends.pure ⟨_, rfl, congrArg (List.cons _) drafts⟩

/-- Only whether there are pending steps tells how an instance goes on, not their order. -/
theorem Instance.withPending_perm {steps others : List String} (perm : steps.Perm others)
    (target : Instance) (now : Timestamp) :
    { target.withPending steps now with pendingSteps := others } =
      target.withPending others now := by
  have empty : steps.isEmpty = others.isEmpty := by
    rw [Bool.eq_iff_iff, List.isEmpty_iff_length_eq_zero, List.isEmpty_iff_length_eq_zero,
      perm.length_eq]
  unfold withPending
  rw [empty]
  split
  · rfl
  · rfl

/-- New tasks in another order, under other identifiers, change nothing but these orders. -/
theorem completionChanges_rearranged {created others : List Task}
    (same : (created.map Task.nameless).Perm (others.map Task.nameless)) (target : Instance)
    (task : Task) (pending : List Task) (data : Json.Members) (principal : String)
    (now : Timestamp) :
    (completionChanges target task pending created data principal now).Rearranged
      (completionChanges target task pending others data principal now) := by
  have steps : (created.map (·.stepId)).Perm (others.map (·.stepId)) := by
    have named := same.map Task.stepId
    rwa [List.map_map, List.map_map] at named
  have all : (Engine.pendingSteps task.id pending created).Perm
      (Engine.pendingSteps task.id pending others) := by
    simp only [Engine.pendingSteps, List.map_append]
    exact steps.append_left _
  exact {
    target := by
      simp only [completionChanges, Instance.withPending_pendingSteps]
      exact Instance.withPending_perm all _ now
    pending := by
      simp only [completionChanges, Instance.withPending_pendingSteps]
      exact all
    completed := rfl
    created := same }

/-- The tasks for the arrivals of a step and of its counterpart are the same but for their order and
their identifiers. -/
theorem Definition.Counterparts.drafts {counterpart : Step → Step}
    (twins : definition.Counterparts other counterpart) (source : Step) (target : Instance)
    (data : Json.Members) (acting : String) (now : Timestamp) :
    ((definition.arrivals data source).filterMap (Arrival.draft? roster target acting now)).Perm
      ((other.arrivals data (counterpart source)).filterMap
        (Arrival.draft? roster target acting now)) := by
  have exchanged := (twins.arrivals data source).filterMap
    (Arrival.draft? roster target acting now)
  simp only [List.filterMap_map, Function.comp_def,
    Arrival.draft?_exchange twins.reordered] at exchanged
  exact exchanged.symm

theorem authorize_parallel (served : ∀ n, Served roster holds (moments n))
    (serves : ∀ n, Served roster holds (others n)) (task : Task) (principal : String) :
    Operation.Parallel moments others (Engine.authorize task principal)
      (Engine.authorize task principal) Eq := by
  intro one other
  have first := @authorize_served _ _ _ one served task principal
  have second := @authorize_served _ _ _ other serves task principal
  unfold Ends at first second
  rcases first with ⟨authorized, result⟩ | ⟨stranger, result⟩
  · rcases second with ⟨_, reply⟩ | ⟨stranger, _⟩
    · rw [result, reply]
      exact .ok rfl
    · exact absurd authorized stranger
  · rcases second with ⟨authorized, _⟩ | ⟨_, reply⟩
    · exact absurd authorized stranger
    · rw [result, reply]
      exact .error _

/-- The tasks for the arrivals of a step and of its counterpart are made side by side. -/
theorem createTasks_parallel (served : ∀ n, Served roster holds (moments n))
    (serves : ∀ n, Served roster holds (others n)) (formed : definition.WellFormed)
    {counterpart : Step → Step} (twins : definition.Counterparts other counterpart) {source : Step}
    (placed : source ∈ definition.steps) (target : Instance) (acting : String) (now : Timestamp) :
    Operation.Parallel moments others
      (Engine.createTasks target acting now (definition.arrivals target.data source))
      (Engine.createTasks target acting now (other.arrivals target.data (counterpart source)))
      fun created remade => (created.map Task.nameless).Perm (remade.map Task.nameless) := by
  have reached : ∀ arrival ∈ definition.arrivals target.data source,
      ∃ step, arrival = .step step := fun arrival member =>
    (formed.mem_arrivals placed member).imp fun _ found => found.1
  have reaches : ∀ arrival ∈ other.arrivals target.data (counterpart source),
      ∃ step, arrival = .step step := by
    intro arrival member
    have exchanged := (twins.arrivals target.data source).mem_iff.mp member
    obtain ⟨origin, arrives, rfl⟩ := List.mem_map.mp exchanged
    obtain ⟨step, rfl⟩ := reached origin arrives
    exact ⟨counterpart step, rfl⟩
  intro first second
  obtain ⟨_, result, drafts⟩ :=
    @createTasks_served _ _ _ first served target acting now _ reached
  obtain ⟨_, reply, redrafts⟩ :=
    @createTasks_served _ _ _ second serves target acting now _ reaches
  rw [result, reply]
  refine .ok ?_
  rw [drafts, redrafts]
  exact twins.drafts source target target.data acting now

/-- Completing a task comes to the same under a definition without errors and under any reordering
of it: it fails alike, or it leaves the instance alike and makes the same tasks, in some order. -/
theorem order_does_not_matter (valid : definition.validate.isOk = true)
    (reordered : definition.Reordered other) (served : ∀ n, Served roster holds (moments n))
    (serves : ∀ n, Served roster holds (others n)) (target : Instance) (task : Task)
    (pending : List Task) (data : Json.Members) (principal : String) (now : Timestamp) :
    Operation.Parallel moments others
      (Engine.advance definition target task pending data principal now)
      (Engine.advance other target task pending data principal now) ChangeSet.Rearranged := by
  have formed := Definition.wellFormed_of_isOk valid
  obtain ⟨counterpart, twins⟩ := reordered.exists_counterparts formed.distinct
  unfold Engine.advance
  rw [reordered.id_eq, reordered.name_eq, twins.found]
  cases task.isPending with
  | false => exact .throw _
  | true =>
  cases target.isCompleted with
  | true => exact .throw _
  | false =>
  by_cases elsewhere : task.instanceId ≠ target.id ∨ target.definitionId ≠ definition.id
  · simp only [if_pos elsewhere]
    exact .throw _
  simp only [if_neg elsewhere]
  refine (authorize_parallel served serves task principal).bind fun _ _ _ => ?_
  cases found : definition.step? task.stepId with
  | none => exact .throw _
  | some step =>
    have placed := Definition.mem_of_step? found
    refine (createTasks_parallel served serves formed twins placed _ _ _).bind fun _ _ same => ?_
    exact .pure (completionChanges_rearranged same target task pending data principal now)

end Runs

/-- The definition with its steps, and the transitions of each step, from the last to the first. -/
def Definition.reversed (definition : Definition) : Definition :=
  { definition with
    steps := (definition.steps.map fun step =>
      { step with transitions := step.transitions.reverse }).reverse }

theorem Definition.reversed_reordered (definition : Definition) :
    definition.Reordered definition.reversed where
  rest := rfl
  steps := by
    refine ⟨_, ?_, (List.reverse_perm _).symm⟩
    rw [List.forall₂_map_right_iff, List.forall₂_same]
    exact fun step _ => ⟨rfl, (List.reverse_perm _).symm⟩

def circulate (definition : Definition) : Except Failure ChangeSet :=
  let task := Task.make (Uuid.ofNat 33) circulated { id := "write", kind := .task }
    { principal := some "ada" } .epoch
  (run (calm 40) (Engine.advance definition circulated task [] [] "ada" .epoch).run {}).1

/-- Four tasks are made for a circulated article, in another order if its definition is reversed. -/
theorem circulated_article_reversed :
    ((circulate circulatedArticle).toOption.map fun changes => changes.target.pendingSteps) =
        some ["review", "print", "print", "review"] ∧
      ((circulate circulatedArticle.reversed).toOption.map fun changes =>
        changes.target.pendingSteps) = some ["print", "review", "review", "print"] ∧
      Accord ChangeSet.Rearranged (circulate circulatedArticle)
        (circulate circulatedArticle.reversed) := by
  have calmly (n : Nat) : Served (fun _ => ["ada"]) (fun principal _ => principal = "ada")
      (calm 40 n) := ⟨fun _ => rfl, fun _ _ => rfl⟩
  refine ⟨by decide +kernel, by decide +kernel, ?_⟩
  exact order_does_not_matter (by decide) circulatedArticle.reversed_reordered calmly calmly _ _ _ _
    _ _ _ _

end Workflow
