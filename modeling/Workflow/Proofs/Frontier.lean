import Mathlib.Algebra.Order.BigOperators.Group.List
import Mathlib.Algebra.Ring.GeomSum
import Workflow.Proofs.Branching
import Workflow.Proofs.Phases
import Workflow.Proofs.Reachability

/-! The queue behind routing. A turn takes the first of the visits that wait and follows what fires
there, so that the queue can grow while it is drained; no gateway is remembered but on the path of
each visit, and one gateway can be visited on many paths. The queue is drained all the same, under
any definition and whatever is answered on the way: a path only grows by gateways that are not on
it, so that each turn uses up one of the paths that there can be. -/

namespace Workflow

def Definition.gateways (definition : Definition) : Finset String :=
  ((definition.steps.filter fun step => step.kind = .gateway).map (·.id)).toFinset

theorem Definition.gateways_card_le (definition : Definition) :
    definition.gateways.card ≤ definition.steps.length := by
  refine Nat.le_trans (List.toFinset_card_le _) ?_
  rw [List.length_map]
  exact List.length_filter_le _ _

/-- A visit that waits for its turn, with the number of visits before it on its path. -/
structure Queued where
  visit : Visit
  depth : Nat

/-- How far a loop has got: what waits, the tasks that it has made, the turns that it has taken and
the failure that has ended it. -/
structure Frontier where
  queue : List Queued
  tasks : List Task := []
  turns : Nat := 0
  failure : Option Failure := none

namespace Frontier

/-- Nothing waits any more, or something has failed. -/
def Over (frontier : Frontier) : Prop :=
  frontier.queue = [] ∨ frontier.failure.isSome = true

def note (frontier : Frontier) : Except Failure Task → Frontier
  | .ok task => { frontier with tasks := frontier.tasks ++ [task] }
  | .error cause => { frontier with failure := some cause }

def result (frontier : Frontier) : Except Failure (List Task) :=
  match frontier.failure with
  | some cause => .error cause
  | none => .ok frontier.tasks

end Frontier

/-- The leaving of a step: of which definition, for which instance, by whom and when. -/
structure Departure where
  definition : Definition
  source : Step
  target : Instance
  acting : String
  now : Timestamp

namespace Departure

variable (departure : Departure)

def start : Frontier :=
  { queue := [{ visit := { step := departure.source }, depth := 0 }] }

def follow (entry : Queued) (frontier : Frontier) (transition : Transition) : Program Frontier :=
  if frontier.failure.isSome then return frontier
  else
    match departure.definition.move entry.visit transition with
    | .stop => return frontier
    | .enter visit =>
      return { frontier with queue := frontier.queue ++ [{ visit, depth := entry.depth + 1 }] }
    | .arrive (.dangling source missing) =>
      return { frontier with failure := some (.danglingTransition source missing) }
    | .arrive (.step step) => do
      let made ← (Engine.createTask departure.target step departure.acting departure.now).run
      return frontier.note made

/-- The first visit leaves the queue, and what fires there is followed in order. -/
def turn (frontier : Frontier) : Program Frontier :=
  match frontier.failure, frontier.queue with
  | none, entry :: rest =>
    (entry.visit.step.fired departure.target.data).foldlM (departure.follow entry)
      { frontier with queue := rest, turns := frontier.turns + 1 }
  | _, _ => return frontier

def drain : Nat → Frontier → Program Frontier
  | 0, frontier => return frontier
  | turns + 1, frontier => do drain turns (← departure.turn frontier)

end Departure

variable {definition : Definition}

structure Queued.Follows (definition : Definition) (entry next : Queued) : Prop where
  entered : ∃ transition, definition.move entry.visit transition = .enter next.visit
  deeper : next.depth = entry.depth + 1

/-- The path of an entry holds as many gateways, all different, as there are visits before it. -/
structure Queued.Sound (definition : Definition) (entry : Queued) : Prop where
  gateways : entry.visit.path.toFinset ⊆ definition.gateways
  distinct : entry.visit.path.toFinset.card = entry.depth

namespace Queued

theorem Follows.placed {entry next : Queued} (follows : Follows definition entry next) :
    next.visit.step ∈ definition.steps := by
  obtain ⟨transition, moved⟩ := follows.entered
  exact Definition.mem_of_step? (Definition.move_enter moved).1

theorem Follows.sound {entry next : Queued} (follows : Follows definition entry next)
    (sound : entry.Sound definition) : next.Sound definition := by
  obtain ⟨transition, moved⟩ := follows.entered
  obtain ⟨found, gateway, off, path⟩ := Definition.move_enter moved
  have listed : next.visit.step.id ∈ definition.gateways := by
    refine List.mem_toFinset.mpr (List.mem_map.mpr ⟨next.visit.step, ?_, rfl⟩)
    exact List.mem_filter.mpr ⟨Definition.mem_of_step? found, decide_eq_true gateway⟩
  have new : next.visit.step.id ∉ entry.visit.path.toFinset := by rwa [List.mem_toFinset]
  refine ⟨?_, ?_⟩
  · rw [path, List.toFinset_cons]
    exact Finset.insert_subset listed sound.gateways
  · rw [path, List.toFinset_cons, Finset.card_insert_of_notMem new, sound.distinct,
      follows.deeper]

/-- What a level of sound visits leads to is sound one level further down. -/
theorem sound_moves {data : Json.Members} {visits : List Visit} {depth : Nat}
    (sound : ∀ visit ∈ visits, (Queued.mk visit depth).Sound definition) :
    ∀ next ∈ (definition.moves data visits).filterMap Move.visit?,
      (Queued.mk next (depth + 1)).Sound definition := by
  intro next entered
  obtain ⟨move, moved, same⟩ := List.mem_filterMap.mp entered
  obtain ⟨visit, here, transition, _, leads⟩ := Definition.mem_moves.mp moved
  rw [Move.visit?_eq_some.mp same] at leads
  have follows : Follows definition ⟨visit, depth⟩ ⟨next, depth + 1⟩ :=
    ⟨⟨transition, leads⟩, rfl⟩
  exact follows.sound (sound visit here)

theorem Sound.depth_le {entry : Queued} (sound : entry.Sound definition) :
    entry.depth ≤ definition.gateways.card := by
  rw [← sound.distinct]
  exact Finset.card_le_card sound.gateways

end Queued

structure Frontier.Adds (definition : Definition) (entry : Queued) (added : List Queued)
    (made : List Task) (before after : Frontier) : Prop where
  queue : after.queue = before.queue ++ added
  tasks : after.tasks = before.tasks ++ made
  turns : after.turns = before.turns
  follow : ∀ next ∈ added, entry.Follows definition next

theorem Frontier.Adds.nothing (entry : Queued) {before after : Frontier}
    (queue : after.queue = before.queue) (tasks : after.tasks = before.tasks)
    (turns : after.turns = before.turns) : Adds definition entry [] [] before after :=
  ⟨by rw [queue, List.append_nil], by rw [tasks, List.append_nil], turns, List.forall_mem_nil _⟩

theorem Frontier.Adds.trans {entry : Queued} {added later : List Queued} {made also : List Task}
    {before between after : Frontier} (first : Adds definition entry added made before between)
    (second : Adds definition entry later also between after) :
    Adds definition entry (added ++ later) (made ++ also) before after where
  queue := by rw [second.queue, first.queue, List.append_assoc]
  tasks := by rw [second.tasks, first.tasks, List.append_assoc]
  turns := second.turns.trans first.turns
  follow next member := (List.mem_append.mp member).elim (first.follow next) (second.follow next)

namespace Departure

variable {departure : Departure}

/-- A transition adds an entry, or a task, or neither. -/
theorem follow_adds (entry : Queued) (frontier : Frontier) (transition : Transition) :
    (departure.follow entry frontier transition).Yields fun after =>
      ∃ added made, added.length + made.length ≤ 1 ∧
        Frontier.Adds departure.definition entry added made frontier after := by
  have idle {after : Frontier} (queue : after.queue = frontier.queue)
      (tasks : after.tasks = frontier.tasks) (turns : after.turns = frontier.turns) :
      ∃ added made, added.length + made.length ≤ 1 ∧
        Frontier.Adds departure.definition entry added made frontier after :=
    ⟨[], [], Nat.zero_le _, .nothing entry queue tasks turns⟩
  unfold follow
  split
  · exact .done (idle rfl rfl rfl)
  split
  · exact .done (idle rfl rfl rfl)
  next visit moved =>
    refine .done ⟨[⟨visit, entry.depth + 1⟩], [], Nat.le_refl _, rfl, ?_, rfl, ?_⟩
    · exact (List.append_nil _).symm
    · intro next single
      rw [List.mem_singleton.mp single]
      exact ⟨⟨transition, moved⟩, rfl⟩
  · exact .done (idle rfl rfl rfl)
  · refine (Program.yields_true _).bind fun result _ => ?_
    cases result with
    | ok task =>
      refine .done ⟨[], [task], Nat.le_refl _, ?_, rfl, rfl, List.forall_mem_nil _⟩
      exact (List.append_nil _).symm
    | error failure => exact .done (idle rfl rfl rfl)

theorem foldlM_adds (entry : Queued) (frontier : Frontier) (transitions : List Transition) :
    (transitions.foldlM (departure.follow entry) frontier).Yields fun after =>
      ∃ added made, added.length + made.length ≤ transitions.length ∧
        Frontier.Adds departure.definition entry added made frontier after := by
  induction transitions generalizing frontier with
  | nil => exact .done ⟨[], [], Nat.le_refl _, .nothing entry rfl rfl rfl⟩
  | cons transition rest ih =>
    rw [List.foldlM_cons]
    refine (follow_adds entry frontier transition).bind fun between told => ?_
    obtain ⟨added, made, few, first⟩ := told
    refine (ih between).mono fun after told => ?_
    obtain ⟨later, also, fewer, second⟩ := told
    refine ⟨added ++ later, made ++ also, ?_, first.trans second⟩
    simp only [List.length_append, List.length_cons]
    omega

theorem turn_adds (departure : Departure) (frontier : Frontier) :
    (departure.turn frontier).Yields fun after =>
      frontier.Over ∧ after = frontier ∨
        ∃ entry rest added made, frontier.queue = entry :: rest ∧
          added.length + made.length ≤ entry.visit.step.transitions.length ∧
          Frontier.Adds departure.definition entry added made
            { frontier with queue := rest, turns := frontier.turns + 1 } after := by
  unfold turn
  split
  next entry rest failure queue =>
    refine (foldlM_adds entry _ _).mono fun after told => Or.inr ?_
    obtain ⟨added, made, few, adds⟩ := told
    have fires := (entry.visit.step.fired_sublist departure.target.data).length_le
    exact ⟨entry, rest, added, made, queue, Nat.le_trans few fires, adds⟩
  next other =>
    refine .done (Or.inl ⟨?_, rfl⟩)
    cases failure : frontier.failure with
    | some _ => exact Or.inr (by rw [failure]; rfl)
    | none =>
      cases queue : frontier.queue with
      | nil => exact Or.inl queue
      | cons entry rest => exact absurd queue (other entry rest failure)

end Departure

/-- How many paths there can be that are no longer than there are gateways, if a step has so many
transitions. -/
def Definition.visitLimit (definition : Definition) (branches : Nat) : Nat :=
  ∑ k ∈ Finset.range (definition.gateways.card + 1), branches ^ k

/-- The most visits that can come of an entry, its own included: its path has room for the gateways
that are not on it. -/
def Queued.most (definition : Definition) (branches : Nat) (entry : Queued) : Nat :=
  ∑ k ∈ Finset.range (definition.gateways.card + 1 - entry.depth), branches ^ k

theorem Queued.Sound.most_eq {entry : Queued} (sound : entry.Sound definition) (branches : Nat) :
    entry.most definition branches =
      branches * ∑ k ∈ Finset.range (definition.gateways.card - entry.depth), branches ^ k + 1 := by
  have room : definition.gateways.card + 1 - entry.depth =
      definition.gateways.card - entry.depth + 1 := by
    have deep := sound.depth_le
    omega
  rw [most, room, geom_sum_succ]

theorem Queued.Follows.most_eq {entry next : Queued} (follows : Follows definition entry next)
    (branches : Nat) : next.most definition branches =
      ∑ k ∈ Finset.range (definition.gateways.card - entry.depth), branches ^ k := by
  rw [most, follows.deeper, Nat.add_sub_add_right]

/-- What a loop keeps to: each turn uses up one of the visits that can come of the entries. -/
structure Frontier.Bounded (definition : Definition) (branches : Nat) (frontier : Frontier) :
    Prop where
  sound : ∀ entry ∈ frontier.queue, entry.Sound definition
  narrow : ∀ entry ∈ frontier.queue, entry.visit.step.transitions.length ≤ branches
  spent : frontier.turns + (frontier.queue.map (Queued.most definition branches)).sum ≤
    definition.visitLimit branches
  made : frontier.tasks.length ≤ branches * frontier.turns

namespace Frontier

variable {branches : Nat} {frontier : Frontier}

/-- An entry gives way to no more visits than can come of it. -/
theorem Adds.sum_le {entry : Queued} {added : List Queued} {made : List Task}
    {before after : Frontier} (adds : Adds definition entry added made before after)
    (sound : entry.Sound definition) (few : added.length ≤ branches) :
    (added.map (Queued.most definition branches)).sum + 1 ≤ entry.most definition branches := by
  have same : added.map (Queued.most definition branches) = List.replicate added.length
      (∑ k ∈ Finset.range (definition.gateways.card - entry.depth), branches ^ k) :=
    List.map_eq_replicate_iff.mpr fun next member => (adds.follow next member).most_eq branches
  rw [same, List.sum_replicate_nat, sound.most_eq]
  exact Nat.succ_le_succ (Nat.mul_le_mul_right _ few)

theorem Bounded.turns_le (bounded : frontier.Bounded definition branches) :
    frontier.turns ≤ definition.visitLimit branches :=
  Nat.le_trans (Nat.le_add_right _ _) bounded.spent

/-- Whoever waits has a turn left. -/
theorem Bounded.isOver (bounded : frontier.Bounded definition branches)
    (used : definition.visitLimit branches ≤ frontier.turns) : frontier.Over := by
  cases queue : frontier.queue with
  | nil => exact Or.inl queue
  | cons entry rest =>
    have sound := bounded.sound entry (queue ▸ List.mem_cons_self)
    have spent := bounded.spent
    rw [queue, List.map_cons, List.sum_cons, sound.most_eq] at spent
    omega

theorem Bounded.adds {entry : Queued} {rest added : List Queued} {made : List Task}
    {after : Frontier} (bounded : frontier.Bounded definition branches)
    (narrow : ∀ step ∈ definition.steps, step.transitions.length ≤ branches)
    (queue : frontier.queue = entry :: rest)
    (few : added.length + made.length ≤ entry.visit.step.transitions.length)
    (adds : Adds definition entry added made
      { frontier with queue := rest, turns := frontier.turns + 1 } after) :
    after.Bounded definition branches := by
  have here : entry ∈ frontier.queue := queue ▸ List.mem_cons_self
  have waits : ∀ next ∈ after.queue, next ∈ frontier.queue ∨ entry.Follows definition next := by
    intro next member
    rw [adds.queue] at member
    rcases List.mem_append.mp member with old | new
    · exact Or.inl (queue ▸ List.mem_cons_of_mem entry old)
    · exact Or.inr (adds.follow next new)
  refine ⟨fun next member => ?_, fun next member => ?_, ?_, ?_⟩
  · rcases waits next member with old | follows
    · exact bounded.sound next old
    · exact follows.sound (bounded.sound entry here)
  · rcases waits next member with old | follows
    · exact bounded.narrow next old
    · exact narrow _ follows.placed
  -- The entry makes room for its own turn and for what it leads to.
  · have spent := bounded.spent
    have fires := bounded.narrow entry here
    have fewer : added.length ≤ branches := by omega
    have less := adds.sum_le (bounded.sound entry here) fewer
    rw [queue, List.map_cons, List.sum_cons] at spent
    simp only [adds.turns, adds.queue, List.map_append, List.sum_append]
    omega
  · have fires := bounded.narrow entry here
    have made := bounded.made
    simp only [adds.turns, adds.tasks, List.length_append, Nat.mul_succ]
    omega

end Frontier

namespace Departure

variable {departure : Departure} {branches : Nat} {frontier : Frontier}

theorem start_sound (departure : Departure) :
    ∀ entry ∈ departure.start.queue, entry.Sound departure.definition := by
  intro entry single
  rw [List.mem_singleton.mp single]
  exact ⟨Finset.empty_subset _, rfl⟩

theorem start_bounded (narrow : departure.source.transitions.length ≤ branches) :
    departure.start.Bounded departure.definition branches where
  sound := departure.start_sound
  narrow entry single := List.mem_singleton.mp single ▸ narrow
  spent := by
    simp [start, Queued.most, Definition.visitLimit]
  made := Nat.zero_le _

theorem turn_over (ended : frontier.Over) : departure.turn frontier = pure frontier := by
  unfold turn
  split
  next entry rest failure queue =>
    rcases ended with none | failed
    · rw [queue] at none
      cases none
    · rw [failure] at failed
      cases failed
  · rfl

theorem drain_over (ended : frontier.Over) (turns : Nat) :
    departure.drain turns frontier = pure frontier := by
  induction turns with
  | zero => rfl
  | succ turns ih =>
    rw [drain, turn_over ended, pure_bind, ih]

theorem drain_add (turns more : Nat) (frontier : Frontier) :
    departure.drain (turns + more) frontier =
      departure.drain turns frontier >>= departure.drain more := by
  induction turns generalizing frontier with
  | zero => rw [Nat.zero_add, drain, pure_bind]
  | succ turns ih =>
    rw [Nat.succ_add, drain, drain, bind_assoc]
    exact congrArg _ (funext ih)

/-- Turns keep to the bounds, and one is taken each time until the loop is over. -/
theorem drain_bounded
    (narrow : ∀ step ∈ departure.definition.steps, step.transitions.length ≤ branches)
    (bounded : frontier.Bounded departure.definition branches) (turns : Nat) :
    (departure.drain turns frontier).Yields fun after =>
      after.Bounded departure.definition branches ∧
        (after.Over ∨ after.turns = frontier.turns + turns) := by
  induction turns generalizing frontier with
  | zero => exact .done ⟨bounded, Or.inr rfl⟩
  | succ turns ih =>
    refine (departure.turn_adds frontier).bind fun between told => ?_
    rcases told with ⟨ended, rfl⟩ | ⟨entry, rest, added, made, queue, few, adds⟩
    · rw [drain_over ended]
      exact .done ⟨bounded, Or.inl ended⟩
    · refine (ih (bounded.adds narrow queue few adds)).mono fun after told => ⟨told.1, ?_⟩
      refine told.2.imp_right fun same => ?_
      rw [same, adds.turns, Nat.succ_add_eq_add_succ]

theorem exists_narrow (departure : Departure) :
    ∃ branches, ∀ step ∈ departure.source :: departure.definition.steps,
      step.transitions.length ≤ branches := by
  refine ⟨((departure.source :: departure.definition.steps).map (·.transitions.length)).sum, ?_⟩
  intro step member
  exact List.le_sum_of_mem (List.mem_map.mpr ⟨step, member, rfl⟩)

/-- From its start a loop keeps to the bounds. It is over when it has had its turns. -/
theorem drain_start
    (narrow : ∀ step ∈ departure.source :: departure.definition.steps,
      step.transitions.length ≤ branches) (turns : Nat) :
    (departure.drain turns departure.start).Yields fun frontier =>
      frontier.Bounded departure.definition branches ∧ (frontier.Over ∨ frontier.turns = turns) ∧
        (departure.definition.visitLimit branches ≤ turns → frontier.Over) := by
  obtain ⟨here, others⟩ := List.forall_mem_cons.mp narrow
  refine (drain_bounded others (start_bounded here) turns).mono fun frontier told => ?_
  obtain ⟨bounded, ends⟩ := told
  have taken : frontier.Over ∨ frontier.turns = turns :=
    ends.imp_right fun same => same.trans (Nat.zero_add _)
  exact ⟨bounded, taken, fun enough => taken.elim id fun same => bounded.isOver (same ▸ enough)⟩

end Departure

end Workflow
