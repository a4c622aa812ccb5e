import Workflow.Proofs.Frontier

/-! Draining the queue is following levels. Visit by visit the queue makes the same requests, and
with them the same tasks, as following whole levels of visits does; the levels that are followed
leave nothing waiting, because no path has more gateways than there are steps. -/

namespace Workflow

theorem Move.exists_dangling {moves : List Move} (dangling : moves.any isDangling = true) :
    ∃ source missing, .dangling source missing ∈ moves.filterMap arrival? := by
  obtain ⟨move, member, ends⟩ := List.any_eq_true.mp dangling
  cases move with
  | arrive arrival =>
    cases arrival with
    | dangling source missing => exact ⟨source, missing, List.mem_filterMap.mpr ⟨_, member, rfl⟩⟩
    | step _ => cases ends
  | enter _ => cases ends
  | stop => cases ends

namespace Engine

variable {target : Instance} {acting : String} {now : Timestamp} {α : Type}

theorem createTasks_append (first later : List Arrival) :
    createTasks target acting now (first ++ later) = do
      let made ← createTasks target acting now first
      return made ++ (← createTasks target acting now later) := by
  induction first with
  | nil => simp [createTasks]
  | cons arrival rest ih =>
    cases arrival with
    | dangling source missing => rfl
    | step step => simp [createTasks, ih]

/-- Behind a transition to a step that is not there nothing is made, whatever is still to come. -/
theorem createTasks_dangling {arrivals : List Arrival} {source missing : String}
    (member : .dangling source missing ∈ arrivals) (next other : List Task → Operation α) :
    createTasks target acting now arrivals >>= next =
      createTasks target acting now arrivals >>= other := by
  induction arrivals generalizing next other with
  | nil => cases member
  | cons arrival rest ih =>
    cases arrival with
    | dangling _ _ => rfl
    | step step =>
      have later := (List.mem_cons.mp member).resolve_left nofun
      simp only [createTasks, bind_assoc]
      exact congrArg _ (funext fun task => ih later _ _)

end Engine

namespace Frontier

/-- A loop as an operation, which fails where the loop has failed. -/
def settle (program : Program Frontier) : Operation Frontier :=
  ExceptT.mk do
    let frontier ← program
    return match frontier.failure with
      | some failure => .error failure
      | none => .ok frontier

theorem settle_pure {frontier : Frontier} (going : frontier.failure = none) :
    settle (pure frontier) = pure frontier := by
  unfold settle
  rw [pure_bind, going]
  rfl

theorem settle_bind (program : Program Frontier) {next : Frontier → Program Frontier}
    (stops : ∀ failed : Frontier, failed.failure.isSome = true → next failed = pure failed) :
    settle (program >>= next) = settle program >>= fun frontier => settle (next frontier) := by
  apply ExceptT.ext
  rw [ExceptT.run_bind]
  unfold settle
  simp only [ExceptT.run_mk, bind_assoc]
  refine congrArg _ (funext fun frontier => ?_)
  cases failure : frontier.failure with
  | none => rw [pure_bind]
  | some cause =>
    rw [stops frontier (by rw [failure]; rfl)]
    simp only [pure_bind, failure]

/-- Within a loop an operation ends it with its failure, or goes on with its task. -/
theorem settle_note {frontier : Frontier} (going : frontier.failure = none)
    (operation : Operation Task) :
    settle (operation.run >>= fun made => pure (frontier.note made)) =
      operation >>= fun task => pure { frontier with tasks := frontier.tasks ++ [task] } := by
  apply ExceptT.ext
  rw [ExceptT.run_bind]
  unfold settle
  simp only [ExceptT.run_mk, bind_assoc, pure_bind]
  refine congrArg _ (funext fun made => ?_)
  cases made with
  | ok task => simp only [note, going, ExceptT.run_pure]
  | error cause => rfl

theorem settle_result (program : Program Frontier) :
    (settle program >>= fun frontier => pure frontier.tasks).run =
      program >>= fun frontier => pure frontier.result := by
  rw [ExceptT.run_bind]
  unfold settle
  simp only [ExceptT.run_mk, bind_assoc]
  refine congrArg _ (funext fun frontier => ?_)
  simp only [pure_bind, result]
  cases frontier.failure with
  | none => rfl
  | some cause => rfl

def grow (visits : List Visit) (depth : Nat) (made : List Task) (frontier : Frontier) : Frontier :=
  { frontier with
    queue := frontier.queue ++ visits.map (Queued.mk · depth)
    tasks := frontier.tasks ++ made }

theorem grow_grow (visits others : List Visit) (depth : Nat) (made more : List Task)
    (frontier : Frontier) : (frontier.grow visits depth made).grow others depth more =
      frontier.grow (visits ++ others) depth (made ++ more) := by
  simp only [grow, List.map_append, List.append_assoc]

theorem grow_nil (depth : Nat) (frontier : Frontier) : frontier.grow [] depth [] = frontier := by
  simp only [grow, List.map_nil, List.append_nil]

end Frontier

namespace Departure

open Frontier

variable {departure : Departure} {frontier : Frontier}

def create (departure : Departure) (arrivals : List Arrival) : Operation (List Task) :=
  Engine.createTasks departure.target departure.acting departure.now arrivals

theorem follow_failed (entry : Queued) (failed : frontier.failure.isSome = true)
    (transition : Transition) : departure.follow entry frontier transition = pure frontier := by
  rw [follow, if_pos failed]

theorem foldlM_failed (entry : Queued) (failed : frontier.failure.isSome = true)
    (transitions : List Transition) :
    transitions.foldlM (departure.follow entry) frontier = pure frontier := by
  induction transitions with
  | nil => rfl
  | cons transition rest ih => rw [List.foldlM_cons, follow_failed entry failed, pure_bind, ih]

def settleMoves (departure : Departure) (moves : List Move) (depth : Nat) (frontier : Frontier) :
    Operation Frontier := do
  let made ← departure.create (moves.filterMap Move.arrival?)
  return frontier.grow (moves.filterMap Move.visit?) depth made

theorem settle_follow (entry : Queued) (going : frontier.failure = none) (transition : Transition) :
    settle (departure.follow entry frontier transition) =
      departure.settleMoves [departure.definition.move entry.visit transition] (entry.depth + 1)
        frontier := by
  have lives : ¬ frontier.failure.isSome = true := by rw [going]; nofun
  rw [follow, if_neg lives, settleMoves]
  generalize departure.definition.move entry.visit transition = move
  cases move with
  | stop => exact (settle_pure going).trans (congrArg pure (grow_nil _ frontier).symm)
  | enter visit =>
    refine Eq.trans (settle_pure ?_) (congrArg pure ?_)
    · exact going
    · simp only [grow, List.append_nil]
      rfl
  | arrive arrival =>
    cases arrival with
    | dangling source missing => rfl
    | step step =>
      refine (settle_note going _).trans ?_
      simp only [create, Engine.createTasks, List.filterMap_cons, Move.arrival?, Move.visit?,
        List.filterMap_nil, bind_assoc, pure_bind, grow, List.map_nil, List.append_nil]

theorem settleMoves_append (first later : List Move) (depth : Nat) (frontier : Frontier) :
    departure.settleMoves (first ++ later) depth frontier =
      departure.settleMoves first depth frontier >>= departure.settleMoves later depth := by
  simp only [settleMoves, create, List.filterMap_append, Engine.createTasks_append, bind_assoc,
    pure_bind, grow_grow]

/-- How it goes on behind moves matters for what they can leave behind only. -/
theorem settleMoves_bind_congr {α : Type} {moves : List Move} {depth : Nat}
    {next other : Frontier → Operation α}
    (same : ∀ made, next (frontier.grow (moves.filterMap Move.visit?) depth made) =
      other (frontier.grow (moves.filterMap Move.visit?) depth made)) :
    departure.settleMoves moves depth frontier >>= next =
      departure.settleMoves moves depth frontier >>= other := by
  simp only [settleMoves, bind_assoc, pure_bind, same]

theorem settle_foldlM (entry : Queued) (going : frontier.failure = none)
    (transitions : List Transition) :
    settle (transitions.foldlM (departure.follow entry) frontier) =
      departure.settleMoves (transitions.map (departure.definition.move entry.visit))
        (entry.depth + 1) frontier := by
  induction transitions generalizing frontier with
  | nil => exact (settle_pure going).trans (congrArg pure (grow_nil _ frontier).symm)
  | cons transition rest ih =>
    rw [List.foldlM_cons, settle_bind _ fun _ failed => foldlM_failed entry failed rest,
      settle_follow entry going]
    refine Eq.trans ?_ (settleMoves_append [_] _ _ _).symm
    exact settleMoves_bind_congr fun _ => ih going

theorem settle_turn {entry : Queued} {rest : List Queued} (queue : frontier.queue = entry :: rest)
    (going : frontier.failure = none) :
    settle (departure.turn frontier) =
      departure.settleMoves (departure.definition.moves departure.target.data [entry.visit])
        (entry.depth + 1) { frontier with queue := rest, turns := frontier.turns + 1 } := by
  unfold turn
  simp only [going, queue, Definition.moves, List.flatMap_singleton]
  exact settle_foldlM entry rfl _

/-- After a turn for each visit of a level the next level waits, behind what has waited before. -/
theorem settle_level {visits : List Visit} {depth : Nat} {waiting : List Queued} (more : Nat)
    (queue : frontier.queue = visits.map (Queued.mk · depth) ++ waiting)
    (going : frontier.failure = none) :
    settle (departure.drain (visits.length + more) frontier) =
      departure.settleMoves (departure.definition.moves departure.target.data visits) (depth + 1)
          { frontier with queue := waiting, turns := frontier.turns + visits.length } >>=
        fun later => settle (departure.drain more later) := by
  induction visits generalizing frontier waiting with
  | nil =>
    have same : ({ frontier with queue := waiting } : Frontier) = frontier := by
      rw [← List.nil_append waiting, ← List.map_nil, ← queue]
    rw [List.length_nil, Nat.zero_add]
    change _ = departure.settleMoves [] (depth + 1) { frontier with queue := waiting } >>= _
    rw [same]
    exact congrArg (settle <| departure.drain more ·) (grow_nil (depth + 1) frontier).symm
  | cons visit rest ih =>
    have turns : (visit :: rest).length + more = rest.length + more + 1 := by
      rw [List.length_cons, Nat.succ_add]
    have first : frontier.queue = ⟨visit, depth⟩ :: (rest.map (Queued.mk · depth) ++ waiting) :=
      queue
    have moves : departure.definition.moves departure.target.data (visit :: rest) =
        departure.definition.moves departure.target.data [visit] ++
          departure.definition.moves departure.target.data rest :=
      Definition.moves_append _ [visit] rest
    rw [turns, drain, settle_bind _ fun _ failed => drain_over (Or.inr failed) _,
      settle_turn first going, moves, settleMoves_append, bind_assoc, settleMoves, settleMoves]
    simp only [bind_assoc, pure_bind]
    refine congrArg _ (funext fun made => ?_)
    -- What the first visit leads to joins the end of the queue, behind the rest of its level.
    let next := (departure.definition.moves departure.target.data [visit]).filterMap Move.visit?
    let between : Frontier := { frontier with
      queue := rest.map (Queued.mk · depth) ++ waiting, turns := frontier.turns + 1 }
    have onward : (between.grow next (depth + 1) made).queue =
        rest.map (Queued.mk · depth) ++ (waiting ++ next.map (Queued.mk · (depth + 1))) :=
      List.append_assoc _ _ _
    have later : frontier.turns + (visit :: rest).length = frontier.turns + 1 + rest.length := by
      rw [List.length_cons, Nat.add_assoc, Nat.add_comm 1]
    rw [later]
    exact ih onward going

/-- Draining a level of visits makes what following levels from there arrives at. -/
theorem settle_drain (levels : Nat) {visits : List Visit} {depth turns : Nat}
    (queue : frontier.queue = visits.map (Queued.mk · depth)) (going : frontier.failure = none)
    (sound : ∀ visit ∈ visits, (Queued.mk visit depth).Sound departure.definition)
    (deep : departure.definition.gateways.card < levels + depth)
    (enough : (departure.definition.visited departure.target.data levels visits).length ≤ turns) :
    (settle (departure.drain turns frontier) >>= fun later => pure later.tasks) = do
      let made ← departure.create
        (departure.definition.follow departure.target.data levels visits)
      return frontier.tasks ++ made := by
  induction levels generalizing frontier visits depth turns with
  | zero =>
    -- No path is as long as this level is deep.
    have none : visits = [] := by
      refine List.eq_nil_iff_forall_not_mem.mpr fun visit member => ?_
      have room : depth ≤ _ := (sound visit member).depth_le
      omega
    rw [none] at queue
    rw [drain_over (Or.inl queue), settle_pure going, pure_bind]
    exact congrArg pure (List.append_nil _).symm
  | succ levels ih =>
    have level : frontier.queue = visits.map (Queued.mk · depth) ++ [] := by
      rw [queue, List.append_nil]
    simp only [Definition.follow, Definition.visited] at enough ⊢
    split at enough
    next dangling =>
      -- The tasks of this level are never all made, so that what is behind it does not matter.
      obtain ⟨more, rfl⟩ := Nat.exists_eq_add_of_le enough
      obtain ⟨source, missing, member⟩ := Move.exists_dangling dangling
      rw [settle_level more level going, if_pos dangling, settleMoves]
      simp only [bind_assoc, pure_bind]
      exact Engine.createTasks_dangling member _ _
    next whole =>
      rw [List.length_append] at enough
      obtain ⟨more, rfl⟩ := Nat.exists_eq_add_of_le (Nat.le_of_add_right_le enough)
      rw [settle_level more level going, if_neg whole, settleMoves]
      simp only [create, Engine.createTasks_append, bind_assoc, pure_bind]
      refine congrArg _ (funext fun made => ?_)
      simp only [← List.append_assoc]
      exact ih rfl going (Queued.sound_moves sound) (by omega) (by omega)

/-- Once a loop has had enough turns, more of them make no difference. -/
theorem drain_more {branches turns : Nat}
    (narrow : ∀ step ∈ departure.source :: departure.definition.steps,
      step.transitions.length ≤ branches)
    (enough : departure.definition.visitLimit branches ≤ turns) (more : Nat) :
    departure.drain (turns + more) departure.start = departure.drain turns departure.start := by
  have idle : departure.drain turns departure.start >>= departure.drain more =
      departure.drain turns departure.start >>= pure :=
    (drain_start narrow turns).bind_congr fun _ told => drain_over (told.2.2 enough) more
  rw [drain_add, idle, bind_pure]

/-- With a turn for each visit, draining makes what routing arrives at. -/
theorem drain_arrivals (departure : Departure) {turns : Nat}
    (enough : (departure.definition.visits departure.target.data departure.source).length ≤ turns) :
    (do return (← departure.drain turns departure.start).result) =
      (Engine.createTasks departure.target departure.acting departure.now
        (departure.definition.arrivals departure.target.data departure.source)).run := by
  have root : ∀ visit ∈ [({ step := departure.source } : Visit)],
      (Queued.mk visit 0).Sound departure.definition := fun visit single =>
    departure.start_sound ⟨visit, 0⟩ (List.mem_map_of_mem (f := (Queued.mk · 0)) single)
  have deep := Nat.lt_succ_of_le departure.definition.gateways_card_le
  have made := @settle_drain departure departure.start _ _ _ _ rfl rfl root deep enough
  rw [← settle_result, made]
  exact congrArg ExceptT.run (bind_pure _)

end Departure

/-- Whatever the definition is and whatever is answered, the queue is drained and makes what routing
arrives at. What waits in it has a path of as many different gateways as there are visits before it,
so that there are no more turns than such paths, and no more tasks for a turn than transitions. -/
theorem frontiers_are_drained (departure : Departure) :
    (∃ enough, ∀ turns, enough ≤ turns →
      (departure.drain turns departure.start).Yields Frontier.Over ∧
      (do return (← departure.drain turns departure.start).result) =
        (Engine.createTasks departure.target departure.acting departure.now
          (departure.definition.arrivals departure.target.data departure.source)).run) ∧
    (∀ turns, (departure.drain turns departure.start).Yields fun frontier =>
      (frontier.Over ∨ frontier.turns = turns) ∧
        ∀ entry ∈ frontier.queue, entry.Sound departure.definition) ∧
    ∀ branches, (∀ step ∈ departure.source :: departure.definition.steps,
        step.transitions.length ≤ branches) →
      ∀ turns, (departure.drain turns departure.start).Yields fun frontier =>
        frontier.turns ≤ departure.definition.visitLimit branches ∧
        frontier.tasks.length ≤ branches * frontier.turns ∧
        (departure.definition.visitLimit branches ≤ turns → frontier.Over) := by
  obtain ⟨some, narrow⟩ := departure.exists_narrow
  refine ⟨⟨departure.definition.visitLimit some, fun turns enough => ⟨?_, ?_⟩⟩, fun turns => ?_,
    fun branches narrow turns => ?_⟩
  · exact (Departure.drain_start narrow turns).mono fun frontier told => told.2.2 enough
  · rw [← Departure.drain_more narrow enough]
    exact departure.drain_arrivals (Nat.le_add_left _ turns)
  · exact (Departure.drain_start narrow turns).mono fun _ told => ⟨told.2.1, told.1.sound⟩
  · refine (Departure.drain_start narrow turns).mono fun frontier told => ?_
    obtain ⟨bounded, -, ends⟩ := told
    exact ⟨bounded.turns_le, bounded.made, ends⟩

def tangledStart : Step :=
  { id := "write", kind := .task, transitions := [.always "fork", .always "desk"] }

/-- An article with two desks of one name, the first one a gateway, and a fork that leads to itself,
so that it is not valid. -/
def tangledArticle : Definition :=
  .make (Uuid.ofNat 1) "article" "1" "write" [
    tangledStart,
    { id := "fork", kind := .gateway,
      transitions := [.always "fork", .always "desk", .always "review"] },
    { id := "desk", kind := .gateway,
      transitions := [.always "fork", .ifNoneFires "end", .always "print"] },
    { id := "desk", kind := .task, transitions := [.always "end"] },
    { id := "review", kind := .approval, assign := some { role := some "editor" } },
    { id := "print", kind := .task, transitions := [.always "end"] },
    { id := "end", kind := .finish }]

def tangled : Departure where
  definition := tangledArticle
  source := tangledStart
  target := circulated
  acting := "ada"
  now := .epoch

/-- Of the thirteen turns that there could be, a tangled article takes five and makes four tasks. -/
theorem tangled_article_is_drained :
    tangledArticle.validate.isOk = false ∧ tangledArticle.visitLimit 3 = 13 ∧
    (∀ step ∈ tangledStart :: tangledArticle.steps, step.transitions.length ≤ 3) ∧
    (tangled.drain 13 tangled.start).Yields (fun frontier =>
      frontier.turns ≤ 13 ∧ frontier.tasks.length ≤ 3 * frontier.turns ∧ frontier.Over) ∧
    (World.run (calm 40) (tangled.drain 13 tangled.start) {}).1.turns = 5 ∧
    (World.run (calm 40) (tangled.drain 13 tangled.start) {}).1.tasks.map (·.stepId) =
      ["review", "print", "print", "review"] ∧
    ∃ enough, ∀ turns, enough ≤ turns →
      (do return (← tangled.drain turns tangled.start).result) =
        (Engine.createTasks circulated "ada" .epoch
          (tangledArticle.arrivals [] tangledStart)).run := by
  have limit : tangledArticle.visitLimit 3 = 13 := by decide
  have narrow : ∀ step ∈ tangledStart :: tangledArticle.steps, step.transitions.length ≤ 3 := by
    decide
  obtain ⟨⟨enough, ends⟩, -, bounds⟩ := frontiers_are_drained tangled
  refine ⟨by decide, limit, narrow, ?_, by rfl, by rfl,
    enough, fun turns many => (ends turns many).2⟩
  refine (bounds 3 narrow 13).mono fun frontier told => ?_
  obtain ⟨turns, tasks, ended⟩ := told
  exact ⟨limit ▸ turns, tasks, ended (Nat.le_of_eq limit)⟩

end Workflow
