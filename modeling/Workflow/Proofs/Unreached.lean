import Workflow.Proofs.Reachability
import Workflow.Proofs.Serialization

/-! Steps that a definition is warned of as unreachable take no part in its instances. The invariant
is that every task is for a step which the search from the start has found; what leaves such a step
only leads to such steps. -/

namespace Workflow

/-- Every task is for a step that the start of its definition leads to. -/
def Led (records : MemoryStore) : Prop :=
  ∀ task ∈ records.tasks, ∀ target definition,
    records.instance? task.instanceId = some target →
      records.definition? target.definitionId = some definition →
        task.stepId ∈ definition.reachable

variable {permits : Moment → Prop} {records : MemoryStore}

theorem Led.commit (led : Led records) (sound : Sound permits records) {changes : ChangeSet}
    (kept : ∀ old, records.instance? changes.target.id = some old →
      old.definitionId = changes.target.definitionId)
    (written : ∀ task ∈ changes.tasks, task.instanceId = changes.target.id ∧
      ∀ definition, records.definition? changes.target.definitionId = some definition →
        task.stepId ∈ definition.reachable) : Led (records.commit changes) := by
  intro task member target definition housed defined
  rw [MemoryStore.instance?_commit] at housed
  rw [MemoryStore.definition?_commit] at defined
  rcases MemoryStore.mem_commit_tasks member with new | old
  · rw [if_pos (written task new).1.symm] at housed
    cases housed
    exact (written task new).2 definition defined
  · obtain ⟨before, _, _, _, _, home, _⟩ := sound.placed task old
    split at housed
    next same =>
      cases housed
      rw [← kept before (same ▸ home)] at defined
      exact led task old before definition home defined
    next => exact led task old target definition housed defined

/-- Every effect of a call keeps tasks to steps that are led to. -/
theorem Effect.led {α : Type} {call : EngineCall α} {value : α} {drawn : List Uuid}
    {after : MemoryStore} (effect : Effect permits records call value drawn after)
    (sound : Sound permits records) (fresh : Fresh records drawn) (led : Led records) :
    Led after := by
  cases effect with
  | read _ => exact led
  | defined _ _ unused =>
    intro task member target definition housed defined
    rw [MemoryStore.definition?_saveDefinition] at defined
    split at defined
    next same =>
      obtain ⟨old, known, _⟩ := sound.governed target (MemoryStore.mem_of_instance? housed)
      have unknown : records.definition? target.definitionId = none := same ▸ unused
      cases unknown.symm.trans known
    next => exact led task member target definition housed defined
  | @activated id draft found _ =>
    intro task member target definition housed defined
    rw [MemoryStore.definition?_saveDefinition] at defined
    split at defined
    next same =>
      cases defined
      have here : records.definition? target.definitionId = some draft := by
        rw [← same, MemoryStore.definition?_id found, found]
      have same : ({ draft with status := .active } : Definition).reachable = draft.reachable :=
        Definition.reachable_congr rfl rfl
      exact same ▸ led task member target draft housed here
    next => exact led task member target definition housed defined
  | begun begun =>
    refine led.commit sound (fun _ stored => nomatch (begun.unknown fresh).symm.trans stored) ?_
    intro task member
    rw [List.mem_singleton.mp member]
    refine ⟨rfl, fun definition defined => ?_⟩
    cases begun.defined.symm.trans defined
    have start : begun.task.stepId = begun.definition.start := Definition.step?_id begun.placed
    exact start ▸ begun.definition.start_reachable
  | completed done =>
    have here := led done.task (MemoryStore.mem_of_task? done.found) done.target done.definition
      done.housed done.defined
    have placed := done.advances.placed
    have finds : done.definition.Finds done.step :=
      ⟨Definition.mem_of_step? placed, Definition.step?_id placed ▸ here⟩
    have only {definition : Definition}
        (defined : records.definition? done.changes.target.definitionId = some definition) :
        definition = done.definition := by
      rw [done.changes_definitionId, done.defined] at defined
      exact (Option.some.inj defined).symm
    refine led.commit sound (fun old stored => ?_) (done.forall_written ?_ fun task member => ?_)
    · rw [done.changes_id, done.target_id, done.housed] at stored
      rw [done.changes_definitionId, Option.some.inj stored]
    · rw [done.changes_id, done.target_id]
      exact ⟨rfl, fun definition defined => only defined ▸ here⟩
    · obtain ⟨step, assignment, arrives, _, made⟩ := done.advances.creates.mem member
      rw [done.changes_id]
      refine ⟨(done.created_pending member).1, fun definition defined => ?_⟩
      have found := (sound.formed done.defined).arrivals_found finds arrives
      rw [only defined, made]
      exact found.reachable

theorem Reachable.led {world : World} (reached : Reachable permits world) : Led world.records :=
  reached.invariant Led (fun _ member => nomatch member)
    fun _ _ _ _ _ sound effect fresh led => effect.led sound fresh led

/-- A step takes no part in an instance: no task of it is for the step, and when a task of it is
completed, with whatever data, no transition of the step is looked at. What is arrived at comes of
the visits whose transitions are looked at. -/
structure Bypasses (records : MemoryStore) (target : Instance) (definition : Definition)
    (id : String) : Prop where
  tasks : ∀ task ∈ records.tasksOf target.id, task.stepId ≠ id
  visits : ∀ task ∈ records.tasksOf target.id, ∀ step,
    definition.step? task.stepId = some step → ∀ data,
      definition.arrivals data step =
          (definition.moves data (definition.visits data step)).filterMap Move.arrival? ∧
        ∀ visit ∈ definition.visits data step, visit.step.id ≠ id

/-- No step that a definition is warned of as unreachable takes part in an instance of it. -/
def Bypassed (records : MemoryStore) : Prop :=
  ∀ target ∈ records.instances, ∀ definition,
    records.definition? target.definitionId = some definition →
      ∀ id, .about id .unreachable ∈ definition.validate.warnings →
        Bypasses records target definition id

theorem Led.bypassed (led : Led records) (sound : Sound permits records) : Bypassed records := by
  intro target stored definition defined id warned
  have unreachable := Definition.unreachable_of_warned warned
  have here : ∀ task ∈ records.tasksOf target.id, task.stepId ∈ definition.reachable := by
    intro task member
    obtain ⟨known, own⟩ := List.mem_filter.mp member
    refine led task known target definition ?_ defined
    rw [of_decide_eq_true own]
    exact sound.instance?_of_mem stored
  refine ⟨fun task member same => ?_, fun task member step placed data => ?_⟩
  · exact Definition.not_unreachable (here task member) (same ▸ unreachable)
  · have finds : definition.Finds step :=
      ⟨Definition.mem_of_step? placed, Definition.step?_id placed ▸ here task member⟩
    refine ⟨definition.arrivals_eq data step, fun visit visited same => ?_⟩
    have found := (sound.formed defined).visits_found finds data visit visited
    exact Definition.not_unreachable found.reachable (same ▸ unreachable)

/-- Whatever calls have been made one after another, and whatever starts and completions have run
beside each other since, unreachable steps have taken no part in them. -/
theorem unreachable_steps_bypassed {initial : World} (reached : Reachable permits initial)
    {attempts : Nat → Attempt} (moves : ∀ i, (attempts i).call.Moves) (schedule : List Nat)
    (distinct : ((System.begin attempts initial.records).run schedule).Distinct initial.drawn) :
    Bypassed ((System.begin attempts initial.records).run schedule).records := by
  have serial := (System.Serial.begin reached moves).run moves distinct
  have led := serial.reached.led
  rw [← serial.records] at led
  exact led.bypassed serial.sound

/-- An article with a step that leads to its start, to which no step leads. -/
def shelvedArticle : Definition :=
  { article with steps := article.steps ++
      [{ id := "archive", kind := .task, transitions := [.always "write"] }] }

def shelvedForks : List Attempt := [
  ⟨.define shelvedArticle, calm 10⟩,
  ⟨.activate article.id, calm 20⟩,
  ⟨.start article.id [] "ada", calm 30⟩,
  ⟨.complete (Uuid.ofNat 33) [] "ada", calm 40⟩]

def shelvedRace : System articleCalls :=
  (System.begin articleCalls (({} : World).after shelvedForks).records).run articleTurns

/-- The article has been written, reviewed and printed, but it is never archived. -/
theorem shelved_article_bypassed :
    (shelvedRace.records.definition? article.id).map (·.validate.warnings) =
        some [.about "archive" .unreachable] ∧
      (shelvedRace.records.tasksOf (Uuid.ofNat 32)).map (·.stepId) = ["write", "review", "print"] ∧
      Bypassed shelvedRace.records := by
  have reached : Reachable (fun _ => True) (({} : World).after shelvedForks) :=
    Reachable.empty.after shelvedForks (fun _ _ _ => trivial) (by decide)
  have moves : ∀ i, (articleCalls i).call.Moves := by
    intro i
    match i with
    | 0 | 1 | 2 | _ + 3 => trivial
  have distinct : shelvedRace.Distinct (({} : World).after shelvedForks).drawn :=
    @System.Distinct.of_busy _ _ _ _ [0, 1, 2, 3] (by decide +kernel) (by decide +kernel)
  exact ⟨by decide +kernel, by decide +kernel,
    unreachable_steps_bypassed reached moves articleTurns distinct⟩

end Workflow
