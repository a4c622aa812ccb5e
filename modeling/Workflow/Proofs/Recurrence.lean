import Workflow.Proofs.CompletionOutcome
import Workflow.Proofs.Endurance
import Workflow.Proofs.Reachability
import Workflow.Proofs.References
import Workflow.Proofs.Serialization

/-! Steps that definitions are warned of as endless loops. Such a step always leads back to itself,
whatever else it leads to, so that an instance which waits for it waits for it ever after. The
invariant is that it waits for the step; who completes its tasks, and with which data, has no part
in it. -/

namespace Workflow

namespace Definition

/-- A step that somebody works on and that always leads back to itself. -/
structure Circular (step : Step) : Prop where
  goes_on : step.kind ≠ .finish
  works : step.kind ≠ .gateway
  loops : ∃ transition ∈ step.transitions, isEndlessLoop step transition = true

/-- A definition never gets over a step, once it has come to it. -/
def Endless (definition : Definition) (id : String) : Prop :=
  ∃ step ∈ definition.steps, step.id = id ∧ Circular step

variable {definition : Definition} {id : String}

theorem Endless.warned (endless : definition.Endless id) :
    .about id .endlessLoop ∈ definition.validate.warnings := by
  obtain ⟨step, member, rfl, _, _, transition, leaves, loops⟩ := endless
  have own : .about step.id .endlessLoop ∈ stepWarnings step := by
    refine List.mem_append_left _ (List.mem_append_right _ ?_)
    refine List.mem_flatMap.mpr ⟨transition, leaves, ?_⟩
    rw [whenever, if_pos loops]
    exact List.mem_cons_self
  have some : definition.steps.isEmpty ≠ true := by
    rw [Ne, List.isEmpty_iff]
    exact List.ne_nil_of_mem member
  rw [validate, if_neg some]
  exact List.mem_append_left _ (List.mem_flatMap.mpr ⟨step, member, own⟩)

theorem Endless.becomes {new : Definition} (endless : definition.Endless id)
    (becomes : definition.Becomes new) : new.Endless id := by
  rcases becomes with same | ⟨_, same⟩
  · exact same ▸ endless
  · exact same ▸ endless

end Definition

theorem Transition.isSatisfied_of_endless {step : Step} {transition : Transition}
    (loops : Definition.isEndlessLoop step transition = true) (data : Json.Members) :
    transition.target = step.id ∧ transition.isSatisfied data = true := by
  simp only [Definition.isEndlessLoop, Bool.and_eq_true, decide_eq_true_eq, Option.isNone_iff_eq_none,
    Bool.not_eq_true'] at loops
  obtain ⟨⟨target, unguarded⟩, plain⟩ := loops
  refine ⟨target, ?_⟩
  rw [isSatisfied, plain, unguarded]
  rfl

theorem Step.mem_fired_of_satisfied {step : Step} {transition : Transition} {data : Json.Members}
    (goes_on : step.kind ≠ .finish) (leaves : transition ∈ step.transitions)
    (satisfied : transition.isSatisfied data = true) : transition ∈ step.fired data := by
  have here : transition ∈ step.transitions.filter fun other => other.isSatisfied data :=
    List.mem_filter.mpr ⟨leaves, satisfied⟩
  rw [fired, if_neg goes_on]
  simp only [List.isEmpty_iff]
  rw [if_neg (List.ne_nil_of_mem here)]
  exact here

namespace Definition

variable {definition : Definition}

theorem mem_visits_self (data : Json.Members) (source : Step) :
    { step := source } ∈ definition.visits data source := by
  simp only [visits, visited]
  split
  · exact List.mem_cons_self
  · exact List.mem_append_left _ List.mem_cons_self

theorem mem_arrivals_of_fired {data : Json.Members} {source target : Step} {transition : Transition}
    (fires : transition ∈ source.fired data)
    (found : definition.step? transition.target = some target) (goes_on : target.kind ≠ .finish)
    (works : target.kind ≠ .gateway) : .step target ∈ definition.arrivals data source := by
  have moves : definition.move { step := source } transition = .arrive (.step target) := by
    rw [move, found]
    cases kind : target.kind with
    | finish => exact absurd kind goes_on
    | gateway => exact absurd kind works
    | _ => simp only [kind]
  rw [arrivals_eq]
  refine List.mem_filterMap.mpr ⟨.arrive (.step target), ?_, rfl⟩
  exact mem_moves.mpr ⟨_, mem_visits_self data source, transition, fires, moves⟩

/-- Whatever the data, whoever leaves the step comes to it. -/
theorem WellFormed.circular_arrives (formed : definition.WellFormed) {step : Step}
    (member : step ∈ definition.steps) (circular : Circular step) (data : Json.Members) :
    .step step ∈ definition.arrivals data step := by
  obtain ⟨goes_on, works, transition, leaves, loops⟩ := circular
  obtain ⟨back, satisfied⟩ := Transition.isSatisfied_of_endless loops data
  have found : definition.step? transition.target = some step := by
    rw [back]
    exact find?_of_mem formed.distinct member
  exact mem_arrivals_of_fired (Step.mem_fired_of_satisfied goes_on leaves satisfied) found goes_on works

end Definition

variable {permits : Moment → Prop} {records : MemoryStore}

theorem Creates.made {target : Instance} {acting : String} {now : Timestamp}
    {arrivals : List Arrival} {tasks : List Task}
    (creates : Creates permits target acting now arrivals tasks) {step : Step}
    (arrives : .step step ∈ arrivals) : ∃ task ∈ tasks, task.stepId = step.id := by
  induction creates with
  | nil => cases arrives
  | cons resolved later ih =>
    rcases List.mem_cons.mp arrives with same | later
    · cases same
      exact ⟨_, List.mem_cons_self, rfl⟩
    · obtain ⟨task, member, same⟩ := ih later
      exact ⟨task, List.mem_cons_of_mem _ member, same⟩

def MemoryStore.Awaits (records : MemoryStore) (id : Uuid) (step : String) : Prop :=
  ∃ task ∈ records.pendingTasks id, task.stepId = step

inductive Circles (records : MemoryStore) (id : Uuid) (step : String) : Prop where
  | intro (target : Instance) (definition : Definition)
      (housed : records.instance? id = some target)
      (defined : records.definition? target.definitionId = some definition)
      (endless : definition.Endless step) (awaits : records.Awaits id step)

theorem MemoryStore.Awaits.commit_other {id : Uuid} {step : String} (awaits : records.Awaits id step)
    {changes : ChangeSet} (confined : records.Confined changes) (different : changes.target.id ≠ id) :
    (records.commit changes).Awaits id step := by
  obtain ⟨task, waits, same⟩ := awaits
  refine ⟨task, ?_, same⟩
  rw [MemoryStore.pendingTasks_commit_other confined different]
  exact waits

/-- Completing a task of an instance that waits for an endless step leaves a task for the step: the
one that was there, or one that is made for the step anew. -/
theorem Completion.awaits {id : Uuid} {data : Json.Members} {principal : String}
    (done : Completion permits records id data principal) (sound : Sound permits records)
    (fresh : Fresh records done.ids) {step : String} (endless : done.definition.Endless step)
    (awaits : records.Awaits done.target.id step) :
    (records.commit done.changes).Awaits done.target.id step := by
  rw [MemoryStore.Awaits, done.pendingTasks_after sound.tasks fresh]
  by_cases here : done.task.stepId = step
  · obtain ⟨circular, member, same, circles⟩ := endless
    have formed := sound.formed done.defined
    have only : done.definition.step? circular.id = some circular := find?_of_mem formed.distinct member
    have own : done.step = circular := by
      have placed := done.advances.placed
      rw [here, ← same, only] at placed
      exact (Option.some.inj placed).symm
    have arrives := formed.circular_arrives member circles (.overlay done.target.data data)
    rw [← own] at arrives same
    obtain ⟨task, made, again⟩ := done.advances.creates.made arrives
    exact ⟨task, List.mem_append_right _ made, again.trans same⟩
  · obtain ⟨task, waits, same⟩ := awaits
    obtain ⟨stored, _, pending⟩ := MemoryStore.mem_pendingTasks.mp waits
    refine ⟨task, List.mem_append_left _ (List.mem_filter.mpr ⟨waits, ?_⟩), same⟩
    have other : task.id ≠ done.task.id := by
      intro equal
      have found : records.task? task.id = some task := find?_of_mem sound.tasks stored
      rw [equal, done.task_id, done.found] at found
      cases found
      exact here same
    simp [other, pending]

theorem Effect.circles {α : Type} {call : EngineCall α} {value : α} {drawn : List Uuid}
    {after : MemoryStore} (effect : Effect permits records call value drawn after)
    (sound : Sound permits records) (fresh : Fresh records drawn) {id : Uuid} {step : String}
    (circles : Circles records id step) : Circles after id step := by
  obtain ⟨target, definition, housed, defined, endless, awaits⟩ := circles
  obtain ⟨later, kept, becomes⟩ := effect.keeps_definition defined
  obtain ⟨next, stored, continues⟩ := (effect.endures fresh).instances id target housed
  refine .intro next later stored (continues.definitionId ▸ kept) (endless.becomes becomes) ?_
  cases effect with
  | read _ => exact awaits
  | defined _ _ _ => exact awaits
  | activated _ _ => exact awaits
  | begun begun =>
    refine awaits.commit_other (begun.confined fresh) fun same => ?_
    have unknown : records.instance? id = none := same ▸ begun.unknown fresh
    cases unknown.symm.trans housed
  | completed done =>
    by_cases own : done.target.id = id
    · subst own
      have same : target = done.target := by
        rw [done.target_id, done.housed] at housed
        exact (Option.some.inj housed).symm
      have known : definition = done.definition := by
        rw [same, done.defined] at defined
        exact (Option.some.inj defined).symm
      exact done.awaits sound fresh (known ▸ endless) awaits
    · exact awaits.commit_other (done.confined fresh) (done.changes_id ▸ own)

theorem Reachable.circles {world : World} (reached : Reachable permits world) {attempts : List Attempt}
    (within : ∀ attempt ∈ attempts, attempt.Within permits)
    (fresh : (world.after attempts).drawn.Nodup) {id : Uuid} {step : String}
    (circles : Circles world.records id step) :
    Circles (world.after attempts).records id step := by
  induction attempts generalizing world with
  | nil => exact circles
  | cons attempt rest ih =>
    have first := within attempt List.mem_cons_self
    have new := World.fresh_perform fresh
    refine ih (.perform reached attempt first new)
      (fun other member => within other (List.mem_cons_of_mem _ member)) fresh ?_
    refine reached.sound.perform_keeps (Circles · id step) first new ?_ circles
    intro value drawn after effect apart
    exact effect.circles reached.sound.records apart circles

/-- An instance that waits for a step is not complete. -/
theorem Sound.running_of_awaits (sound : Sound permits records) {id : Uuid} {target : Instance}
    {step : String} (housed : records.instance? id = some target)
    (awaits : records.Awaits id step) : target.status = .running := by
  obtain ⟨task, waits, _⟩ := awaits
  obtain ⟨stored, own, pending⟩ := MemoryStore.mem_pendingTasks.mp waits
  exact sound.running stored pending (own.symm ▸ housed)

/-- Whatever instance waits for an endless step in earlier records waits for it in later ones, and is
not complete. -/
def Perseveres (before after : MemoryStore) : Prop :=
  ∀ id step, Circles before id step → Circles after id step ∧
    ∀ target, after.instance? id = some target → target.status = .running

theorem Reachable.perseveres {world : World} (reached : Reachable permits world)
    {attempts : List Attempt} (within : ∀ attempt ∈ attempts, attempt.Within permits)
    (fresh : (world.after attempts).drawn.Nodup) :
    Perseveres world.records (world.after attempts).records := by
  intro id step circles
  have later := reached.circles within fresh circles
  refine ⟨later, fun target housed => ?_⟩
  obtain ⟨_, _, _, _, _, awaits⟩ := later
  exact (reached.after attempts within fresh).sound.records.running_of_awaits housed awaits

namespace System

variable {attempts : Nat → Attempt} {initial : World} {system : System attempts}

/-- Starts and completions that run beside each other come to a history that only goes on. -/
theorem Serial.perseveres (serial : system.Serial initial) (moves : ∀ i, (attempts i).call.Moves)
    {schedule : List Nat} (distinct : (system.run schedule).Distinct initial.drawn) :
    Perseveres system.records (system.run schedule).records := by
  obtain ⟨more, grown⟩ := system.written_run schedule
  have last := serial.run moves distinct
  have fresh := last.reached.fresh
  have same : (system.run schedule).history initial =
      (system.history initial).after (more.map attempts) := by
    rw [history, grown, List.map_append, World.after_append]
    rfl
  rw [same] at fresh
  rw [serial.records, last.records, same]
  exact serial.reached.perseveres (fun _ _ _ => trivial) fresh

end System

/-- Whatever the calls of a history are, and whatever starts and completions run beside each other
then: at any time an instance that waits for an endless step waits for it at all later times. -/
theorem endless_steps_recur {world : World} (reached : Reachable permits world)
    {history : List Attempt} (within : ∀ attempt ∈ history, attempt.Within permits)
    (fresh : (world.after history).drawn.Nodup) {attempts : Nat → Attempt}
    (moves : ∀ i, (attempts i).call.Moves) {first later : List Nat}
    (distinct : ((System.begin attempts (world.after history).records).run (first ++ later)).Distinct
      (world.after history).drawn) :
    Perseveres world.records (world.after history).records ∧
      Perseveres (world.after history).records
        ((System.begin attempts (world.after history).records).run first).records ∧
      Perseveres ((System.begin attempts (world.after history).records).run first).records
        ((System.begin attempts (world.after history).records).run (first ++ later)).records := by
  have start := System.Serial.begin (reached.after history within fresh) moves
  rw [System.run_append] at distinct ⊢
  have middle := start.run moves distinct.of_run
  exact ⟨reached.perseveres within fresh, start.perseveres moves distinct.of_run,
    middle.perseveres moves distinct⟩

/-- An article that is written again and again, also when it is done. -/
def serialArticle : Definition :=
  { article with steps :=
      { id := "write", kind := .task,
        transitions := [.onlyWhen "end" { field := "done", op := .equals, value := .bool true },
          .always "write", .always "fork"] } ::
      article.steps.tail }

def serialBegins : List Attempt := [
  ⟨.define serialArticle, calm 10⟩,
  ⟨.activate article.id, calm 20⟩,
  ⟨.start article.id [] "ada", calm 30⟩]

def serialForks : List Attempt := [
  ⟨.complete (Uuid.ofNat 33) [("done", .bool true)] "ada", calm 40⟩,
  ⟨.complete (Uuid.ofNat 49) [] "ada", calm 60⟩]

/-- The next part is written by two at once, while the first one is printed. -/
def serialCalls : Nat → Attempt
  | 0 => ⟨.complete (Uuid.ofNat 47) [] "ada", calm 100⟩
  | 1 => ⟨.complete (Uuid.ofNat 47) [] "ada", calm 200⟩
  | 2 => ⟨.complete (Uuid.ofNat 50) [] "ada", calm 300⟩
  | i + 3 => ⟨.start article.id [] "ada", calm (400 + 100 * i)⟩

def serialRace (schedule : List Nat) : System serialCalls :=
  (System.begin serialCalls
    ((({} : World).after serialBegins).after serialForks).records).run schedule

/-- The article waits to be written before its start is completed, and then still. -/
theorem serial_article_recurs :
    serialArticle.validate.warnings = [.about "write" .endlessLoop] ∧
      Circles (({} : World).after serialBegins).records (Uuid.ofNat 32) "write" ∧
      ((serialRace articleTurns).records.pendingTasks (Uuid.ofNat 32)).map (·.stepId) =
        ["print", "write", "review", "print"] ∧
      Perseveres (({} : World).after serialBegins).records
        ((({} : World).after serialBegins).after serialForks).records ∧
      Perseveres ((({} : World).after serialBegins).after serialForks).records
        (serialRace articleTurns).records ∧
      Perseveres (serialRace articleTurns).records
        (serialRace (articleTurns ++ articleTurns)).records := by
  have reached : Reachable (fun _ => True) (({} : World).after serialBegins) :=
    Reachable.empty.after serialBegins (fun _ _ _ => trivial) (by decide)
  have moves : ∀ i, (serialCalls i).call.Moves := by
    intro i
    match i with
    | 0 | 1 | 2 | _ + 3 => trivial
  have distinct : (serialRace (articleTurns ++ articleTurns)).Distinct
      ((({} : World).after serialBegins).after serialForks).drawn :=
    @System.Distinct.of_busy _ _ _ _ [0, 1, 2, 3] (by decide +kernel) (by decide +kernel)
  have endless : serialArticle.Endless "write" :=
    ⟨_, List.mem_cons_self, rfl, by decide, by decide, .always "write", by simp, by decide⟩
  refine ⟨by decide +kernel, ?_, by decide +kernel,
    endless_steps_recur reached (fun _ _ _ => trivial) (by decide +kernel) moves distinct⟩
  exact .intro _ { serialArticle with status := .active, createdAt := some .epoch } rfl rfl endless
    ⟨_, List.mem_cons_self, rfl⟩

end Workflow
