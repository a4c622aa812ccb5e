import Workflow.Proofs.CompletionOutcome
import Workflow.Proofs.Effort

/-! Instances of definitions without cycles come to an end. The effort that is left in the pending
tasks of an instance is its measure: no call adds to it, and every completion takes from it. -/

namespace Workflow

open World

/-- A directory that is reached gives every role the same holders each time. -/
def Consults (roster : String → List String) (moment : Moment) : Prop :=
  ∀ role principals, moment.holders role = .ok principals → principals = roster role

/-- Every role that a rule names is held by somebody. -/
def Definition.Staffed (definition : Definition) (roster : String → List String) : Prop :=
  ∀ step ∈ definition.steps, ∀ rule, step.assign = some rule →
    ∀ role, rule.role.bind nonEmpty = some role → roster role ≠ []

inductive Governs (records : MemoryStore) (definition : Definition) (id : Uuid) : Prop where
  | intro (target : Instance) (housed : records.instance? id = some target)
      (defined : records.definition? target.definitionId = some definition)
      (active : definition.status = .active)

def pendingEffort (records : MemoryStore) (definition : Definition) (id : Uuid) : Nat :=
  ((records.pendingTasks id).map fun task => definition.effort task.stepId).sum

def EngineCall.finishes {α : Type} : EngineCall α → α → Uuid → Bool
  | complete .., outcome, id => outcome.instanceId = id
  | _, _, _ => false

theorem EngineCall.finishes_complete (task : Uuid) (data : Json.Members) (principal : String)
    (outcome : TaskCompletion) (id : Uuid) :
    (complete task data principal).finishes outcome id = decide (outcome.instanceId = id) :=
  rfl

namespace World

def finished (id : Uuid) (world : World) (attempt : Attempt) : Nat :=
  match (world.perform attempt).1 with
  | .ok value => if attempt.call.finishes value id then 1 else 0
  | .error _ => 0

def completions (id : Uuid) (world : World) : List Attempt → Nat
  | [] => 0
  | attempt :: rest => world.finished id attempt + completions id (world.perform attempt).2 rest

end World

variable {permits past : Moment → Prop} {records : MemoryStore} {definition : Definition}

theorem Creates.effort {target : Instance} {acting : String} {now : Timestamp}
    {arrivals : List Arrival} {tasks : List Task}
    (creates : Creates permits target acting now arrivals tasks) (definition : Definition) :
    (tasks.map fun task => definition.effort task.stepId).sum =
      (arrivals.map definition.effortOf).sum := by
  induction creates with
  | nil => rfl
  | cons resolved later ih =>
    simp only [List.map_cons, List.sum_cons, ih]
    rfl

theorem sum_filter_add_le {α : Type} (keeps : α → Bool) {items : List α} {item : α}
    (member : item ∈ items) (out : keeps item = false) (weight : α → Nat) :
    ((items.filter keeps).map weight).sum + weight item ≤ (items.map weight).sum := by
  induction items with
  | nil => cases member
  | cons first rest ih =>
    rcases List.mem_cons.mp member with same | later
    · subst same
      have fewer := ((rest.filter_sublist (p := keeps)).map weight).sum_le_sum
        fun _ _ => Nat.zero_le _
      rw [List.filter_cons_of_neg (by simp [out]), List.map_cons, List.sum_cons]
      omega
    have bound := ih later
    cases through : keeps first with
    | true =>
      rw [List.filter_cons_of_pos through, List.map_cons, List.map_cons, List.sum_cons,
        List.sum_cons]
      omega
    | false =>
      rw [List.filter_cons_of_neg (by simp [through]), List.map_cons, List.sum_cons]
      omega

/-- A completion takes at least its own task off the effort that is left. -/
theorem Completion.effort_lt {id : Uuid} {data : Json.Members} {principal : String}
    (done : Completion permits records id data principal) (sound : Sound past records)
    (fresh : Fresh records done.ids) (acyclic : done.definition.Acyclic) :
    pendingEffort (records.commit done.changes) done.definition done.target.id <
      pendingEffort records done.definition done.target.id := by
  have stored := MemoryStore.mem_of_task? done.found
  have waits : done.task ∈ records.pendingTasks done.target.id :=
    MemoryStore.mem_pendingTasks.mpr ⟨stored, done.target_id.symm, done.advances.pending⟩
  have makes : done.step.kind.createsTask = true := by
    obtain ⟨_, _, _, _, _, housed, defined, found, makes, _⟩ := sound.placed done.task stored
    cases done.housed.symm.trans housed
    cases done.defined.symm.trans defined
    cases done.advances.placed.symm.trans found
    exact makes
  have own := Definition.effort_task acyclic done.advances.placed makes
  have created := done.advances.creates.effort done.definition
  have routed := Definition.effort_arrivals_le acyclic
    (Json.Members.overlay done.target.data data) done.step
  have rest := sum_filter_add_le (fun task => task.id ≠ done.task.id ∧ task.isPending) waits
    (by simp) fun task => done.definition.effort task.stepId
  rw [pendingEffort, done.pendingTasks_after sound.tasks fresh, remaining, List.map_append,
    List.sum_append, pendingEffort]
  omega

theorem Completion.governs_after {id : Uuid} {data : Json.Members} {principal : String}
    (done : Completion permits records id data principal) (active : done.definition.status = .active) :
    Governs (records.commit done.changes) done.definition done.target.id :=
  .intro done.changes.target done.housed_after done.defined_after active

/-- A commit for one instance leaves the others governed and their effort as it is. -/
theorem Governs.commit_other {changes : ChangeSet} {id : Uuid}
    (governs : Governs records definition id) (confined : records.Confined changes)
    (different : changes.target.id ≠ id) :
    Governs (records.commit changes) definition id ∧
      pendingEffort (records.commit changes) definition id = pendingEffort records definition id := by
  obtain ⟨target, housed, defined, active⟩ := governs
  refine ⟨.intro target ?_ ?_ active, ?_⟩
  · rw [MemoryStore.instance?_commit, if_neg different]
    exact housed
  · rw [MemoryStore.definition?_commit]
    exact defined
  · rw [pendingEffort, MemoryStore.pendingTasks_commit_other confined different, pendingEffort]

theorem Governs.saveDefinition {other : Definition} {id : Uuid}
    (governs : Governs records definition id)
    (draft : ∀ old, records.definition? other.id = some old → old.status = .draft) :
    Governs (records.saveDefinition other) definition id := by
  obtain ⟨target, housed, defined, active⟩ := governs
  refine .intro target housed ?_ active
  rw [MemoryStore.definition?_saveDefinition, if_neg]
  · exact defined
  · intro same
    cases active.symm.trans (draft definition (same ▸ defined))

/-- No call adds to the effort that is left for an instance, and a completion takes from it. -/
theorem Effect.effort_le {α : Type} {call : EngineCall α} {value : α} {drawn : List Uuid}
    {after : MemoryStore} (effect : Effect permits records call value drawn after)
    (sound : Sound past records) (fresh : Fresh records drawn) {id : Uuid}
    (governs : Governs records definition id) (acyclic : definition.Acyclic) :
    Governs after definition id ∧
      (if call.finishes value id then 1 else 0) + pendingEffort after definition id ≤
        pendingEffort records definition id := by
  cases effect with
  | @read _ call _ query =>
    have looks : call.finishes value id = false := by
      cases call with
      | complete _ _ _ => cases query
      | _ => rfl
    rw [looks]
    exact ⟨governs, by simp⟩
  | defined _ _ unused =>
    refine ⟨governs.saveDefinition ?_, Nat.le_of_eq (Nat.zero_add _)⟩
    intro old found
    cases unused.symm.trans found
  | @activated other draft found isDraft =>
    refine ⟨governs.saveDefinition ?_, Nat.le_of_eq (Nat.zero_add _)⟩
    intro old known
    have same : records.definition? draft.id = some old := known
    rw [MemoryStore.definition?_id found, found] at same
    rw [← Option.some.inj same]
    exact isDraft
  | begun begun =>
    have different : begun.changes.target.id ≠ id := by
      obtain ⟨target, housed, _⟩ := governs
      intro same
      apply fresh.instances begun.id (by simp)
      exact List.mem_map.mpr ⟨target, MemoryStore.mem_of_instance? housed,
        (MemoryStore.instance?_id housed).trans same.symm⟩
    obtain ⟨kept, unchanged⟩ := governs.commit_other (begun.confined fresh) different
    exact ⟨kept, Nat.le_of_eq ((Nat.zero_add _).trans unchanged)⟩
  | completed done =>
    have own : done.outcome.instanceId = done.target.id := done.changes_id
    by_cases same : done.target.id = id
    · have kept := done.governs_after
      have less := done.effort_lt sound fresh
      rw [same] at kept less
      obtain ⟨target, housed, defined, active⟩ := governs
      have located : done.task.instanceId = id := done.target_id.symm.trans same
      cases (located ▸ done.housed).symm.trans housed
      cases done.defined.symm.trans defined
      rw [EngineCall.finishes_complete, own, decide_eq_true same, if_pos rfl, Nat.add_comm]
      exact ⟨kept active, less acyclic⟩
    · obtain ⟨kept, unchanged⟩ := governs.commit_other (done.confined fresh)
        (fun equal => same (done.changes_id.symm.trans equal))
      rw [EngineCall.finishes_complete, own, decide_eq_false same]
      exact ⟨kept, Nat.le_of_eq ((Nat.zero_add _).trans unchanged)⟩

namespace World

variable {world : World} {id : Uuid}

theorem perform_effort (sound : world.Sound past) (attempt : Attempt)
    (within : attempt.Within permits) (fresh : (world.perform attempt).2.drawn.Nodup)
    (governs : Governs world.records definition id) (acyclic : definition.Acyclic) :
    Governs (world.perform attempt).2.records definition id ∧
      world.finished id attempt + pendingEffort (world.perform attempt).2.records definition id ≤
        pendingEffort world.records definition id := by
  have serves := world.perform_serves attempt within
  unfold finished
  cases result : (world.perform attempt).1 with
  | error failure =>
    rw [result] at serves
    have same : (world.perform attempt).2.records = world.records := serves
    rw [same]
    exact ⟨governs, Nat.le_of_eq (Nat.zero_add _)⟩
  | ok value =>
    rw [result] at serves
    obtain ⟨new, grown, effect⟩ := serves
    rw [grown] at fresh
    exact effect.effort_le sound.records (sound.accounted.fresh fresh) governs acyclic

/-- However calls go on, they complete no more tasks of an instance than its effort allows. -/
theorem completions_le (sound : world.Sound permits) (attempts : List Attempt)
    (within : ∀ attempt ∈ attempts, attempt.Within permits)
    (fresh : (world.after attempts).drawn.Nodup) (governs : Governs world.records definition id)
    (acyclic : definition.Acyclic) :
    world.completions id attempts + pendingEffort (world.after attempts).records definition id ≤
      pendingEffort world.records definition id := by
  induction attempts generalizing world with
  | nil => exact Nat.le_of_eq (Nat.zero_add _)
  | cons attempt rest ih =>
    have first := within attempt List.mem_cons_self
    have new := fresh_perform fresh
    obtain ⟨kept, less⟩ := perform_effort sound attempt first new governs acyclic
    have later := ih (sound.perform attempt first new)
      (fun other member => within other (List.mem_cons_of_mem _ member)) fresh kept
    rw [completions, after, List.foldl_cons, ← after]
    omega

theorem start_effort (sound : world.Sound permits) {definitionId : Uuid} {data : Json.Members}
    {startedBy : String} {moments : Moments} (within : ∀ n, permits (moments n))
    (fresh : (world.perform ⟨.start definitionId data startedBy, moments⟩).2.drawn.Nodup)
    (found : world.records.definition? definitionId = some definition)
    (started : (world.perform ⟨.start definitionId data startedBy, moments⟩).1 = .ok id)
    {start : Step} (placed : definition.startStep? = some start) (acyclic : definition.Acyclic) :
    Governs (world.perform ⟨.start definitionId data startedBy, moments⟩).2.records definition id ∧
      pendingEffort (world.perform ⟨.start definitionId data startedBy, moments⟩).2.records
        definition id = 1 + definition.effortAfter start := by
  have begins := world.perform_start definitionId data startedBy within
  rw [started] at begins
  obtain ⟨begun, same, written, grown⟩ := begins
  rw [grown] at fresh
  have new := sound.accounted.fresh fresh
  cases begun.found.symm.trans found
  cases begun.placed.symm.trans placed
  rw [written, same]
  refine ⟨.intro begun.target begun.housed_after begun.defined_after begun.isActive, ?_⟩
  rw [pendingEffort, begun.pendingTasks_after sound.records new, List.map_singleton,
    List.sum_singleton]
  exact Definition.effort_task acyclic begun.located (begun.makes sound.records)

end World

theorem least_ne_none {texts : List String} (some : texts ≠ []) : least texts ≠ none := by
  cases texts with
  | nil => exact absurd rfl some
  | cons first rest =>
    clear some
    induction rest generalizing first with
    | nil => exact Option.some_ne_none first
    | cons second rest ih => exact ih (if second < first then second else first)

variable {roster : String → List String} {holds : String → String → Bool}

theorem Resolves.assigned {data : Json.Members} {acting : String} {rule : Option AssignmentRule}
    {assignment : Assignment}
    (resolves : Resolves (Consults roster) data acting rule assignment)
    (staffed : ∀ named, rule = some named → ∀ role, named.role.bind nonEmpty = some role →
      roster role ≠ []) :
    ∃ principal, assignment.principal = some principal := by
  cases resolves with
  | unruled => exact ⟨_, rfl⟩
  | direct _ => exact ⟨_, rfl⟩
  | acting _ _ => exact ⟨_, rfl⟩
  | @role rule role holders moment unnamed named consults listed =>
    have staff := staffed rule rfl role named
    rw [← consults role holders listed] at staff
    exact Option.ne_none_iff_exists'.mp (least_ne_none staff)

structure Answers (roster : String → List String) (holds : String → String → Bool)
    (moment : Moment) : Prop where
  store : moment.fault = none
  holders : ∀ role, moment.holders role = .ok (roster role)
  hasRole : ∀ principal role, moment.hasRole principal role = .ok (holds principal role)

theorem Answers.healthy {moment : Moment} (answers : Answers roster holds moment) :
    Healthy holds moment :=
  ⟨answers.store, fun role => ⟨_, answers.holders role⟩, answers.hasRole⟩

theorem Answers.consults {moment : Moment} (answers : Answers roster holds moment) :
    Consults roster moment := by
  intro role principals listed
  exact Except.ok.inj (listed.symm.trans (answers.holders role))

structure Progresses (roster : String → List String) (holds : String → String → Bool)
    (world : World) (definition : Definition) (target : Instance) : Prop where
  ends : target.status = .completed ∧ world.records.pendingTasks target.id = [] ∨
    target.status = .running ∧ world.records.pendingTasks target.id ≠ []
  assigned : ∀ task ∈ world.records.pendingTasks target.id,
    ∃ principal, task.assignee = some principal
  advances : ∀ task ∈ world.records.pendingTasks target.id,
    ∀ principal, task.assignee = some principal → ∀ data moments,
      (∀ n, Answers roster holds (moments n)) →
      (world.perform ⟨.complete task.id data principal, moments⟩).2.drawn.Nodup →
        (∃ outcome, (world.perform ⟨.complete task.id data principal, moments⟩).1 = .ok outcome) ∧
          pendingEffort (world.perform ⟨.complete task.id data principal, moments⟩).2.records
              definition target.id <
            pendingEffort world.records definition target.id

namespace World

variable {world : World} {id : Uuid}

theorem Sound.governs (sound : world.Sound past) {target : Instance}
    (stored : target ∈ world.records.instances)
    (defined : world.records.definition? target.definitionId = some definition) :
    Governs world.records definition target.id := by
  obtain ⟨active, same, status⟩ := sound.records.governed target stored
  cases defined.symm.trans same
  exact .intro target (sound.records.instance?_of_mem stored) defined status

theorem complete_advances (sound : world.Sound past) (governs : Governs world.records definition id)
    (acyclic : definition.Acyclic) {task : Task} (waits : task ∈ world.records.pendingTasks id)
    {principal : String} (own : task.assignee = some principal) (data : Json.Members)
    {moments : Moments} (healthy : ∀ n, Healthy holds (moments n))
    (fresh : (world.perform ⟨.complete task.id data principal, moments⟩).2.drawn.Nodup) :
    (∃ outcome, (world.perform ⟨.complete task.id data principal, moments⟩).1 = .ok outcome) ∧
      Governs (world.perform ⟨.complete task.id data principal, moments⟩).2.records definition id ∧
      pendingEffort (world.perform ⟨.complete task.id data principal, moments⟩).2.records
          definition id <
        pendingEffort world.records definition id := by
  obtain ⟨stored, located, pending⟩ := MemoryStore.mem_pendingTasks.mp waits
  have found : world.records.task? task.id = some task := find?_of_mem sound.records.tasks stored
  have determined :=
    (complete_concludes sound.records task.id data principal healthy).determined
  obtain ⟨outcome, succeeded⟩ :=
    determined.ok.mpr ⟨task, found, Task.status_of_pending pending, Or.inl own⟩
  refine ⟨⟨outcome, succeeded⟩, ?_⟩
  have completes := world.perform_complete task.id data principal healthy
  rw [succeeded] at completes
  obtain ⟨done, same, _⟩ := completes
  have reported : outcome.instanceId = id := by
    have picked : done.task = task := Option.some.inj (done.found.symm.trans found)
    have housed : done.target.id = id := by rw [done.target_id, picked, located]
    exact same ▸ done.changes_id.trans housed
  have finished : world.finished id ⟨.complete task.id data principal, moments⟩ = 1 := by
    unfold finished
    rw [succeeded]
    exact if_pos (decide_eq_true reported)
  obtain ⟨kept, less⟩ := perform_effort sound ⟨.complete task.id data principal, moments⟩ healthy
    fresh governs acyclic
  exact ⟨kept, by omega⟩

theorem progresses (sound : world.Sound (Consults roster)) {target : Instance}
    (stored : target ∈ world.records.instances)
    (defined : world.records.definition? target.definitionId = some definition)
    (acyclic : definition.Acyclic) (staffed : definition.Staffed roster) :
    Progresses roster holds world definition target := by
  have housed := sound.records.instance?_of_mem stored
  have governs := sound.governs stored defined
  have balanced := sound.records.balanced target stored
  refine ⟨?_, ?_, ?_⟩
  · have ended : target.status = .completed ↔ world.records.pendingTasks target.id = [] := by
      rw [balanced.completed, balanced.pending, List.map_eq_nil_iff]
    cases status : target.status with
    | completed => exact Or.inl ⟨rfl, ended.mp status⟩
    | running => exact Or.inr ⟨rfl, fun none => nomatch status.symm.trans (ended.mpr none)⟩
  · intro task waits
    obtain ⟨known, located, _⟩ := MemoryStore.mem_pendingTasks.mp waits
    obtain ⟨home, other, step, data, acting, found, governing, placed, _, owned⟩ :=
      sound.records.placed task known
    rw [located, housed] at found
    cases found
    cases defined.symm.trans governing
    refine owned.assigned fun rule named role sought => ?_
    exact staffed step (Definition.mem_of_step? placed) rule named role sought
  · intro task waits principal own data moments answers fresh
    obtain ⟨succeeded, _, less⟩ := complete_advances sound governs acyclic waits own data
      (fun n => (answers n).healthy) fresh
    exact ⟨succeeded, less⟩

/-- One turn of principals who work on an instance: somebody completes a pending task that is
theirs, unless none is left. -/
inductive Turn (roster : String → List String) (holds : String → String → Bool) (id : Uuid)
    (world : World) : World → Prop where
  | rest (none : world.records.pendingTasks id = []) : Turn roster holds id world world
  | complete {task : Task} {principal : String} {data : Json.Members} {moments : Moments}
      (waits : task ∈ world.records.pendingTasks id) (own : task.assignee = some principal)
      (answers : ∀ n, Answers roster holds (moments n))
      (fresh : (world.perform ⟨.complete task.id data principal, moments⟩).2.drawn.Nodup) :
      Turn roster holds id world (world.perform ⟨.complete task.id data principal, moments⟩).2

/-- Whoever takes the turns and whatever they enter, the instance is completed in the end. -/
theorem turns_end (worlds : Nat → World)
    (turns : ∀ n, Turn roster holds id (worlds n) (worlds (n + 1)))
    (sound : (worlds 0).Sound (Consults roster)) (governs : Governs (worlds 0).records definition id)
    (acyclic : definition.Acyclic) :
    ∃ n ≤ pendingEffort (worlds 0).records definition id, ∃ target,
      (worlds n).records.instance? id = some target ∧ target.status = .completed := by
  generalize effort : pendingEffort (worlds 0).records definition id = limit
  induction limit using Nat.strongRecOn generalizing worlds with
  | ind limit ih =>
    have first := turns 0
    generalize next : worlds (0 + 1) = after at first
    cases first with
    | rest none =>
      obtain ⟨target, housed, _⟩ := governs
      have balanced := sound.records.balanced target (MemoryStore.mem_of_instance? housed)
      refine ⟨0, Nat.zero_le _, target, housed, balanced.completed.mpr ?_⟩
      rw [balanced.pending, MemoryStore.instance?_id housed, none]
      rfl
    | @complete task principal data moments waits own answers fresh =>
      obtain ⟨_, kept, less⟩ := complete_advances sound governs acyclic waits own data
        (fun n => (answers n).healthy) fresh
      have later := sound.perform ⟨.complete task.id data principal, moments⟩
        (fun n => (answers n).consults) fresh
      rw [← next] at kept less later
      obtain ⟨n, bound, ended⟩ := ih _ (by omega) (fun n => worlds (n + 1))
        (fun n => turns (n + 1)) later kept rfl
      exact ⟨n + 1, by omega, ended⟩

end World

/-- The effort of a step, by its kind: an end takes none, a gateway what leaving it takes, and every
other step one task more. -/
structure Definition.Measured (definition : Definition) : Prop where
  finish : ∀ step ∈ definition.steps, step.kind = .finish → definition.effort step.id = 0
  gateway : ∀ step ∈ definition.steps, step.kind = .gateway →
    definition.effort step.id = definition.effortAfter step
  task : ∀ step ∈ definition.steps, step.kind.createsTask = true →
    definition.effort step.id = 1 + definition.effortAfter step

theorem Definition.WellFormed.measured (formed : definition.WellFormed)
    (acyclic : definition.Acyclic) : definition.Measured := by
  have own : ∀ step ∈ definition.steps, definition.step? step.id = some step :=
    fun step member => find?_of_mem formed.distinct member
  exact ⟨fun step member => Definition.effort_finish acyclic (own step member),
    fun step member => Definition.effort_gateway acyclic (own step member),
    fun step member => Definition.effort_task acyclic (own step member)⟩

/-- Instances of a valid definition without cycles come to an end. A run has no more completions
than its start step takes effort; at any time the instance is completed, or has pending tasks which
their assignees can complete; and whoever does so, all of them are completed some time. -/
theorem acyclic_instances_converge (valid : definition.validate.isOk = true)
    (acyclic : definition.Acyclic) (staffed : definition.Staffed roster) :
    definition.Measured ∧
    (∀ (world : World) (attempts : List Attempt) (definitionId : Uuid) (data : Json.Members)
        (startedBy : String) (moments : Moments) (start : Step) (id : Uuid),
      Reachable (Consults roster) world →
      world.records.definition? definitionId = some definition →
      definition.startStep? = some start →
      (∀ n, Consults roster (moments n)) →
      (∀ attempt ∈ attempts, attempt.Within (Consults roster)) →
      (world.after (⟨.start definitionId data startedBy, moments⟩ :: attempts)).drawn.Nodup →
      (world.perform ⟨.start definitionId data startedBy, moments⟩).1 = .ok id →
      (world.perform ⟨.start definitionId data startedBy, moments⟩).2.completions id attempts ≤
        1 + definition.effortAfter start) ∧
    (∀ (world : World) (target : Instance), Reachable (Consults roster) world →
      target ∈ world.records.instances →
      world.records.definition? target.definitionId = some definition →
      Progresses roster holds world definition target) ∧
    ∀ (worlds : Nat → World) (target : Instance), Reachable (Consults roster) (worlds 0) →
      target ∈ (worlds 0).records.instances →
      (worlds 0).records.definition? target.definitionId = some definition →
      (∀ n, Turn roster holds target.id (worlds n) (worlds (n + 1))) →
      ∃ n ≤ pendingEffort (worlds 0).records definition target.id, ∃ final,
        (worlds n).records.instance? target.id = some final ∧ final.status = .completed := by
  refine ⟨(Definition.wellFormed_of_isOk valid).measured acyclic, ?_, ?_, ?_⟩
  · intro world attempts definitionId data startedBy moments start id reached found placed within
      later fresh started
    have sound := reached.sound
    have new := World.fresh_perform fresh
    obtain ⟨governs, effort⟩ :=
      World.start_effort sound within new found started placed acyclic
    have next := sound.perform ⟨.start definitionId data startedBy, moments⟩ within new
    have bound := World.completions_le next attempts later fresh governs acyclic
    omega
  · intro world target reached stored defined
    exact World.progresses reached.sound stored defined acyclic staffed
  · intro worlds target reached stored defined turns
    exact World.turns_end worlds turns reached.sound
      (reached.sound.governs stored defined) acyclic

def publishedArticle : Definition :=
  { article with status := .active, createdAt := some .epoch }

theorem publishedArticle_acyclic : publishedArticle.Acyclic :=
  Definition.acyclic_of_rank (fun id => ["write", "fork", "review", "print", "end"].idxOf id)
    (by decide)

/-- Writing, reviewing and printing an article takes three tasks, of which two are left. -/
theorem article_converges :
    publishedArticle.effort "write" = 3 ∧
      ∃ target, target ∈ (({} : World).after articleForks).records.instances ∧
        pendingEffort (({} : World).after articleForks).records publishedArticle target.id = 2 ∧
        Progresses (fun _ => ["ada"]) (fun principal _ => principal = "ada")
          (({} : World).after articleForks) publishedArticle target := by
  have staffed : publishedArticle.Staffed fun _ => ["ada"] := by
    intro step member rule named role sought none
    cases none
  have consults : ∀ first n, Consults (fun _ => ["ada"]) (calm first n) :=
    fun _ _ _ _ listed => (Except.ok.inj listed).symm
  obtain ⟨_, _, progresses, _⟩ :=
    @acyclic_instances_converge _ (fun _ => ["ada"]) (fun principal _ => principal = "ada")
      (by decide) publishedArticle_acyclic staffed
  exact ⟨by decide, _, .head _, by decide,
    progresses _ _ (article_forks consults) (.head _) rfl⟩

end Workflow
