import Workflow.Proofs.Stages

/-! What a history keeps. A completed task is never written again; data that was entered into an
instance stays until the same field is entered again; and every task that was made is stored once,
in the order in which it was made. -/

namespace Workflow

namespace Json.Members

theorem value?_put (key field : String) (value : Json) (members : Members) :
    value? field (put key value members) =
      if field = key then some value else value? field members := by
  have miss {name : String} {stored : Json} {rest : Members} (other : field ≠ name) :
      value? field ((name, stored) :: rest) = value? field rest := by
    rw [value?, List.lookup_cons, beq_eq_false_iff_ne.mpr other, value?]
  by_cases same : field = key
  · subst same
    rw [if_pos rfl]
    induction members with
    | nil => exact List.lookup_cons_self
    | cons member rest ih =>
      obtain ⟨name, stored⟩ := member
      rw [put]
      split
      · exact List.lookup_cons_self
      split
      · exact List.lookup_cons_self
      next different => rw [miss different, ih]
  · rw [if_neg same]
    induction members with
    | nil => exact miss same
    | cons member rest ih =>
      obtain ⟨name, stored⟩ := member
      rw [put]
      split
      · exact miss same
      split
      next equal => rw [miss same, miss (equal ▸ same)]
      next =>
        by_cases here : field = name
        · subst here
          rw [value?, List.lookup_cons_self, value?, List.lookup_cons_self]
        · rw [miss here, miss here, ih]

private theorem value?_overlay_reverse (field : String) (base top : Members) :
    value? field (overlay base top) = (value? field top.reverse).or (value? field base) := by
  induction top generalizing base with
  | nil => rfl
  | cons member rest ih =>
    obtain ⟨key, value⟩ := member
    have last : value? field [(key, value)] = if field = key then some value else none :=
      value?_put key field value []
    have split : value? field (rest.reverse ++ [(key, value)]) =
        (value? field rest.reverse).or (value? field [(key, value)]) := List.lookup_append
    rw [overlay, List.foldl_cons, ← overlay, ih, value?_put, List.reverse_cons, split, last,
      Option.or_assoc]
    by_cases same : field = key
    · rw [if_pos same, if_pos same, Option.some_or]
    · rw [if_neg same, if_neg same, Option.none_or]

theorem value?_overlay (field : String) (base top : Members) :
    value? field (overlay base top) = (value? field (ofList top)).or (value? field base) := by
  have none : value? field [] = none := rfl
  rw [ofList, value?_overlay_reverse, value?_overlay_reverse, none, Option.or_none]

theorem value?_overlay_other {field : String} {base top : Members}
    (other : field ∉ top.map (·.1)) : value? field (overlay base top) = value? field base := by
  induction top generalizing base with
  | nil => rfl
  | cons member rest ih =>
    simp only [List.map_cons, List.mem_cons, not_or] at other
    rw [overlay, List.foldl_cons, ← overlay, ih other.2, value?_put, if_neg other.1]

end Json.Members

variable {permits : Moment → Prop} {records : MemoryStore}

@[simp] theorem Instance.withPending_data {target : Instance} {steps : List String}
    {now : Timestamp} : (target.withPending steps now).data = target.data := by
  unfold withPending
  split <;> rfl

namespace Completion

variable {id : Uuid} {data : Json.Members} {principal : String}
  (done : Completion permits records id data principal)

theorem task?_after (fresh : Fresh records done.ids) :
    (records.commit done.changes).task? id =
      some (done.task.complete data principal done.now) := by
  have same : (done.task.complete data principal done.now).id = id := done.task_id
  rw [MemoryStore.task?, done.tasks_after fresh, List.find?_append, find?_upsert, if_pos same,
    Option.some_or]

theorem createdTasks_eq : done.changes.createdTasks = done.created := by
  have first : (done.task.complete data principal done.now).isPending = false := rfl
  rw [ChangeSet.createdTasks, changes, completionChanges, List.filter_cons_of_neg (by simp [first])]
  exact List.filter_eq_self.mpr fun task member => (done.created_pending member).2

theorem task?_other (fresh : Fresh records done.ids) {other : Uuid} {task : Task}
    (found : records.task? other = some task) (different : other ≠ id) :
    (records.commit done.changes).task? other = some task := by
  rw [MemoryStore.task?_commit_other, found]
  intro known
  rcases List.mem_cons.mp known with same | created
  · exact different (same.trans done.task_id)
  · obtain ⟨one, member, same⟩ := List.mem_map.mp created
    apply done.created_new fresh member
    rw [same, ← MemoryStore.task?_id found]
    exact List.mem_map.mpr ⟨task, MemoryStore.mem_of_task? found, rfl⟩

end Completion

/-- A completed task stays as it is. -/
theorem Effect.keeps_completed {α : Type} {call : EngineCall α} {value : α} {drawn : List Uuid}
    {after : MemoryStore} (effect : Effect permits records call value drawn after)
    (fresh : Fresh records drawn) {id : Uuid} {task : Task}
    (found : records.task? id = some task) (completed : task.isPending = false) :
    after.task? id = some task := by
  cases effect with
  | read _ => exact found
  | defined _ _ _ => exact found
  | activated _ _ => exact found
  | begun begun =>
    rw [MemoryStore.task?_commit_other, found]
    intro known
    have same : id = begun.taskId := List.mem_singleton.mp known
    apply fresh.tasks begun.taskId List.mem_cons_self
    rw [← same, ← MemoryStore.task?_id found]
    exact List.mem_map.mpr ⟨task, MemoryStore.mem_of_task? found, rfl⟩
  | completed done =>
    refine done.task?_other fresh found ?_
    intro same
    rw [same, done.found] at found
    cases found
    cases completed.symm.trans done.advances.pending

theorem Effect.keeps_houses {α : Type} {call : EngineCall α} {value : α} {drawn : List Uuid}
    {after : MemoryStore} (effect : Effect permits records call value drawn after)
    (fresh : Fresh records drawn) {id target : Uuid} (houses : Houses records id target) :
    Houses after id target := by
  cases effect with
  | read _ => exact houses
  | defined _ _ _ => exact houses
  | activated _ _ => exact houses
  | begun begun => exact houses.commit (begun.confined fresh)
  | completed done => exact houses.commit (done.confined fresh)

/-- Whether a call enters a field into an instance that is stored with its tasks. -/
def EngineCall.Enters {α : Type} (records : MemoryStore) (target : Uuid) (field : String) :
    EngineCall α → Prop
  | complete task data _ => Houses records task target ∧ field ∈ data.map (·.1)
  | _ => False

def Recorded (records : MemoryStore) (target : Uuid) (field : String) (value : Json) : Prop :=
  ∃ stored, records.instance? target = some stored ∧
    Json.Members.value? field stored.data = some value

theorem Effect.keeps_field {α : Type} {call : EngineCall α} {answer : α} {drawn : List Uuid}
    {after : MemoryStore} (effect : Effect permits records call answer drawn after)
    (fresh : Fresh records drawn) {target : Uuid} {field : String} {value : Json}
    (entered : Recorded records target field value) (other : ¬ call.Enters records target field) :
    Recorded after target field value := by
  obtain ⟨stored, found, has⟩ := entered
  cases effect with
  | read _ => exact ⟨stored, found, has⟩
  | defined _ _ _ => exact ⟨stored, found, has⟩
  | activated _ _ => exact ⟨stored, found, has⟩
  | begun begun =>
    refine ⟨stored, ?_, has⟩
    rw [MemoryStore.instance?_commit, if_neg, found]
    intro same
    have known : begun.id = target := same
    have unknown := begun.unknown fresh
    rw [known, found] at unknown
    cases unknown
  | completed done =>
    by_cases same : done.target.id = target
    · have housed := done.housed
      rw [← done.target_id, same, found] at housed
      cases housed
      refine ⟨done.changes.target, same ▸ done.housed_after, ?_⟩
      rw [Completion.changes, completionChanges, Instance.withPending_data,
        Json.Members.value?_overlay_other, has]
      exact fun member => other ⟨⟨done.task, done.found, done.target_id.symm.trans same⟩, member⟩
    · refine ⟨stored, ?_, has⟩
      rw [MemoryStore.instance?_commit, done.changes_id, if_neg same, found]

/-- The tasks that a successful call makes, given its answer and the identifiers drawn by then, the
last one first. -/
def EngineCall.made {α : Type} : EngineCall α → α → List Uuid → List Uuid
  | complete .., outcome, _ => outcome.createdTasks.map (·.id)
  | start .., _, drawn => drawn.take 1
  | _, _, _ => []

theorem Effect.tasks_made {α : Type} {call : EngineCall α} {answer : α} {new drawn : List Uuid}
    {after : MemoryStore} (effect : Effect permits records call answer new after)
    (fresh : Fresh records new) :
    after.tasks.map (·.id) = records.tasks.map (·.id) ++ call.made answer (new ++ drawn) := by
  cases effect with
  | read query =>
    cases call with
    | define _ | activate _ | start _ _ _ | complete _ _ _ => cases query
    | _ => exact (List.append_nil _).symm
  | defined _ _ _ => exact (List.append_nil _).symm
  | activated _ _ => exact (List.append_nil _).symm
  | begun begun =>
    rw [begun.tasks_after fresh, List.map_append]
    rfl
  | @completed _ data principal done =>
    have known : (done.task.complete data principal done.now).id ∈ records.tasks.map (·.id) :=
      List.mem_map.mpr ⟨done.task, MemoryStore.mem_of_task? done.found, rfl⟩
    rw [done.tasks_after fresh, List.map_append, map_key_upsert_known known]
    exact congrArg (_ ++ List.map _ ·) done.createdTasks_eq.symm

namespace World

variable {world : World}

def made (world : World) (attempt : Attempt) : List Uuid :=
  match (world.perform attempt).1 with
  | .ok value => attempt.call.made value (world.perform attempt).2.drawn
  | .error _ => []

def madeBy : World → List Attempt → List Uuid
  | _, [] => []
  | world, attempt :: rest => world.made attempt ++ (world.perform attempt).2.madeBy rest

/-- What every effect of a call leads to holds behind the call, if it held before. -/
theorem Sound.perform_keeps (holds : MemoryStore → Prop) (sound : world.Sound permits)
    {attempt : Attempt} (within : attempt.Within permits)
    (fresh : (world.perform attempt).2.drawn.Nodup)
    (keeps : ∀ value new after, Effect permits world.records attempt.call value new after →
      Fresh world.records new → holds after)
    (before : holds world.records) : holds (world.perform attempt).2.records := by
  have serves := world.perform_serves attempt within
  cases result : (world.perform attempt).1 with
  | error failure =>
    rw [result] at serves
    have same : (world.perform attempt).2.records = world.records := serves
    rw [same]
    exact before
  | ok value =>
    rw [result] at serves
    obtain ⟨new, grown, effect⟩ := serves
    rw [grown] at fresh
    exact keeps value new _ effect (sound.accounted.fresh fresh)

theorem Sound.tasks_made (sound : world.Sound permits) {attempt : Attempt}
    (within : attempt.Within permits) (fresh : (world.perform attempt).2.drawn.Nodup) :
    (world.perform attempt).2.records.tasks.map (·.id) =
      world.records.tasks.map (·.id) ++ world.made attempt := by
  have serves := world.perform_serves attempt within
  cases result : (world.perform attempt).1 with
  | error failure =>
    rw [result] at serves
    have same : (world.perform attempt).2.records = world.records := serves
    rw [same, made, result, List.append_nil]
  | ok value =>
    rw [result] at serves
    obtain ⟨new, grown, effect⟩ := serves
    rw [grown] at fresh
    rw [effect.tasks_made (sound.accounted.fresh fresh), made, result, grown]

theorem perform_pending {attempt : Attempt} (within : attempt.Within permits) {id : Uuid}
    (completes : attempt.call.task? = some id) {value : attempt.Answer}
    (succeeded : (world.perform attempt).1 = .ok value) :
    ∃ task, world.records.task? id = some task ∧ task.isPending = true := by
  obtain ⟨call, moments⟩ := attempt
  cases call with
  | complete task data principal =>
    cases completes
    have completes := world.perform_complete id data principal within
    rw [succeeded] at completes
    obtain ⟨done, _⟩ := completes
    exact ⟨done.task, done.found, done.advances.pending⟩
  | _ => cases completes

end World

namespace Reachable

variable {world : World} {attempts : List Attempt}

/-- What every effect of a call keeps is kept by a history. -/
theorem keeps (holds : MemoryStore → Prop) (reached : Reachable permits world)
    (within : ∀ attempt ∈ attempts, attempt.Within permits)
    (fresh : (world.after attempts).drawn.Nodup)
    (keeps : ∀ (records : MemoryStore) (attempt : Attempt) value new after,
      Effect permits records attempt.call value new after → Fresh records new →
        holds records → holds after)
    (before : holds world.records) : holds (world.after attempts).records := by
  induction attempts generalizing world with
  | nil => exact before
  | cons attempt rest ih =>
    have first := within attempt List.mem_cons_self
    have new := World.fresh_perform fresh
    refine ih (.perform reached attempt first new) ?_ fresh ?_
    · intro other member
      exact within other (List.mem_cons_of_mem _ member)
    · refine reached.sound.perform_keeps holds first new ?_ before
      intro value new after effect apart
      exact keeps _ attempt value new after effect apart before

/-- What holds without records, and is kept by every effect on sound records, holds in every reachable
world. -/
theorem invariant (holds : MemoryStore → Prop) (reached : Reachable permits world)
    (empty : holds {})
    (keeps : ∀ (records : MemoryStore) (attempt : Attempt) value new after,
      Sound permits records → Effect permits records attempt.call value new after →
        Fresh records new → holds records → holds after) : holds world.records := by
  induction reached with
  | empty => exact empty
  | perform reached attempt within fresh ih =>
    refine reached.sound.perform_keeps holds within fresh ?_ ih
    intro value new after effect apart
    exact keeps _ attempt value new after reached.sound.records effect apart ih

theorem keeps_completed (reached : Reachable permits world)
    (within : ∀ attempt ∈ attempts, attempt.Within permits)
    (fresh : (world.after attempts).drawn.Nodup) {id : Uuid} {task : Task}
    (found : world.records.task? id = some task) (completed : task.isPending = false) :
    (world.after attempts).records.task? id = some task := by
  refine reached.keeps (·.task? id = some task) within fresh ?_ found
  intro _ _ _ _ _ effect apart before
  exact effect.keeps_completed apart before completed

theorem keeps_houses (reached : Reachable permits world)
    (within : ∀ attempt ∈ attempts, attempt.Within permits)
    (fresh : (world.after attempts).drawn.Nodup) {id target : Uuid}
    (houses : Houses world.records id target) : Houses (world.after attempts).records id target := by
  refine reached.keeps (Houses · id target) within fresh ?_ houses
  intro _ _ _ _ _ effect apart before
  exact effect.keeps_houses apart before

/-- What was entered into an instance is there at the end of a history in which it is not entered
again. -/
theorem keeps_field (reached : Reachable permits world)
    (within : ∀ attempt ∈ attempts, attempt.Within permits)
    (fresh : (world.after attempts).drawn.Nodup) {target : Uuid} {field : String} {value : Json}
    (entered : Recorded world.records target field value)
    (others : ∀ attempt ∈ attempts,
      ¬ attempt.call.Enters (world.after attempts).records target field) :
    Recorded (world.after attempts).records target field value := by
  induction attempts generalizing world with
  | nil => exact entered
  | cons attempt rest ih =>
    have first := within attempt List.mem_cons_self
    have new := World.fresh_perform fresh
    have start : Reachable permits (world.perform attempt).2 := .perform reached attempt first new
    have later : ∀ other ∈ rest, other.Within permits := fun other member =>
      within other (List.mem_cons_of_mem _ member)
    refine ih start later fresh ?_ fun other member => others other (List.mem_cons_of_mem _ member)
    refine reached.sound.perform_keeps (Recorded · target field value) first new ?_ entered
    intro answer drawn after effect apart
    refine effect.keeps_field apart entered fun enters => others attempt List.mem_cons_self ?_
    obtain ⟨call, moments⟩ := attempt
    cases call with
    | complete task data principal =>
      -- The task is still stored with its instance when the history is over.
      obtain ⟨houses, member⟩ := enters
      refine ⟨start.keeps_houses later fresh ?_, member⟩
      refine reached.sound.perform_keeps (Houses · task target) first new ?_ houses
      intro _ _ _ effect apart
      exact effect.keeps_houses apart houses
    | _ => exact enters.elim

/-- A history stores the tasks that its calls make, in their order, behind those that were there. -/
theorem tasks_made (reached : Reachable permits world)
    (within : ∀ attempt ∈ attempts, attempt.Within permits)
    (fresh : (world.after attempts).drawn.Nodup) :
    (world.after attempts).records.tasks.map (·.id) =
      world.records.tasks.map (·.id) ++ world.madeBy attempts := by
  induction attempts generalizing world with
  | nil => exact (List.append_nil _).symm
  | cons attempt rest ih =>
    have first := within attempt List.mem_cons_self
    have new := World.fresh_perform fresh
    have later := ih (.perform reached attempt first new)
      (fun other member => within other (List.mem_cons_of_mem _ member)) fresh
    rw [reached.sound.tasks_made first new, List.append_assoc] at later
    exact later

end Reachable

/-- A completion that is stored: its task has its data and its principal, and its instance has its
fields, except those that later calls enter. -/
inductive Retains (records : MemoryStore) (id : Uuid) (data : Json.Members) (principal : String)
    (later : List Attempt) : Prop where
  | intro (task : Task) (found : records.task? id = some task)
      (completed : task.status = .completed) (entered : task.data = data)
      (acted : task.completedBy = some principal)
      (merged : ∀ field value, Json.Members.value? field (.ofList data) = some value →
        (∀ attempt ∈ later, ¬ attempt.call.Enters records task.instanceId field) →
          Recorded records task.instanceId field value)

namespace Reachable

variable {world : World} {later : List Attempt} {id : Uuid} {data : Json.Members}
  {principal : String} {moments : Moments}

/-- A completion is still stored at the end of a history that goes on from it. -/
theorem retains (reached : Reachable permits world)
    (within : ∀ attempt ∈ ⟨.complete id data principal, moments⟩ :: later, attempt.Within permits)
    (fresh : (world.after (⟨.complete id data principal, moments⟩ :: later)).drawn.Nodup)
    {outcome : TaskCompletion}
    (succeeded : (world.perform ⟨.complete id data principal, moments⟩).1 = .ok outcome) :
    Retains (world.after (⟨.complete id data principal, moments⟩ :: later)).records id data
      principal later := by
  have first := within _ List.mem_cons_self
  have new := World.fresh_perform fresh
  have start := reached.perform _ first new
  have rest : ∀ attempt ∈ later, attempt.Within permits := fun attempt member =>
    within attempt (List.mem_cons_of_mem _ member)
  have completes := world.perform_complete id data principal first
  rw [succeeded] at completes
  obtain ⟨done, _, written, grown, _⟩ := completes
  rw [grown] at new
  have apart := reached.sound.accounted.fresh new
  have stored : (world.perform ⟨.complete id data principal, moments⟩).2.records.task? id =
      some (done.task.complete data principal done.now) := by
    rw [written]
    exact done.task?_after apart
  refine .intro _ (start.keeps_completed rest fresh stored rfl) rfl rfl rfl ?_
  intro field value has others
  refine start.keeps_field rest fresh ⟨done.changes.target, ?_, ?_⟩ others
  · rw [written]
    exact done.target_id ▸ done.housed_after
  · rw [Completion.changes, completionChanges, Instance.withPending_data,
      Json.Members.value?_overlay, has, Option.some_or]

theorem completes_once (reached : Reachable permits world) {attempts : List Attempt}
    (within : ∀ attempt ∈ attempts, attempt.Within permits)
    (fresh : (world.after attempts).drawn.Nodup)
    (succeeds : ∀ before attempt after, attempts = before ++ attempt :: after →
      ∃ value, ((world.after before).perform attempt).1 = .ok value) :
    (attempts.filterMap (·.call.task?)).Nodup := by
  induction attempts generalizing world with
  | nil => exact List.nodup_nil
  | cons attempt rest ih =>
    have first := within attempt List.mem_cons_self
    have new := World.fresh_perform fresh
    have start : Reachable permits (world.perform attempt).2 := .perform reached attempt first new
    have later : ∀ other ∈ rest, other.Within permits := fun other member =>
      within other (List.mem_cons_of_mem _ member)
    have apart := ih start later fresh fun before other after split =>
      succeeds (attempt :: before) other after (congrArg (attempt :: ·) split)
    obtain ⟨value, succeeded⟩ := succeeds [] attempt rest rfl
    obtain ⟨call, moments⟩ := attempt
    cases call with
    | complete id data principal =>
      refine List.nodup_cons.mpr ⟨?_, apart⟩
      intro again
      obtain ⟨other, member, same⟩ := List.mem_filterMap.mp again
      obtain ⟨before, after, split⟩ := List.append_of_mem member
      subst split
      have early : ∀ attempt ∈ ⟨.complete id data principal, moments⟩ :: before,
          attempt.Within permits := by
        intro attempt member
        rcases List.mem_cons.mp member with same | member
        · exact same ▸ first
        · exact later attempt (List.mem_append_left _ member)
      obtain ⟨task, found, completed, _, _, _⟩ :=
        reached.retains early (World.fresh_append fresh) succeeded
      obtain ⟨value, again⟩ := succeeds (_ :: before) other after rfl
      obtain ⟨stored, known, pending⟩ :=
        World.perform_pending (later other (List.mem_append_right _ List.mem_cons_self)) same again
      cases found.symm.trans known
      rw [Task.isPending, completed] at pending
      cases pending
    | _ => exact apart

end Reachable

end Workflow
