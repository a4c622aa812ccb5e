import Workflow.Proofs.Overlap
import Workflow.Proofs.Registration

/-! What a call that asks for the state of an instance shows while others run. It reads the instance
and then its tasks, and takes no lock, so that a completion may be written in between. -/

namespace Workflow

structure Level (records : MemoryStore) : Prop where
  tasks : (records.tasks.map (·.id)).Nodup
  housed : ∀ task ∈ records.tasks, (records.instance? task.instanceId).isSome = true
  balanced : ∀ id target, records.instance? id = some target → Balances records target

namespace Level

variable {records : MemoryStore} {id : Uuid}

theorem of_sound {permits : Moment → Prop} (sound : Sound permits records) : Level records where
  tasks := sound.tasks
  housed task member := by
    obtain ⟨target, _, _, _, _, housed, _⟩ := sound.placed task member
    exact housed ▸ rfl
  balanced _ target found := sound.balanced target (MemoryStore.mem_of_instance? found)

theorem of_eq (level : Level records) {after : MemoryStore}
    (instances : after.instances = records.instances) (tasks : after.tasks = records.tasks) :
    Level after where
  tasks := tasks ▸ level.tasks
  housed task member := by
    rw [MemoryStore.instance?, instances]
    exact level.housed task (tasks ▸ member)
  balanced id target found := by
    rw [MemoryStore.instance?, instances] at found
    obtain ⟨pending, completed, dated⟩ := level.balanced id target found
    refine ⟨?_, completed, dated⟩
    rw [MemoryStore.pendingTasks, tasks]
    exact pending

theorem tasksOf_unknown (level : Level records) (absent : records.instance? id = none) :
    records.tasksOf id = [] := by
  refine List.filter_eq_nil_iff.mpr fun task member => ?_
  have housed := level.housed task member
  simp only [decide_eq_true_eq]
  rintro rfl
  rw [absent] at housed
  cases housed

theorem commit (level : Level records) {changes : ChangeSet} (confined : records.Confined changes)
    (balanced : Balances (records.commit changes) changes.target) :
    Level (records.commit changes) where
  tasks := by
    rw [MemoryStore.commit_tasks]
    exact nodup_foldl_upsert level.tasks
  housed := confined.housed level.housed
  balanced id target found := by
    rw [MemoryStore.instance?_commit] at found
    split at found
    next =>
      cases found
      exact balanced
    next different =>
      have same := MemoryStore.instance?_id found
      exact (level.balanced id target found).commit_other confined (same ▸ different)

end Level

theorem Writes.level {records : MemoryStore} {definitions : List Definition} {α : Type}
    {call : EngineCall α} {value : α} {ids : List Uuid} {changes : ChangeSet}
    (writes : Writes { records with definitions } call value ids changes)
    (fresh : Fresh records ids) (level : Level records) : Level (records.commit changes) := by
  have others : Level { records with definitions } := level.of_eq rfl rfl
  have unused := fresh.defined definitions
  have after : Level (({ records with definitions } : MemoryStore).commit changes) := by
    cases writes with
    | begun begun =>
      exact others.commit (begun.confined unused)
        (begun.balances (others.tasksOf_unknown (begun.unknown unused)) unused)
    | completed done =>
      refine others.commit (done.confined unused) (done.balances others.tasks unused ?_)
      exact others.balanced _ done.target (done.target_id ▸ done.housed)
  obtain ⟨instances, tasks⟩ := records.commit_defined definitions changes
  exact after.of_eq instances tasks

namespace System

variable {attempts : Nat → Attempt} {drawn : List Uuid} {system : System attempts}

theorem Orderly.level_step (orderly : system.Orderly drawn) (distinct : system.Distinct drawn)
    (level : Level system.records) (i : Nat) : Level (system.step i).records := by
  rcases orderly.stores distinct i with ⟨instances, tasks⟩ | ⟨changes, wrote⟩
  · exact level.of_eq instances tasks
  · obtain ⟨_, _, writes⟩ := wrote.writes
    rw [wrote.records]
    exact writes.level wrote.fresh level

theorem Orderly.level_run (orderly : system.Orderly drawn) {schedule : List Nat}
    (distinct : (system.run schedule).Distinct drawn) (level : Level system.records) :
    Level (system.run schedule).records := by
  induction schedule generalizing system with
  | nil => exact level
  | cons i rest ih =>
    have later : ((system.step i).run rest).Distinct drawn := distinct
    have now : system.Distinct drawn := later.of_run.of_step
    exact ih (orderly.step now i).1 later (orderly.level_step now level i)

end System

def EngineCall.Completes {α : Type} (call : EngineCall α) (id : Uuid) (records : MemoryStore) :
    Prop :=
  ∃ task, call.task? = some task ∧ Houses records task id

theorem EngineCall.Completes.endures {α : Type} {call : EngineCall α} {id : Uuid}
    {before after : MemoryStore} (completes : call.Completes id before)
    (endures : Endures before after) : call.Completes id after := by
  obtain ⟨task, same, old, found, home⟩ := completes
  obtain ⟨new, kept, continues⟩ := endures.tasks task old found
  exact ⟨task, same, new, kept, continues.instanceId.trans home⟩

namespace System

variable {attempts : Nat → Attempt} {drawn : List Uuid} {system : System attempts} {id : Uuid}
  {target : Instance}

/-- Only a completion of one of its tasks writes to an instance that is stored, or to its tasks. -/
theorem Orderly.keeps_step (orderly : system.Orderly drawn) (distinct : system.Distinct drawn)
    (found : system.records.instance? id = some target) (i : Nat) :
    ((system.step i).records.instance? id = some target ∧
        (system.step i).records.tasksOf id = system.records.tasksOf id) ∨
      i ∉ system.written ∧ i ∈ (system.step i).written ∧
        (attempts i).call.Completes id system.records := by
  rcases orderly.stores distinct i with ⟨instances, tasks⟩ | ⟨changes, wrote⟩
  · refine .inl ⟨?_, ?_⟩
    · rw [MemoryStore.instance?, instances]
      exact found
    · rw [MemoryStore.tasksOf, tasks, MemoryStore.tasksOf]
  by_cases same : changes.target.id = id
  · subst same
    refine .inr ⟨wrote.early, ?_, ?_⟩
    · rw [wrote.written]
      exact List.mem_append_right _ List.mem_cons_self
    · rcases wrote.place with ⟨task, completes, home, _⟩ | ⟨_, new⟩
      · exact ⟨task, completes, home⟩
      · cases new.symm.trans found
  · obtain ⟨_, _, writes⟩ := wrote.writes
    rw [wrote.records, MemoryStore.instance?_commit, if_neg same]
    exact .inl ⟨found,
      MemoryStore.tasksOf_commit_other (writes.carries wrote.fresh).confined same⟩

theorem Orderly.keeps_run (orderly : system.Orderly drawn) {schedule : List Nat}
    (distinct : (system.run schedule).Distinct drawn)
    (found : system.records.instance? id = some target) :
    ((system.run schedule).records.instance? id = some target ∧
        (system.run schedule).records.tasksOf id = system.records.tasksOf id) ∨
      ∃ i, i ∉ system.written ∧ i ∈ (system.run schedule).written ∧
        (attempts i).call.Completes id (system.run schedule).records := by
  induction schedule generalizing system with
  | nil => exact .inl ⟨found, rfl⟩
  | cons i rest ih =>
    have later : ((system.step i).run rest).Distinct drawn := distinct
    have now : system.Distinct drawn := later.of_run.of_step
    obtain ⟨next, endures⟩ := orderly.step now i
    obtain ⟨first, started⟩ := system.written_step i
    obtain ⟨last, grown⟩ := (system.step i).written_run rest
    rcases orderly.keeps_step now found i with ⟨still, tasks⟩ | ⟨early, wrote, completes⟩
    · rcases ih next later still with ⟨same, kept⟩ | ⟨j, early, wrote, completes⟩
      · exact .inl ⟨same, kept.trans tasks⟩
      · refine .inr ⟨j, fun before => early ?_, wrote, completes⟩
        rw [started]
        exact List.mem_append_left _ before
    · refine .inr ⟨i, early, ?_, completes.endures (endures.trans (next.run later).2)⟩
      change i ∈ ((system.step i).run rest).written
      rw [grown]
      exact List.mem_append_left _ wrote

end System

namespace EngineCall

def shows? {α : Type} : EngineCall α → Option Uuid
  | status id => some id
  | _ => none

def view? {α : Type} : EngineCall α → α → Option StatusView
  | status _, view => some view
  | _, _ => none

end EngineCall

def StatusView.ofTasks (target : Instance) (tasks : List Task) : StatusView where
  target
  pendingTasks := tasks.filter Task.isPending
  completedTasks := tasks.filter fun task => !task.isPending

/-- A view shows an instance and its tasks as they are stored. -/
def MemoryStore.Depicts (records : MemoryStore) (id : Uuid) (view : StatusView) : Prop :=
  records.instance? id = some view.target ∧ view = .ofTasks view.target (records.tasksOf id)

structure StatusView.Tallies (view : StatusView) : Prop where
  pending : view.target.pendingSteps = view.pendingTasks.map (·.stepId)
  completed : view.target.status = .completed ↔ view.pendingTasks = []

theorem Level.tallies {records : MemoryStore} (level : Level records) {id : Uuid}
    {view : StatusView} (depicts : records.Depicts id view) : view.Tallies := by
  obtain ⟨found, same⟩ := depicts
  have balanced := level.balanced id view.target found
  have listed : records.pendingTasks view.target.id = view.pendingTasks := by
    rw [MemoryStore.instance?_id found, MemoryStore.pendingTasks_eq, same]
    rfl
  have pending := balanced.pending
  rw [listed] at pending
  refine ⟨pending, balanced.completed.trans ?_⟩
  rw [pending, List.map_eq_nil_iff]

/-- The two reads of a call that asks for the state of an instance. -/
theorem Client.status_reads {attempt : Attempt} {id : Uuid}
    (asks : attempt.call.shows? = some id) :
    ∃ next, (Client.begin attempt).rest = .request (.store (.loadInstance id)) next ∧
      (∀ failure, next (.error failure) = .done (.error failure)) ∧
      next (.ok none) = .done (.error (.noInstance id)) ∧
      ∀ target, ∃ last, next (.ok (some target)) = .request (.store (.tasksOf id)) last ∧
        (∀ failure, last (.error failure) = .done (.error failure)) ∧
        ∀ tasks, ∃ value, last (.ok tasks) = .done (.ok value) ∧
          attempt.call.view? value = some (.ofTasks target tasks) := by
  obtain ⟨call, moments⟩ := attempt
  cases call with
  | status other =>
    cases asks
    exact ⟨_, rfl, fun _ => rfl, rfl, fun target =>
      ⟨_, rfl, fun _ => rfl, fun tasks => ⟨_, rfl, rfl⟩⟩⟩
  | _ => cases asks

namespace System

variable {attempts : Nat → Attempt} {drawn : List Uuid} {system : System attempts} {i : Nat}
  {id : Uuid} {view : StatusView}

def view? (system : System attempts) (i : Nat) : Option StatusView :=
  match (system.clients i).rest with
  | .done (.ok value) => (attempts i).call.view? value
  | _ => none

theorem step_store {β : Type} {call : StoreCall β}
    {next : Except Failure β → Program (Except Failure (attempts i).Answer)}
    (rest : (system.clients i).rest = .request (.store call) next) :
    ((system.step i).clients i).rest = next (.ok (system.records.answer call).1) ∨
      ∃ failure, ((system.step i).clients i).rest = next (.error failure) := by
  have served := (system.clients i).serve_store system.records call
  cases fault : ((attempts i).moments (system.clients i).asked).fault with
  | some failure =>
    rw [fault] at served
    rw [step_served rest rfl served]
    exact .inr ⟨failure, by simp only [Function.update_self, Client.resume]⟩
  | none =>
    rw [fault] at served
    rw [step_served rest rfl served]
    exact .inl (by simp only [Function.update_self, Client.resume])

theorem run_done {result : Except Failure (attempts i).Answer}
    (ended : (system.clients i).rest = .done result) (schedule : List Nat) :
    ((system.run schedule).clients i).rest = .done result := by
  induction schedule generalizing system with
  | nil => exact ended
  | cons j rest ih =>
    refine @ih (system.step j) ?_
    by_cases same : i = j
    · subst same
      rw [step_done ended]
      exact ended
    · rw [clients_step_other _ same]
      exact ended

theorem not_view?_failed {failure : Failure}
    (failed : (system.clients i).rest = .done (.error failure)) (schedule : List Nat) :
    (system.run schedule).view? i ≠ some view := by
  rw [view?, run_done failed]
  exact nofun

theorem view?_done {value : (attempts i).Answer}
    (ended : (system.clients i).rest = .done (.ok value)) (schedule : List Nat) :
    (system.run schedule).view? i = (attempts i).call.view? value := by
  rw [view?, run_done ended]

/-- A call that has a request left has to take a step before it returns. -/
theorem view?_request {β : Type} {operation : Request β}
    {next : β → Program (Except Failure (attempts i).Answer)}
    (rest : (system.clients i).rest = .request operation next) {schedule : List Nat}
    (returned : (system.run schedule).view? i = some view) :
    ∃ before after, schedule = before ++ i :: after ∧ i ∉ before ∧
      ((system.run before).clients i).rest = .request operation next := by
  by_cases taken : i ∈ schedule
  · obtain ⟨before, after, split, idle⟩ := List.eq_append_cons_of_mem taken
    refine ⟨before, after, split, idle, ?_⟩
    rw [clients_run_other _ idle]
    exact rest
  · rw [view?, clients_run_other _ taken, rest] at returned
    cases returned

/-- A call that has returned a view has read the instance, and its tasks at a later step. -/
theorem view?_reads (asks : (attempts i).call.shows? = some id)
    (begun : system.clients i = .begin (attempts i)) {schedule : List Nat}
    (returned : (system.run schedule).view? i = some view) :
    ∃ before between after, schedule = before ++ i :: (between ++ i :: after) ∧ i ∉ before ∧
      i ∉ between ∧ (system.run before).records.instance? id = some view.target ∧
      view = .ofTasks view.target
        ((system.run (before ++ i :: between)).records.tasksOf id) := by
  obtain ⟨next, opens, failed, missing, found⟩ := Client.status_reads asks
  rw [← begun] at opens
  obtain ⟨before, rest, rfl, first, waits⟩ := view?_request opens returned
  rw [run_append] at returned
  have ran (between : List Nat) : system.run (before ++ i :: between) =
      ((system.run before).step i).run between := run_append ..
  rcases step_store waits with read | ⟨failure, read⟩
  · change _ = next (.ok ((system.run before).records.instance? id)) at read
    cases known : (system.run before).records.instance? id with
    | none =>
      rw [known, missing] at read
      exact (not_view?_failed read rest returned).elim
    | some target =>
      obtain ⟨last, asks, failed, shows⟩ := found target
      rw [known, asks] at read
      obtain ⟨between, after, rfl, second, waits⟩ := view?_request read returned
      have later := run_append ((system.run before).step i) between (i :: after)
      rw [run, List.foldl_cons, ← run, later] at returned
      rcases step_store waits with listed | ⟨failure, listed⟩
      · obtain ⟨value, ends, views⟩ :=
          shows ((((system.run before).step i).run between).records.tasksOf id)
        have shown := view?_done (listed.trans ends) after
        cases (shown.trans views).symm.trans returned
        refine ⟨before, between, after, rfl, first, second, known, ?_⟩
        rw [ran]
        rfl
      · rw [failed] at listed
        exact (not_view?_failed listed after returned).elim
  · rw [failed] at read
    exact (not_view?_failed read rest returned).elim

/-- How a view comes about: the instance is read in one state and the tasks in the same state or a
later one. It shows one state as it is, unless a completion of the instance is written in between. -/
structure Sights (first last : System attempts) (id : Uuid) (view : StatusView) : Prop where
  target : first.records.instance? id = some view.target
  tasks : view = .ofTasks view.target (last.records.tasksOf id)
  endures : Endures first.records last.records
  whole : (∀ k ∈ last.written, k ∉ first.written → ¬ (attempts k).call.Completes id last.records) →
    first.records.Depicts id view ∧ last.records.Depicts id view ∧ view.Tallies
  final : view.target.status = .completed →
    first.records.Depicts id view ∧ last.records.Depicts id view ∧ view.Tallies

theorem Orderly.sights (orderly : system.Orderly drawn) (level : Level system.records)
    {schedule : List Nat} (distinct : (system.run schedule).Distinct drawn)
    (target : system.records.instance? id = some view.target)
    (tasks : view = .ofTasks view.target ((system.run schedule).records.tasksOf id)) :
    Sights system (system.run schedule) id view := by
  obtain ⟨_, endures⟩ := orderly.run distinct
  have depicts (still : (system.run schedule).records.instance? id = some view.target)
      (same : (system.run schedule).records.tasksOf id = system.records.tasksOf id) :
      system.records.Depicts id view ∧ (system.run schedule).records.Depicts id view ∧
        view.Tallies := by
    have before : system.records.Depicts id view := ⟨target, same ▸ tasks⟩
    exact ⟨before, ⟨still, tasks⟩, level.tallies before⟩
  refine ⟨target, tasks, endures, fun alone => ?_, fun completed => ?_⟩
  · rcases orderly.keeps_run distinct target with ⟨still, same⟩ | ⟨k, early, wrote, completes⟩
    · exact depicts still same
    · exact (alone k wrote early completes).elim
  · obtain ⟨still, same⟩ := endures.completedInstances id view.target target completed
    exact depicts still same

end System

/-- Whatever calls are under way and in whatever order their steps are taken, a call that asks for the
state of an instance shows the instance as it is at its first step and the tasks as they are at its
second one. -/
theorem status_views_sighted {permits : Moment → Prop} {initial : World}
    (reached : Reachable permits initial) {attempts : Nat → Attempt} {schedule : List Nat}
    (distinct : ((System.begin attempts initial.records).run schedule).Distinct initial.drawn)
    {i : Nat} {id : Uuid} {view : StatusView} (asks : (attempts i).call.shows? = some id)
    (returned : ((System.begin attempts initial.records).run schedule).view? i = some view) :
    ∃ before between after, schedule = before ++ i :: (between ++ i :: after) ∧ i ∉ before ∧
      i ∉ between ∧ System.Sights ((System.begin attempts initial.records).run before)
        ((System.begin attempts initial.records).run (before ++ i :: between)) id view := by
  have start := System.Orderly.begin reached.sound reached.fresh attempts
  have level : Level initial.records := .of_sound reached.sound.records
  obtain ⟨before, between, after, rfl, first, second, target, tasks⟩ :=
    System.view?_reads asks rfl returned
  refine ⟨before, between, after, rfl, first, second, ?_⟩
  have split : before ++ i :: (between ++ i :: after) =
      (before ++ i :: between) ++ i :: after := by simp
  rw [split, System.run_append] at distinct
  have now := distinct.of_run
  rw [System.run_append] at now tasks ⊢
  obtain ⟨middle, _⟩ := start.run now.of_run
  exact middle.sights (start.level_run now.of_run level) now target tasks

/-- One call asks for the state of the article, of which the others complete the two branches. -/
def articleReaders : Nat → Attempt
  | 0 => ⟨.status (Uuid.ofNat 32), calm 100⟩
  | 1 => ⟨.complete (Uuid.ofNat 48) [("grade", .int 1)] "ada", calm 200⟩
  | 2 => ⟨.complete (Uuid.ofNat 49) [("copies", .int 7)] "ada", calm 300⟩
  | _ + 3 => ⟨.tasksFor "ada" .pending, calm 400⟩

def articleRead (schedule : List Nat) : System articleReaders :=
  (System.begin articleReaders (({} : World).after articleForks).records).run schedule

/-- The review is completed, the state is read, and the print is completed. -/
def articleGlance : List Nat :=
  List.replicate 20 1 ++ [0, 0] ++ List.replicate 20 2

/-- The print is completed between the two reads. -/
def articleGap : List Nat :=
  List.replicate 20 1 ++ 0 :: (List.replicate 20 2 ++ [0])

theorem article_view_sighted :
    ∃ view, (articleRead articleGlance).view? 0 = some view ∧
      view.pendingTasks.map (·.stepId) = ["print"] ∧
      ∃ before between after, articleGlance = before ++ 0 :: (between ++ 0 :: after) ∧ 0 ∉ before ∧
        0 ∉ between ∧ System.Sights (articleRead before) (articleRead (before ++ 0 :: between))
          (Uuid.ofNat 32) view := by
  have reached : Reachable (fun _ => True) (({} : World).after articleForks) :=
    article_forks fun _ _ => trivial
  have distinct : (articleRead articleGlance).Distinct (({} : World).after articleForks).drawn :=
    @System.Distinct.of_busy _ _ _ _ [0, 1, 2] (by decide +kernel) (by decide +kernel)
  have shown : ((articleRead articleGlance).view? 0).map
      (fun view => view.pendingTasks.map (·.stepId)) = some ["print"] := by decide +kernel
  obtain ⟨view, returned, pending⟩ := Option.map_eq_some_iff.mp shown
  exact ⟨view, returned, pending, status_views_sighted reached distinct rfl returned⟩

/-- The view shows a running article that waits for the print, of which no task is pending. The
records were never like that. -/
theorem article_view_torn :
    ∃ view, (articleRead articleGap).view? 0 = some view ∧ view.target.status = .running ∧
      view.target.pendingSteps = ["print"] ∧ view.pendingTasks = [] ∧
      ∀ before after, articleGap = before ++ after →
        ¬ (articleRead before).records.Depicts (Uuid.ofNat 32) view := by
  have reached : Reachable (fun _ => True) (({} : World).after articleForks) :=
    article_forks fun _ _ => trivial
  have distinct : (articleRead articleGap).Distinct (({} : World).after articleForks).drawn :=
    @System.Distinct.of_busy _ _ _ _ [0, 1, 2] (by decide +kernel) (by decide +kernel)
  have shown : ((articleRead articleGap).view? 0).map
      (fun view => (view.target.status, view.target.pendingSteps, view.pendingTasks.isEmpty)) =
        some (.running, ["print"], true) := by decide +kernel
  obtain ⟨view, returned, same⟩ := Option.map_eq_some_iff.mp shown
  obtain ⟨status, steps, pending⟩ : view.target.status = .running ∧
      view.target.pendingSteps = ["print"] ∧ view.pendingTasks = [] := by
    simpa only [Prod.mk.injEq, List.isEmpty_iff] using same
  refine ⟨view, returned, status, steps, pending, fun before after split depicts => ?_⟩
  rw [articleRead, split, System.run_append] at distinct
  have start := System.Orderly.begin reached.sound reached.fresh articleReaders
  have level := start.level_run distinct.of_run (.of_sound reached.sound.records)
  have tallies := (level.tallies depicts).pending
  rw [steps, pending] at tallies
  cases tallies

end Workflow
