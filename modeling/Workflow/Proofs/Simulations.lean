import Workflow.CommandLine.Simulation
import Workflow.Proofs.Refusals
import Workflow.Proofs.RoundTrip

/-! Whom a simulation acts as. The one who completes a task is always let through, unless the task
is for a role that nobody holds: then nobody would be. So a simulation that has started its instance
is refused only where such a task is the first one that is pending. -/

namespace Workflow

/-- A moment at which a directory answers what it says, and nothing else fails as forbidden. -/
structure Moment.Follows (directory : Directory) (moment : Moment) : Prop where
  fault : ∀ failure, moment.fault = some failure → failure.kind ≠ .forbidden
  holders : ∀ role, moment.holders role = .ok (directory.holders role)
  hasRole : ∀ principal role, moment.hasRole principal role = .ok (directory.hasRole principal role)

variable {directory : Directory} {task : Task}

theorem Moment.follows_lenient : Lenient (Moment.Follows directory) := by
  intro failure met
  cases met with
  | store follows fault => exact follows.fault failure fault
  | holders follows reply => cases (follows.holders _).symm.trans reply
  | hasRole follows reply => cases (follows.hasRole _ _).symm.trans reply

def Task.admits (directory : Directory) (principal : String) (task : Task) : Bool :=
  task.assignee = some principal || match task.assignedRole with
    | some role => directory.hasRole principal role
    | none => task.assignee.isNone

/-- A task for a role that nobody holds. It is nobody's, and nobody may complete it. -/
def Task.IsVacant (directory : Directory) (task : Task) : Prop :=
  task.assignee = none ∧ ∃ role, task.assignedRole = some role ∧ directory.holders role = []

theorem Task.admits_of_vacant (vacant : task.IsVacant directory) (principal : String) :
    task.admits directory principal = false := by
  obtain ⟨free, role, assigned, holders⟩ := vacant
  simp [admits, free, assigned, Directory.hasRole, holders]

theorem Task.admits_of_refuses {principal : String}
    (refuses : Refuses (Moment.Follows directory) task principal) :
    task.admits directory principal = false := by
  cases refuses with
  | stranger owned other noRole => simp [admits, owned, other, noRole]
  | outsider other assigned follows held =>
    have missing := Except.ok.inj ((follows.hasRole principal _).symm.trans held)
    simp [admits, other, assigned, missing]

namespace Simulation

/-- The one who is to complete a task may do so, unless it is for a role that nobody holds. -/
theorem admits_completer (occupied : ¬ task.IsVacant directory) (fallback : String) :
    task.admits directory (completer directory fallback task) = true := by
  cases owned : task.assignee with
  | some principal => simp [Task.admits, completer, owned]
  | none =>
    cases assigned : task.assignedRole with
    | none => simp [Task.admits, owned, assigned]
    | some role =>
      cases holders : directory.holders role with
      | nil => exact absurd ⟨owned, role, assigned, holders⟩ occupied
      | cons holder others =>
        simp [Task.admits, completer, Directory.hasRole, owned, assigned, holders]

/-- What holds of the result of a simulation, of the events behind it and of the host once it has
run. -/
def Ends {α : Type} (moments : Moments) (simulation : Simulation α) (events : List SimulationEvent)
    (host : Host) (post : Except CommandFault α → List SimulationEvent → Host → Prop) : Prop :=
  post (Host.run moments (simulation.run.run events) host).1.1
    (Host.run moments (simulation.run.run events) host).1.2
    (Host.run moments (simulation.run.run events) host).2

namespace Ends

variable {moments : Moments} {events : List SimulationEvent} {host : Host} {α β : Type}

theorem mono {simulation : Simulation α}
    {first post : Except CommandFault α → List SimulationEvent → Host → Prop}
    (ends : Ends moments simulation events host first)
    (implies : ∀ result told after, first result told after → post result told after) :
    Ends moments simulation events host post :=
  implies _ _ _ ends

theorem pure {value : α} {post : Except CommandFault α → List SimulationEvent → Host → Prop}
    (holds : post (.ok value) events host) : Ends moments (Pure.pure value) events host post :=
  holds

theorem throw {fault : CommandFault}
    {post : Except CommandFault α → List SimulationEvent → Host → Prop}
    (holds : post (.error fault) events host) :
    Ends moments (throw fault : Simulation α) events host post :=
  holds

theorem bind {simulation : Simulation α} {next : α → Simulation β}
    {first : Except CommandFault α → List SimulationEvent → Host → Prop}
    {post : Except CommandFault β → List SimulationEvent → Host → Prop}
    (ends : Ends moments simulation events host first)
    (failed : ∀ fault told after, first (.error fault) told after → post (.error fault) told after)
    (resume : ∀ value told after, first (.ok value) told after →
      Ends moments (next value) told after post) :
    Ends moments (simulation >>= next) events host post := by
  have shape : (simulation >>= next).run.run events =
      (simulation.run.run events).bind fun ended => match ended with
        | (.ok value, told) => (next value).run.run told
        | (.error fault, told) => .done (.error fault, told) := by
    refine congrArg (Program.bind (simulation.run.run events)) (funext fun ended => ?_)
    obtain ⟨result, told⟩ := ended
    cases result <;> rfl
  unfold Ends at *
  rw [shape, Host.run_bind]
  cases ended : (Host.run moments (simulation.run.run events) host).1 with
  | mk result told =>
    rw [ended] at ends
    cases result with
    | ok value => exact resume value told _ ends
    | error fault => exact failed fault told _ ends

theorem lift {program : Program α} {post : Except CommandFault α → List SimulationEvent → Host → Prop}
    (holds : post (.ok (Host.run moments program host).1) events (Host.run moments program host).2) :
    Ends moments (ExceptT.lift (StateT.lift program)) events host post := by
  have shape : ((ExceptT.lift (StateT.lift program) : Simulation α).run.run events) =
      program.bind fun value => .done (.ok value, events) := by
    change (program.bind fun value => .done (value, events)).bind _ = _
    rw [Program.bind_assoc]
    rfl
  unfold Ends
  rw [shape, Host.run_bind]
  exact holds

theorem perform {operation : Operation α}
    {post : Except CommandFault α → List SimulationEvent → Host → Prop}
    (returned : ∀ value after, Host.run moments operation.run host = (.ok value, after) →
      post (.ok value) events after)
    (failed : ∀ failure after, Host.run moments operation.run host = (.error failure, after) →
      post (.error (.operation failure)) events after) :
    Ends moments (Simulation.perform operation) events host post := by
  have asked : Ends moments (ExceptT.lift (StateT.lift operation.run)) events host
      fun result told after => told = events ∧
        ∃ answer, result = .ok answer ∧ Host.run moments operation.run host = (answer, after) :=
    lift ⟨rfl, _, rfl, rfl⟩
  refine asked.bind (fun _ _ _ ended => nomatch ended.2) fun answer told after ended => ?_
  obtain ⟨rfl, _, same, ran⟩ := ended
  cases same
  cases answer with
  | ok value => exact pure (returned value after ran)
  | error failure => exact throw (failed failure after ran)

theorem performs {operation : Operation α} {next : α → Simulation β}
    {post : Except CommandFault β → List SimulationEvent → Host → Prop}
    (failed : ∀ failure after, Host.run moments operation.run host = (.error failure, after) →
      post (.error (.operation failure)) events after)
    (returned : ∀ value after, Host.run moments operation.run host = (.ok value, after) →
      Ends moments (next value) events after post) :
    Ends moments (Simulation.perform operation >>= next) events host post := by
  have performed : Ends moments (Simulation.perform operation) events host fun result told after =>
      told = events ∧ match result with
        | .ok value => Host.run moments operation.run host = (.ok value, after)
        | .error fault => ∃ failure, fault = .operation failure ∧
            Host.run moments operation.run host = (.error failure, after) :=
    perform (fun _ _ ran => ⟨rfl, ran⟩) fun failure _ ran => ⟨rfl, failure, rfl, ran⟩
  refine performed.bind (fun fault told after ended => ?_) fun value told after ended => ?_
  · obtain ⟨rfl, failure, rfl, ran⟩ := ended
    exact failed failure after ran
  · obtain ⟨rfl, ran⟩ := ended
    exact returned value after ran

theorem records {event : SimulationEvent} {next : Unit → Simulation β}
    {post : Except CommandFault β → List SimulationEvent → Host → Prop}
    (resume : Ends moments (next ()) (events ++ [event]) host post) :
    Ends moments (Simulation.record event >>= next) events host post := by
  have recorded : Ends moments (Simulation.record event) events host fun result told after =>
      result = .ok () ∧ told = events ++ [event] ∧ after = host := ⟨rfl, rfl, rfl⟩
  refine recorded.bind (fun _ _ _ ended => nomatch ended.1) fun _ told after ended => ?_
  obtain ⟨-, rfl, rfl⟩ := ended
  exact resume

end Ends

end Simulation

/-- The first pending task of an instance is one that nobody may complete. -/
def Store.IsBlocked (directory : Directory) (target : Uuid) (store : Store) : Prop :=
  ∃ tasks task rest, store.tasksOf target = .ok tasks ∧
    tasks.filter Task.isPending = task :: rest ∧ task.IsVacant directory

namespace Simulation

variable {moments : Moments} {events : List SimulationEvent} {host : Host} {plan : Plan}

/-- How a started simulation goes on: it is refused only at a task that nobody may complete, and
starts no other instance. -/
structure Proceeds (plan : Plan) (target : Uuid) (before : List SimulationEvent)
    (result : Except CommandFault Unit) (events : List SimulationEvent) (host : Host) : Prop where
  started : ∀ other, .started other ∈ events → .started other ∈ before
  refused : ∀ failure, result = .error (.operation failure) → failure.kind = .forbidden →
    host.store.IsBlocked plan.directory target

/-- A completion of the first pending task is refused only if nobody may complete it, and then the
store still lists it as the first one. -/
theorem blocked_of_refused (within : ∀ n, (moments n).Follows plan.directory) {first second : Host}
    (keyed : first.store.Keyed) (kept : host.store.Keeps first.store) {target : Uuid}
    {tasks rest : List Task} {task : Task} (listed : host.store.tasksOf target = .ok tasks)
    (pending : tasks.filter Task.isPending = task :: rest) {data : Json.Members} {failure : Failure}
    (ran : Host.run moments (Engine.complete task.id data
      (completer plan.directory plan.principal task)).run first = (.error failure, second))
    (refusal : failure.kind = .forbidden) : second.store.IsBlocked plan.directory target := by
  have withheld : Host.Withheld _ first task.id _ _ :=
    Host.complete_withheld within Moment.follows_lenient task.id data
      (completer plan.directory plan.principal task)
  have atomic := @Host.run_atomic moments first _ _ (complete_atomic task.id data
    (completer plan.directory plan.principal task)) failure (by rw [ran])
  rw [ran] at withheld atomic
  obtain ⟨stored, held, refuses⟩ := withheld failure rfl refusal
  have member : task ∈ tasks := List.mem_of_mem_filter (pending ▸ List.mem_cons_self)
  have here : (task.id, .ok task) ∈ first.store.held :=
    kept.held ▸ Store.held_of_tasksOf listed member
  have same : stored = task := Except.ok.inj (keyed.single held here)
  have shut := Task.admits_of_refuses (same ▸ refuses)
  refine ⟨tasks, task, rest, ?_, pending, Classical.byContradiction fun occupied => ?_⟩
  · rw [atomic.1.tasksOf, kept.tasksOf, listed]
  · rw [admits_completer occupied] at shut
    cases shut

theorem completeTasks_ends (within : ∀ n, (moments n).Follows plan.directory)
    (keyed : host.store.Keyed) (target : Uuid) (left : Nat) :
    Ends moments (completeTasks plan target left) events host (Proceeds plan target events) := by
  induction left generalizing events host with
  | zero => exact .pure ⟨fun _ => id, nofun⟩
  | succ left ih =>
    refine .performs (fun failure first ran => ?_) fun view first ran => ?_
    · obtain ⟨-, informs⟩ := (Host.status_tells within Moment.follows_lenient target).ran ran
      refine ⟨fun _ => id, ?_⟩
      rintro _ ⟨⟩ refusal
      exact absurd refusal (informs.unrefused failure rfl)
    · obtain ⟨kept, informs⟩ := (Host.status_tells within Moment.follows_lenient target).ran ran
      obtain ⟨tasks, listed, pending⟩ := informs.told view rfl
      have keyed := Host.keyed_of_run keyed ran
      cases waiting : view.pendingTasks with
      | nil => exact .pure ⟨fun _ => id, nofun⟩
      | cons task rest =>
        rw [waiting] at pending
        refine .performs (fun failure second ran => ?_) fun completion second ran => .records ?_
        · refine ⟨fun _ => id, ?_⟩
          rintro _ ⟨⟩ refusal
          exact blocked_of_refused within keyed kept listed pending.symm ran refusal
        · refine (ih (Host.keyed_of_run keyed ran)).mono fun result told after ended => ?_
          refine ⟨fun other mem => ?_, ended.refused⟩
          obtain before | last := List.mem_append.mp (ended.started other mem)
          · exact before
          · cases List.mem_singleton.mp last

def IsSilent {α : Type} (simulation : Simulation α) : Prop :=
  ∀ (moments : Moments) (events : List SimulationEvent) (host : Host),
    Ends moments simulation events host fun _ told _ => told = events

namespace IsSilent

variable {α β : Type}

theorem pure (value : α) : IsSilent (Pure.pure value) := fun _ _ _ => .pure rfl

theorem throw (fault : CommandFault) : IsSilent (throw fault : Simulation α) :=
  fun _ _ _ => .throw rfl

theorem result (result : Except CommandFault α) : IsSilent (ExceptT.mk (Pure.pure result)) :=
  fun _ _ _ => rfl

theorem lift (program : Program α) : IsSilent (ExceptT.lift (StateT.lift program)) :=
  fun _ _ _ => .lift rfl

theorem perform (operation : Operation α) : IsSilent (Simulation.perform operation) :=
  fun _ _ _ => .perform (fun _ _ _ => rfl) fun _ _ _ => rfl

theorem bind {simulation : Simulation α} {next : α → Simulation β} (silent : IsSilent simulation)
    (rest : ∀ value, IsSilent (next value)) : IsSilent (simulation >>= next) := by
  intro moments events host
  refine (silent moments events host).bind (fun _ _ _ => id) fun value told after same => ?_
  exact same ▸ rest value moments told after

theorem store (definition : Definition) : IsSilent (Simulation.store definition) := by
  refine (lift _).bind fun result => ?_
  cases result with
  | ok id => exact pure id
  | error failure =>
    dsimp only
    split
    · refine (perform _).bind fun stored => ?_
      cases stored with
      | none => exact throw _
      | some stored => exact pure _
    · exact throw _

theorem register (files : Files) (path : String) : IsSilent (Simulation.register files path) := by
  refine (perform _).bind fun fresh => (result _).bind fun definition => (store definition).bind
    fun id => (perform _).bind fun stored => ?_
  dsimp only
  split
  · exact (perform _).bind fun _ => pure id
  · exact pure id

end IsSilent

/-- A simulation that has started its instance is refused only where nobody may complete the first
pending task of the instance. -/
theorem simulate_ends (within : ∀ n, (moments n).Follows plan.directory) (keyed : host.store.Keyed)
    (files : Files) (path : String) :
    Ends moments (simulate files path plan) [] host fun result told after =>
      ∀ target failure, .started target ∈ told → result = .error (.operation failure) →
        failure.kind = .forbidden → after.store.IsBlocked plan.directory target := by
  have registered : Ends moments (register files path) [] host fun _ told after =>
      told = [] ∧ after.store.Keyed :=
    ⟨IsSilent.register files path moments [] host, Host.keyed_run keyed _⟩
  refine registered.bind (fun fault told after ended => ?_) fun id told first ended => ?_
  · obtain ⟨rfl, -⟩ := ended
    exact fun _ _ started => nomatch started
  obtain ⟨rfl, keyed⟩ := ended
  refine .performs (fun failure second ran => fun _ _ started => nomatch started)
    fun target second ran => .records ?_
  refine (completeTasks_ends within (Host.keyed_of_run keyed ran) target plan.maxSteps).bind
    (fun fault told after ended => ?_) fun _ told after ended => ?_
  · intro other failure started failed refusal
    cases List.mem_singleton.mp (ended.started other started)
    exact ended.refused failure failed refusal
  · refine .performs (fun failure last ran => ?_) fun view last ran => .records ?_
    · obtain ⟨-, informs⟩ := (Host.status_tells within Moment.follows_lenient target).ran ran
      rintro _ _ - ⟨⟩ refusal
      exact absurd refusal (informs.unrefused failure rfl)
    · split
      · exact .throw nofun
      · exact .pure nofun

end Simulation

namespace Service

variable {service : Service}

theorem answer_directory {α : Type} (operation : Request α) :
    (service.answer operation).2.directory = service.directory := by
  have awaited {β : Type} (reply : Reply β) : (service.await reply).2.directory = service.directory := by
    cases reply <;> rfl
  cases operation with
  | store call =>
    simp only [answer, callStore]
    split
    · rfl
    split
    · rfl
    · split <;> rfl
  | holders role => exact awaited _
  | hasRole principal role => exact awaited _
  | notify assignments =>
    simp only [answer, notify]
    split <;> rfl
  | _ => rfl

theorem moment_follows (static : service.directory = { directory }) {α : Type}
    (operation : Request α) : (service.moment operation).Follows directory where
  fault failure fault := by
    intro refusal
    cases operation with
    | store call =>
      simp only [moment] at fault
      split at fault
      · cases fault
        cases refusal
      · split at fault
        · cases fault
          cases refusal
        · cases fault
    | _ => cases fault
  holders role := by
    simp only [moment, static]
    rfl
  hasRole principal role := by
    simp only [moment, static]
    rfl

/-- With a directory that always answers, a principal is let through exactly as it says. -/
theorem authorize_run (static : service.directory = { directory }) (task : Task)
    (principal : String) :
    (service.runProgram (Engine.authorize task principal).run).1 =
      if task.admits directory principal then .ok () else .error (.notAllowed principal task.id) := by
  have asked (role : String) :
      service.answer (.hasRole principal role) = (.ok (directory.hasRole principal role), service) := by
    simp only [answer, static]
    rfl
  unfold Engine.authorize
  by_cases own : task.assignee = some principal
  · rw [if_pos own, if_pos (by simp [Task.admits, own])]
    rfl
  rw [if_neg own]
  cases assigned : task.assignedRole with
  | none =>
    cases owned : task.assignee with
    | none =>
      rw [if_pos (by simp [Task.admits, assigned, owned])]
      rfl
    | some owner =>
      have other : owner ≠ principal := fun same => own (owned.trans (congrArg some same))
      rw [if_neg (by simp [Task.admits, assigned, owned, other])]
      rfl
  | some role =>
    have admits : task.admits directory principal = directory.hasRole principal role := by
      simp [Task.admits, own, assigned]
    change (service.runProgram (.request (.hasRole principal role) _)).1 = _
    rw [runProgram, asked, admits]
    cases directory.hasRole principal role with
    | true => rfl
    | false => rfl

end Service

/-- With a directory that always answers, the one who is to complete a task is let through, unless
the task is for a role that nobody holds: then nobody is. So a simulation that has started its
instance is refused only where such a task is the first pending one of the instance. -/
theorem simulations_refused_at_vacant_tasks {service : Service} {files : Files} {path : String}
    {plan : Plan} (static : service.directory = { directory := plan.directory })
    (fair : service.outage.losesRaces = false) (keyed : service.store.Keyed) :
    (∀ (now : Service) (task : Task), now.directory = service.directory →
      (¬ task.IsVacant plan.directory →
        (now.runProgram (Engine.authorize task
          (Simulation.completer plan.directory plan.principal task)).run).1 = .ok ()) ∧
      (task.IsVacant plan.directory → ∀ principal,
        (now.runProgram (Engine.authorize task principal).run).1 =
          .error (.notAllowed principal task.id))) ∧
    let ran := service.runProgram ((Simulation.simulate files path plan).run.run [])
    ∀ target failure, .started target ∈ ran.1.2 → ran.1.1 = .error (.operation failure) →
      failure.kind = .forbidden → ran.2.store.IsBlocked plan.directory target := by
  refine ⟨fun now task same => ⟨fun occupied => ?_, fun vacant principal => ?_⟩, ?_⟩
  · rw [Service.authorize_run (same.trans static), Simulation.admits_completer occupied, if_pos rfl]
  · rw [Service.authorize_run (same.trans static), Task.admits_of_vacant vacant]
    rfl
  · obtain ⟨moments, within, told, shown⟩ := Service.runProgram_within
      (fun service => service.directory = { directory := plan.directory })
      (Moment.Follows plan.directory)
      (fun service _ operation static =>
        ⟨service.moment_follows static operation, (service.answer_directory operation).trans static⟩)
      ((Simulation.simulate files path plan).run.run [])
      (⟨rfl, rfl, fair⟩ : service.Shows { store := service.store, sent := service.sent }) static
    simp only [told, shown.store]
    exact Simulation.simulate_ends within keyed files path

theorem Files.definition_of_json {text : String} {definition : Definition} {fresh : Uuid}
    (read : Definition.ofMarkup .json fresh text = .ok definition) :
    Files.definition [("article.json", .ok text.toUTF8)] "article.json" fresh = .ok definition := by
  have markup : Markup.ofPath? "article.json" = some .json := by decide +kernel
  have decoded : String.fromUTF8? text.toUTF8 = some text := dif_pos text.isValidUTF8
  have file : Definition.ofFile "article.json" fresh text.toUTF8 = .ok definition := by
    rw [Definition.ofFile, decoded]
    simp only [markup, Option.getD_some, read]
  change (Definition.ofFile "article.json" fresh text.toUTF8).mapError _ = _
  rw [file]
  rfl

theorem Simulation.register_of_definition {files : Files} {path : String} {definition : Definition}
    (read : ∀ fresh, files.definition path fresh = .ok definition) :
    register files path = do
      let _ ← perform (Operation.ask .freshId)
      let id ← store definition
      if (← perform (Engine.loadDefinition id)).status = .draft then perform (Engine.activate id)
      return id := by
  unfold register
  simp only [read]
  rfl

def articleFiles : Files :=
  [("article.json", .ok article.toJson.render.toUTF8)]

theorem article_isRegular : article.IsRegular := by
  refine Definition.isRegular_of_recognized rfl (by decide) (by decide) ?_
  simp [article, Definition.make, Transition.always]

theorem articleFiles_definition (fresh : Uuid) :
    articleFiles.definition "article.json" fresh = .ok article :=
  Files.definition_of_json (article.ofMarkup_render article_isRegular
    (Json.fits_root.mpr (by decide +kernel)) (.refl _) (by decide +kernel) fresh)

/-- The article is simulated on behalf of one principal, with a directory that knows nobody. -/
def articlePlan : Plan :=
  { data := [], completions := [], directory := {}, principal := "ada", maxSteps := 5 }

def articleSimulation : (Except CommandFault Unit × List SimulationEvent) × Service :=
  Service.runProgram ((Simulation.simulate articleFiles "article.json" articlePlan).run.run []) {}

def SimulationEvent.starts (target : Uuid) : SimulationEvent → Bool
  | started other => other = target
  | _ => false

instance (target : Uuid) (events : List SimulationEvent) : Decidable (.started target ∈ events) :=
  decidable_of_iff (events.any (SimulationEvent.starts target)) <| by
    rw [List.any_eq_true]
    refine ⟨fun found => ?_, fun member => ⟨_, member, decide_eq_true rfl⟩⟩
    obtain ⟨event, member, starts⟩ := found
    cases event with
    | started other => exact of_decide_eq_true starts ▸ member
    | _ => cases starts

instance (failure : Failure) : (result : Except CommandFault Unit) →
    Decidable (result = .error (.operation failure))
  | .ok _ => isFalse nofun
  | .error (.operation other) =>
    decidable_of_iff (other = failure) ⟨fun same => same ▸ rfl, fun same => by cases same; rfl⟩
  | .error (.invalidData _) | .error (.invalidCompletion _) | .error (.noCompletion _) => isFalse nofun
  | .error (.unreadable ..) | .error (.malformed _) | .error (.connection _) => isFalse nofun
  | .error (.definitionGone ..) | .error (.invalidDefinitions ..) | .error (.stopped ..) =>
    isFalse nofun

theorem articleSimulation_refused :
    .started (Uuid.ofNat 1) ∈ articleSimulation.1.2 ∧
      articleSimulation.1.1 = .error (.operation (.notAllowed "ada" (Uuid.ofNat 3))) := by
  unfold articleSimulation Simulation.simulate
  rw [Simulation.register_of_definition articleFiles_definition]
  decide +kernel

/-- The second task of the article is for editors, of whom there are none: the simulation is stuck
there. A task of somebody's own is no obstacle. -/
theorem article_simulation_blocked :
    articleSimulation.2.store.IsBlocked {} (Uuid.ofNat 1) ∧
      (Service.runProgram (Engine.authorize gradedTask
        (Simulation.completer {} "ada" gradedTask)).run {}).1 = .ok () ∧
      ∀ principal, (Service.runProgram (Engine.authorize
        { gradedTask with assignee := none, assignedRole := some "editor" } principal).run {}).1 =
          .error (.notAllowed principal gradedTask.id) := by
  have keyed : (Store.memory {}).Keyed := List.nodup_nil
  have told := @simulations_refused_at_vacant_tasks {} articleFiles "article.json" articlePlan
    rfl rfl keyed
  obtain ⟨started, refused⟩ := articleSimulation_refused
  unfold articleSimulation at started refused ⊢
  have blocked := told.2 (Uuid.ofNat 1) (.notAllowed "ada" (Uuid.ofNat 3)) started refused rfl
  have owned : ¬ gradedTask.IsVacant {} := fun vacant => nomatch vacant.1
  exact ⟨blocked, (told.1 {} gradedTask rfl).1 owned,
    (told.1 {} _ rfl).2 ⟨rfl, "editor", rfl, rfl⟩⟩

/-- The article has no errors, and yet its simulation is refused once the instance is started. -/
theorem article_review_refused :
    article.validate.errors = [] ∧
      articleFiles.definition "article.json" (Uuid.ofNat 0) = .ok article ∧
      .started (Uuid.ofNat 1) ∈ articleSimulation.1.2 ∧
      articleSimulation.1.1 = .error (.operation (.notAllowed "ada" (Uuid.ofNat 3))) ∧
      (Failure.notAllowed "ada" (Uuid.ofNat 3)).kind = .forbidden :=
  ⟨by decide +kernel, articleFiles_definition _, articleSimulation_refused.1,
    articleSimulation_refused.2, rfl⟩

end Workflow
