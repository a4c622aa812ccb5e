import Workflow.Proofs.Completion
import Workflow.Proofs.EngineCalls
import Workflow.Proofs.Histories
import Workflow.Proofs.Relevance

/-! Two runs of a call over records that differ in the data of instances and tasks only. Where the
data agree on the fields that the definition looks at, the calls ask the same, come to the same and
leave records that differ in their data only; the two runs are followed side by side. -/

namespace Workflow

def Instance.bare (target : Instance) : Instance :=
  { target with data := [] }

def Task.bare (task : Task) : Task :=
  { task with data := [] }

namespace MemoryStore

def bare (records : MemoryStore) : MemoryStore :=
  { records with
    instances := records.instances.map Instance.bare
    tasks := records.tasks.map Task.bare }

variable {first second : MemoryStore}

theorem bare_commit (records : MemoryStore) (changes : ChangeSet) :
    (records.commit changes).bare =
      records.bare.commit ⟨changes.target.bare, changes.tasks.map Task.bare⟩ := by
  have task (records : MemoryStore) (task : Task) :
      (records.saveTask task).bare = records.bare.saveTask task.bare := by
    have tasks := @upsert_map _ _ _ Task.id Task.bare (fun _ => rfl) task records.tasks
    rw [saveTask, saveTask, bare, ← tasks]
    rfl
  have target : (records.saveInstance changes.target).bare =
      records.bare.saveInstance changes.target.bare := by
    have instances := @upsert_map _ _ _ Instance.id Instance.bare (fun _ => rfl) changes.target
      records.instances
    rw [saveInstance, saveInstance, bare, ← instances]
    rfl
  rw [commit, commit, ← target]
  generalize records.saveInstance changes.target = start
  induction changes.tasks generalizing start with
  | nil => rfl
  | cons first rest ih => rw [List.foldl_cons, ih, task, List.map_cons, List.foldl_cons]

theorem instance?_bare (records : MemoryStore) (id : Uuid) :
    records.bare.instance? id = (records.instance? id).map Instance.bare :=
  List.find?_map

theorem task?_bare (records : MemoryStore) (id : Uuid) :
    records.bare.task? id = (records.task? id).map Task.bare :=
  List.find?_map

theorem pendingTasks_bare (records : MemoryStore) (id : Uuid) :
    records.bare.pendingTasks id = (records.pendingTasks id).map Task.bare :=
  List.filter_map

end MemoryStore

theorem Instance.eq_of_bare {first second : Instance} (same : first.bare = second.bare) :
    ∃ held, second = { first with data := held } := by
  obtain ⟨_, _, _, _, _, _, _, _, _⟩ := first
  obtain ⟨_, _, _, _, held, _, _, _, _⟩ := second
  cases same
  exact ⟨held, rfl⟩

theorem Task.eq_of_bare {first second : Task} (same : first.bare = second.bare) :
    ∃ entered, second = { first with data := entered } := by
  obtain ⟨_, _, _, _, _, _, _, _, _, _, _, _⟩ := first
  obtain ⟨_, _, _, _, _, _, _, _, entered, _, _, _⟩ := second
  cases same
  exact ⟨entered, rfl⟩

/-- Changes that differ in data only, with the same new tasks. -/
structure ChangeSet.Tallies (first second : ChangeSet) : Prop where
  target : first.target.bare = second.target.bare
  tasks : first.tasks.map Task.bare = second.tasks.map Task.bare
  created : first.createdTasks = second.createdTasks

/-- Results of two operations: the same failure, or values that are related. -/
inductive Accord {α β : Type} (relates : α → β → Prop) : Except Failure α → Except Failure β → Prop where
  | ok {first : α} {second : β} (related : relates first second) :
      Accord relates (.ok first) (.ok second)
  | error (failure : Failure) : Accord relates (.error failure) (.error failure)

theorem Accord.eq {α : Type} {first second : Except Failure α} (accord : Accord Eq first second) :
    first = second := by
  cases accord with
  | ok related => rw [related]
  | error _ => rfl

/-- Two worlds that have come equally far upon related records. -/
structure World.Abreast (upon : MemoryStore → MemoryStore → Prop) (first second : World) : Prop where
  records : upon first.records second.records
  asked : first.asked = second.asked
  drawn : first.drawn = second.drawn
  sent : first.sent = second.sent

def Request.IsElsewhere {α : Type} : Request α → Prop
  | store _ => False
  | _ => True

theorem Request.IsConsulting.elsewhere {α : Type} {operation : Request α}
    (consulting : operation.IsConsulting) : operation.IsElsewhere := by
  cases operation with
  | store _ => exact consulting.elim
  | _ => trivial

section

variable {upon before after : MemoryStore → MemoryStore → Prop} {α β : Type} {moments : Moments}
  {one other : World}

theorem World.Abreast.serve (abreast : one.Abreast upon other) {operation : Request α}
    (elsewhere : operation.IsElsewhere) :
    (one.serve moments operation).1 = (other.serve moments operation).1 ∧
      (one.serve moments operation).2.Abreast upon (other.serve moments operation).2 := by
  obtain ⟨records, asked, drawn, sent⟩ := abreast
  cases operation with
  | store _ => exact elsewhere.elim
  | _ => simp only [serve, answer, asked, drawn, sent, true_and]; exact ⟨records, rfl, rfl, rfl⟩

theorem World.Abreast.run {program : Program α} (abreast : one.Abreast upon other)
    (uses : program.Uses Request.IsElsewhere) :
    (run moments program one).1 = (run moments program other).1 ∧
      (run moments program one).2.Abreast upon (run moments program other).2 := by
  induction program generalizing one other with
  | done result => exact ⟨rfl, abreast⟩
  | request operation next ih =>
    obtain ⟨same, later⟩ := @World.Abreast.serve upon _ moments _ _ abreast operation uses.1
    rw [World.run, World.run, same]
    exact ih _ later (uses.2 _)

end

def Only (first second : MemoryStore) : MemoryStore → MemoryStore → Prop :=
  fun one other => one = first ∧ other = second

namespace Operation

theorem run_store {α : Type} {moments : Moments} {world : World} (call : StoreCall α) :
    World.run moments (Operation.store call).run world = world.serve moments (.store call) := by
  have here : (Operation.store call).run =
      .request (.store call) fun answer => .done answer := by
    refine congrArg (Program.request (.store call)) (funext fun answer => ?_)
    cases answer with
    | ok value => rfl
    | error failure => rfl
  rw [here]
  rfl

/-- Two operations that go side by side in worlds that have come equally far, upon records that are
related in one way before and in one way after: they come to related results. -/
def Abreast {α β : Type} (before after : MemoryStore → MemoryStore → Prop) (first : Operation α)
    (second : Operation β) (relates : α → β → Prop) : Prop :=
  ∀ (moments : Moments) (one other : World), one.Abreast before other →
    Accord relates (World.run moments first.run one).1 (World.run moments second.run other).1 ∧
      (World.run moments first.run one).2.Abreast after (World.run moments second.run other).2

namespace Abreast

variable {α β γ δ : Type} {before middle after upon : MemoryStore → MemoryStore → Prop}
  {relates : α → β → Prop} {follows : γ → δ → Prop}

theorem pure {first : α} {second : β} (related : relates first second) :
    Abreast upon upon (Pure.pure first) (Pure.pure second) relates :=
  fun _ _ _ abreast => ⟨.ok related, abreast⟩

theorem throw (failure : Failure) :
    Abreast upon upon (throw failure : Operation α) (throw failure : Operation β) relates :=
  fun _ _ _ abreast => ⟨.error failure, abreast⟩

theorem bind {first : Operation α} {second : Operation β} {next : α → Operation γ}
    {last : β → Operation δ} (start : Abreast before middle first second relates)
    (failed : ∀ one other, middle one other → after one other)
    (resume : ∀ value reply, relates value reply →
      Abreast middle after (next value) (last reply) follows) :
    Abreast before after (first >>= next) (second >>= last) follows := by
  intro moments one other abreast
  change Accord follows (World.run moments (first.run.bind _) one).1
      (World.run moments (second.run.bind _) other).1 ∧
    (World.run moments (first.run.bind _) one).2.Abreast after
      (World.run moments (second.run.bind _) other).2
  rw [World.run_bind, World.run_bind]
  obtain ⟨accord, later⟩ := start moments one other abreast
  generalize (World.run moments first.run one).1 = result at accord ⊢
  generalize (World.run moments second.run other).1 = answer at accord ⊢
  cases accord with
  | ok related => exact resume _ _ related moments _ _ later
  | error failure =>
    exact ⟨.error failure, failed _ _ later.records, later.asked, later.drawn, later.sent⟩

theorem lift {first : Operation α} {second : Operation β} {next : Except Failure α → Operation γ}
    {last : Except Failure β → Operation δ} (start : Abreast before middle first second relates)
    (resume : ∀ value reply, Accord relates value reply →
      Abreast middle after (next value) (last reply) follows) :
    Abreast before after (ExceptT.lift first.run >>= next) (ExceptT.lift second.run >>= last)
      follows := by
  intro moments one other abreast
  rw [Engine.run_lift, Engine.run_lift, World.run_bind, World.run_bind]
  obtain ⟨accord, later⟩ := start moments one other abreast
  exact resume _ _ accord moments _ _ later

theorem mono {first : Operation α} {second : Operation β}
    (abreast : Abreast before after first second relates) {looser : MemoryStore → MemoryStore → Prop}
    (implies : ∀ one other, after one other → looser one other) :
    Abreast before looser first second relates := by
  intro moments one other start
  obtain ⟨accord, later⟩ := abreast moments one other start
  exact ⟨accord, implies _ _ later.records, later.asked, later.drawn, later.sent⟩

theorem same {operation : Operation α} (uses : operation.run.Uses Request.IsElsewhere) :
    Abreast upon upon operation operation Eq := by
  intro moments one other abreast
  obtain ⟨same, later⟩ := @World.Abreast.run upon _ moments one other _ abreast uses
  refine ⟨?_, later⟩
  rw [same]
  cases (World.run moments operation.run other).1 with
  | ok value => exact .ok rfl
  | error failure => exact .error failure

theorem ask (operation : Request α) (elsewhere : operation.IsElsewhere) :
    Abreast upon upon (Operation.ask operation) (Operation.ask operation) Eq :=
  same ⟨elsewhere, fun _ => trivial⟩

theorem store {call : StoreCall α} {reply : StoreCall β}
    (answers : ∀ one other : MemoryStore, before one other →
      relates (one.answer call).1 (other.answer reply).1 ∧
        after (one.answer call).2 (other.answer reply).2)
    (failed : ∀ one other, before one other → after one other) :
    Abreast before after (Operation.store call) (Operation.store reply) relates := by
  intro moments one other abreast
  obtain ⟨records, asked, drawn, sent⟩ := abreast
  obtain ⟨related, later⟩ := answers one.records other.records records
  rw [run_store, run_store]
  simp only [World.serve, World.answer, World.callStore, ← asked]
  cases (moments one.asked).fault with
  | some failure => exact ⟨.error failure, failed _ _ records, rfl, drawn, sent⟩
  | none => exact ⟨.ok related, later, rfl, drawn, sent⟩

theorem load {one other : MemoryStore} (call : StoreCall (Option α)) (reply : StoreCall (Option β))
    (reads : (one.answer call).2 = one) (rereads : (other.answer reply).2 = other)
    (both : (one.answer call).1.isSome = (other.answer reply).1.isSome) (missing : Failure) :
    Abreast (Only one other) (Only one other)
      (do Operation.found missing (← Operation.store call))
      (do Operation.found missing (← Operation.store reply)) fun value twin =>
        (one.answer call).1 = some value ∧ (other.answer reply).1 = some twin := by
  have told : Abreast (Only one other) (Only one other) (Operation.store call)
      (Operation.store reply) fun value twin =>
        value = (one.answer call).1 ∧ twin = (other.answer reply).1 := by
    refine store (fun here there only => ?_) fun _ _ only => only
    obtain ⟨rfl, rfl⟩ := only
    exact ⟨⟨rfl, rfl⟩, reads, rereads⟩
  refine told.bind (fun _ _ only => only) fun value twin answers => ?_
  obtain ⟨rfl, rfl⟩ := answers
  cases found : (one.answer call).1 with
  | none =>
    rw [found, Option.isSome_none] at both
    rw [Option.isSome_eq_false_iff.mp both.symm |> Option.isNone_iff_eq_none.mp]
    exact throw missing
  | some value =>
    rw [found, Option.isSome_some] at both
    obtain ⟨twin, held⟩ := Option.isSome_iff_exists.mp both.symm
    rw [held]
    exact pure ⟨rfl, rfl⟩

end Abreast

end Operation

open Json.Members Operation

@[simp] theorem Instance.bare_withPending (target : Instance) (steps : List String)
    (now : Timestamp) : (target.withPending steps now).bare = target.bare.withPending steps now := by
  unfold withPending
  split <;> rfl

/-- Which steps are pending has nothing to do with the data of the tasks. -/
theorem Engine.pendingSteps_bare (completed : Uuid) (pending created : List Task) :
    pendingSteps completed (pending.map Task.bare) created =
      pendingSteps completed pending created := by
  have kept : (pending.map Task.bare).filter (fun task => task.id ≠ completed ∧ task.isPending) =
      (pending.filter fun task => task.id ≠ completed ∧ task.isPending).map Task.bare :=
    List.filter_map
  have steps (tasks : List Task) : (tasks.map Task.bare).map (·.stepId) = tasks.map (·.stepId) :=
    List.map_map
  rw [pendingSteps, pendingSteps, List.map_append, List.map_append, kept, steps]

/-- What is written for a completed task differs in the data only, as the data do not tell which
tasks follow. -/
theorem completionChanges_tallies {target : Instance} {task : Task} {pending twins created : List Task}
    (same : pending.map Task.bare = twins.map Task.bare) (held entered data other : Json.Members)
    (principal : String) (now : Timestamp) :
    (completionChanges target task pending created data principal now).Tallies
      (completionChanges { target with data := held } { task with data := entered } twins created
        other principal now) where
  target := by
    have steps : Engine.pendingSteps task.id pending created =
        Engine.pendingSteps task.id twins created := by
      rw [← Engine.pendingSteps_bare, same, Engine.pendingSteps_bare]
    simp only [completionChanges, Instance.bare_withPending, steps]
    rfl
  tasks := rfl
  created := rfl

namespace Engine

variable {upon : MemoryStore → MemoryStore → Prop}

theorem authorize_elsewhere (task : Task) (principal : String) :
    (authorize task principal).run.Uses Request.IsElsewhere := by
  have consults := @authorize_consults (fun _ => True) [] task principal
  exact (Program.Consults.uses consults).mono fun _ consulting => consulting.elsewhere

theorem createTasks_elsewhere (target : Instance) (principal : String) (now : Timestamp)
    (arrivals : List Arrival) :
    (createTasks target principal now arrivals).run.Uses Request.IsElsewhere := by
  have consults := @createTasks_consults (fun _ => True) [] target principal now arrivals
  exact (Program.Consults.uses consults).mono fun _ consulting => consulting.elsewhere

theorem createTask_elsewhere (target : Instance) (step : Step) (principal : String)
    (now : Timestamp) : (createTask target step principal now).run.Uses Request.IsElsewhere := by
  have consults := @createTask_consults (fun _ => True) [] target step principal now
  exact (Program.Consults.uses consults).mono fun _ consulting => consulting.elsewhere

theorem advance_abreast {definition : Definition} {target : Instance} {task : Task}
    {pending twins : List Task} (same : pending.map Task.bare = twins.map Task.bare)
    {held entered data other : Json.Members}
    (agree : AgreeOn definition.namedFields (overlay target.data data) (overlay held other))
    (principal : String) (now : Timestamp) :
    Operation.Abreast upon upon (advance definition target task pending data principal now)
      (advance definition { target with data := held } { task with data := entered } twins other
        principal now) ChangeSet.Tallies := by
  have pending' : ({ task with data := entered } : Task).isPending = task.isPending := rfl
  have ended : ({ target with data := held } : Instance).isCompleted = target.isCompleted := rfl
  unfold advance
  rw [pending', ended]
  cases task.isPending with
  | false => exact .throw _
  | true =>
  cases target.isCompleted with
  | true => exact .throw _
  | false =>
  by_cases elsewhere : task.instanceId ≠ target.id ∨ target.definitionId ≠ definition.id
  · simp only [if_pos elsewhere]
    exact .throw _
  simp only [if_neg elsewhere]
  have admits : Operation.Abreast upon upon (authorize task principal)
      (authorize { task with data := entered } principal) Eq :=
    .same (authorize_elsewhere task principal)
  refine admits.bind (fun _ _ related => related) fun _ _ _ => ?_
  cases placed : definition.step? task.stepId with
  | none => exact .throw _
  | some step =>
    have here := Definition.mem_of_step? placed
    have created : createTasks { target with data := overlay target.data data } principal now
          (definition.arrivals (overlay target.data data) step) =
        createTasks { target with data := overlay held other } principal now
          (definition.arrivals (overlay held other) step) := by
      rw [← Definition.arrivals_congr agree here]
      exact createTasks_congr agree fun _ arrives => Definition.mem_steps_of_arrivals here arrives
    simp only [created]
    refine (Operation.Abreast.same (createTasks_elsewhere _ _ _ _)).bind (fun _ _ related => related)
      fun tasks _ equal => ?_
    subst equal
    exact .pure (completionChanges_tallies same held entered data other principal now)

theorem begin_abreast {definition : Definition} {data other : Json.Members}
    (agree : AgreeOn definition.namedFields data other) (startedBy : String) (now : Timestamp) :
    Operation.Abreast upon upon (begin definition data startedBy now)
      (begin definition other startedBy now) ChangeSet.Tallies := by
  unfold begin
  cases definition.isActive with
  | false => exact .throw _
  | true =>
  simp only [Bool.not_true, Bool.false_eq_true, if_false]
  cases located : definition.startStep? with
  | none => exact .throw _
  | some start =>
    have own := Step.namedFields_subset (Definition.mem_of_step? located)
    refine (Operation.Abreast.ask .freshId trivial).bind
      (fun _ _ related => related) fun id _ equal => ?_
    subst equal
    have created : createTask (Instance.begin id definition data startedBy now) start startedBy now =
        createTask (Instance.begin id definition other startedBy now) start startedBy now :=
      @createTask_congr _ _ (Instance.begin id definition [] startedBy now) _ _ _ (agree.mono own)
    simp only [created]
    refine (Operation.Abreast.same (createTask_elsewhere _ _ _ _)).bind (fun _ _ related => related)
      fun task _ equal => ?_
    subst equal
    exact .pure ⟨rfl, rfl, rfl⟩

end Engine

/-- Records that differ in the data of instances and tasks only. -/
def MemoryStore.Resembles (first second : MemoryStore) : Prop :=
  first.bare = second.bare

/-- Whatever instance the task belongs to, its data agree in both records once the data of the task
are entered. -/
def Agreeing (first second : MemoryStore) (id : Uuid) (data other : Json.Members) : Prop :=
  ∀ task target twin definition, first.task? id = some task →
    first.instance? task.instanceId = some target → second.instance? task.instanceId = some twin →
      first.definition? target.definitionId = some definition →
        AgreeOn definition.namedFields (overlay target.data data) (overlay twin.data other)

namespace MemoryStore.Resembles

variable {first second : MemoryStore}

theorem definition? (resembles : first.Resembles second) (id : Uuid) :
    first.definition? id = second.definition? id := by
  have same : first.bare.definition? id = second.bare.definition? id := by rw [resembles]
  exact same

theorem instance? (resembles : first.Resembles second) (id : Uuid) :
    (first.instance? id).map Instance.bare = (second.instance? id).map Instance.bare := by
  rw [← instance?_bare, ← instance?_bare, resembles]

theorem task? (resembles : first.Resembles second) (id : Uuid) :
    (first.task? id).map Task.bare = (second.task? id).map Task.bare := by
  rw [← task?_bare, ← task?_bare, resembles]

theorem twin_instance (resembles : first.Resembles second) {id : Uuid} {target twin : Instance}
    (found : first.instance? id = some target) (other : second.instance? id = some twin) :
    ∃ held, twin = { target with data := held } := by
  have same := resembles.instance? id
  rw [found, other] at same
  exact Instance.eq_of_bare (Option.some.inj same)

theorem twin_task (resembles : first.Resembles second) {id : Uuid} {task twin : Task}
    (found : first.task? id = some task) (other : second.task? id = some twin) :
    ∃ entered, twin = { task with data := entered } := by
  have same := resembles.task? id
  rw [found, other] at same
  exact Task.eq_of_bare (Option.some.inj same)

theorem pendingTasks (resembles : first.Resembles second) (id : Uuid) :
    (first.pendingTasks id).map Task.bare = (second.pendingTasks id).map Task.bare := by
  rw [← pendingTasks_bare, ← pendingTasks_bare, resembles]

theorem commit (resembles : first.Resembles second) {changes others : ChangeSet}
    (tallies : changes.Tallies others) :
    (first.commit changes).Resembles (second.commit others) := by
  rw [Resembles, bare_commit, bare_commit, resembles, tallies.target, tallies.tasks]

end MemoryStore.Resembles

theorem isSome_of_map {α β : Type} {change : α → β} {first second : Option α}
    (same : first.map change = second.map change) : first.isSome = second.isSome := by
  rw [← @Option.isSome_map _ _ change, same, Option.isSome_map]

namespace Engine

variable {first second : MemoryStore}

theorem prepare_abreast (resembles : first.Resembles second) {id : Uuid} {data other : Json.Members}
    (agreeing : Agreeing first second id data other) (principal : String) :
    Operation.Abreast (Only first second) (Only first second) (prepare id data principal)
      (prepare id other principal) ChangeSet.Tallies := by
  have failed : ∀ one other, Only first second one other → Only first second one other :=
    fun _ _ only => only
  unfold prepare
  refine (Operation.Abreast.load (.loadTask id) (.loadTask id) rfl rfl
    (isSome_of_map (resembles.task? id)) _).bind failed fun task _ loaded => ?_
  obtain ⟨found, twin⟩ := loaded
  obtain ⟨entered, rfl⟩ := resembles.twin_task found twin
  refine (Operation.Abreast.load (.loadInstance task.instanceId) (.loadInstance task.instanceId) rfl
    rfl (isSome_of_map (resembles.instance? task.instanceId)) _).bind failed fun target _ loaded => ?_
  obtain ⟨housed, twin⟩ := loaded
  have agree (definition : Definition) := agreeing task target _ definition found housed twin
  obtain ⟨held, rfl⟩ := resembles.twin_instance housed twin
  have governed := resembles.definition? target.definitionId
  have both : (first.definition? target.definitionId).isSome =
      (second.definition? target.definitionId).isSome := by rw [governed]
  refine (Operation.Abreast.load (.loadDefinition target.definitionId)
    (.loadDefinition target.definitionId) rfl rfl both _).bind failed fun definition _ loaded => ?_
  obtain ⟨defined, twin⟩ := loaded
  cases (defined.symm.trans governed).trans twin
  have listed : Operation.Abreast (Only first second) (Only first second)
      (Operation.store (.pendingTasks target.id)) (Operation.store (.pendingTasks target.id))
      fun pending twins => pending.map Task.bare = twins.map Task.bare := by
    refine .store (fun one other only => ?_) failed
    obtain ⟨rfl, rfl⟩ := only
    exact ⟨resembles.pendingTasks target.id, rfl, rfl⟩
  refine listed.bind failed fun pending twins same => ?_
  refine (Operation.Abreast.ask .now trivial).bind failed fun now _ equal => ?_
  subst equal
  exact advance_abreast same (agree definition defined) principal now

/-- What differs in data only is written to records that differ in data only. -/
theorem commit_abreast {changes others : ChangeSet} (tallies : changes.Tallies others) :
    Operation.Abreast MemoryStore.Resembles MemoryStore.Resembles
      (Operation.store (.commit changes)) (Operation.store (.commit others)) Eq :=
  .store (fun _ _ resembles => ⟨rfl, resembles.commit tallies⟩) fun _ _ resembles => resembles

theorem completeLocked_abreast (resembles : first.Resembles second) {id : Uuid}
    {data other : Json.Members} (agreeing : Agreeing first second id data other)
    (principal : String) :
    Operation.Abreast (Only first second) MemoryStore.Resembles (completeLocked id data principal)
      (completeLocked id other principal) ChangeSet.Tallies := by
  have prepares : Operation.Abreast (Only first second) MemoryStore.Resembles
      (prepare id data principal) (prepare id other principal) ChangeSet.Tallies :=
    (prepare_abreast resembles agreeing principal).mono fun _ _ only => only.1 ▸ only.2 ▸ resembles
  have kept : ∀ one other : MemoryStore, one.Resembles other → one.Resembles other :=
    fun _ _ related => related
  rw [completeLocked_eq, completeLocked_eq]
  refine prepares.bind kept fun changes others tallies => ?_
  exact (commit_abreast tallies).bind kept fun _ _ _ => .pure tallies

theorem finish_congr {result reply : Except Failure ChangeSet}
    (accord : Accord ChangeSet.Tallies result reply) (target : Uuid) :
    finish target result = finish target reply := by
  cases accord with
  | error failure => rfl
  | ok tallies =>
    obtain ⟨bare, _, created⟩ := tallies
    obtain ⟨held, twin⟩ := Instance.eq_of_bare bare
    simp only [finish, announce, created, twin]
    rfl

theorem finish_elsewhere (target : Uuid) (result : Except Failure ChangeSet) :
    (finish target result).run.Uses Request.IsElsewhere := by
  cases result with
  | error failure => exact ⟨trivial, fun _ => ⟨trivial, fun _ => trivial⟩⟩
  | ok changes =>
    simp only [finish]
    split
    · exact ⟨trivial, fun _ => ⟨trivial, fun _ => ⟨trivial, fun _ => trivial⟩⟩⟩
    · exact ⟨trivial, fun _ => ⟨trivial, fun _ => trivial⟩⟩

theorem complete_abreast (resembles : first.Resembles second) {id : Uuid}
    {data other : Json.Members} (agreeing : Agreeing first second id data other)
    (principal : String) :
    Operation.Abreast (Only first second) MemoryStore.Resembles (complete id data principal)
      (complete id other principal) Eq := by
  have kept : ∀ one other, Only first second one other → one.Resembles other :=
    fun _ _ only => only.1 ▸ only.2 ▸ resembles
  have loads : Operation.Abreast (Only first second) (Only first second) (loadTask id) (loadTask id)
      fun task twin => first.task? id = some task ∧ second.task? id = some twin :=
    .load (.loadTask id) (.loadTask id) rfl rfl (isSome_of_map (resembles.task? id)) _
  refine loads.bind kept fun task _ loaded => ?_
  obtain ⟨found, twin⟩ := loaded
  obtain ⟨entered, rfl⟩ := resembles.twin_task found twin
  refine (Operation.Abreast.ask (.acquire task.instanceId) trivial).bind kept fun _ _ _ => ?_
  refine (completeLocked_abreast resembles agreeing principal).lift fun result reply accord => ?_
  have ends : Operation.Abreast MemoryStore.Resembles MemoryStore.Resembles
      (finish task.instanceId result) (finish task.instanceId reply) Eq := by
    rw [finish_congr accord]
    exact .same (finish_elsewhere task.instanceId reply)
  exact ends

theorem prepareStart_abreast (resembles : first.Resembles second) {id : Uuid}
    {data other : Json.Members}
    (agree : ∀ definition, first.definition? id = some definition →
      AgreeOn definition.namedFields data other) (startedBy : String) :
    Operation.Abreast (Only first second) (Only first second) (prepareStart id data startedBy)
      (prepareStart id other startedBy) ChangeSet.Tallies := by
  have failed : ∀ one other, Only first second one other → Only first second one other :=
    fun _ _ only => only
  have known := resembles.definition? id
  have both : (first.definition? id).isSome = (second.definition? id).isSome := by rw [known]
  unfold prepareStart
  split
  · exact .throw _
  refine (Operation.Abreast.load (.loadDefinition id) (.loadDefinition id) rfl rfl both _).bind
    failed fun definition _ loaded => ?_
  obtain ⟨defined, twin⟩ := loaded
  cases (defined.symm.trans known).trans twin
  refine (Operation.Abreast.ask .now trivial).bind failed fun now _ equal => ?_
  subst equal
  exact begin_abreast (agree definition defined) startedBy now

theorem start_abreast (resembles : first.Resembles second) {id : Uuid} {data other : Json.Members}
    (agree : ∀ definition, first.definition? id = some definition →
      AgreeOn definition.namedFields data other) (startedBy : String) :
    Operation.Abreast (Only first second) MemoryStore.Resembles (start id data startedBy)
      (start id other startedBy) Eq := by
  have prepares : Operation.Abreast (Only first second) MemoryStore.Resembles
      (prepareStart id data startedBy) (prepareStart id other startedBy) ChangeSet.Tallies :=
    (prepareStart_abreast resembles agree startedBy).mono fun _ _ only => only.1 ▸ only.2 ▸ resembles
  have kept : ∀ one other : MemoryStore, one.Resembles other → one.Resembles other :=
    fun _ _ related => related
  rw [start_eq, start_eq]
  refine prepares.bind kept fun changes others tallies => ?_
  refine (commit_abreast tallies).bind kept fun _ _ _ => ?_
  have told : announce changes = announce others := by
    rw [announce, announce, tallies.created]
  obtain ⟨held, twin⟩ := Instance.eq_of_bare tallies.target
  rw [told, twin]
  have tells : Operation.Abreast MemoryStore.Resembles MemoryStore.Resembles (announce others)
      (announce others) Eq := .same ⟨trivial, fun _ => trivial⟩
  refine tells.bind kept fun _ _ _ => ?_
  exact .pure rfl

end Engine

structure World.Resembles (first second : World) : Prop where
  records : first.records.Resembles second.records
  drawn : first.drawn = second.drawn
  sent : first.sent = second.sent

/-- Two calls come to the same but for the data that are stored then. -/
structure Coincides {α : Type} (first second : Except Failure α × World) : Prop where
  result : first.1 = second.1
  worlds : first.2.Resembles second.2

theorem Operation.Abreast.coincides {α : Type} {first second : World} {one other : Operation α}
    (abreast : Operation.Abreast (Only first.records second.records) MemoryStore.Resembles one other Eq)
    (resembles : first.Resembles second) (moments : Moments) :
    Coincides (World.run moments one.run { first with asked := 0 })
      (World.run moments other.run { second with asked := 0 }) := by
  obtain ⟨accord, later⟩ := abreast moments { first with asked := 0 } { second with asked := 0 }
    ⟨⟨rfl, rfl⟩, rfl, resembles.drawn, resembles.sent⟩
  exact ⟨accord.eq, later.records, later.drawn, later.sent⟩

/-- Data tell nothing but by the fields that conditions and rules name. Whoever completes a task or
starts an instance at the same moments in two worlds that differ in their data has the same result,
with the same tasks for the same owners, and leaves worlds that differ in their data only, if the
data of the instance agree on these fields. -/
theorem only_named_fields_matter {first second : World} (resembles : first.Resembles second)
    (moments : Moments) :
    (∀ id data other principal, Agreeing first.records second.records id data other →
      Coincides (first.perform ⟨.complete id data principal, moments⟩)
        (second.perform ⟨.complete id other principal, moments⟩)) ∧
      ∀ id data other startedBy,
        (∀ definition, first.records.definition? id = some definition →
          AgreeOn definition.namedFields data other) →
        Coincides (first.perform ⟨.start id data startedBy, moments⟩)
          (second.perform ⟨.start id other startedBy, moments⟩) := by
  refine ⟨fun id data other principal agreeing => ?_, fun id data other startedBy agree => ?_⟩
  · exact (Engine.complete_abreast resembles.records agreeing principal).coincides resembles moments
  · exact (Engine.start_abreast resembles.records agree startedBy).coincides resembles moments

/-- An article that is reviewed by its editor if it has a good grade. -/
def gradedArticle : Definition :=
  .make (Uuid.ofNat 1) "article" "1" "write" [
    { id := "write", kind := .task, transitions := [
        .onlyWhen "review" { field := "grade", op := .greaterThan, value := .int 3 },
        .ifNoneFires "end"] },
    { id := "review", kind := .approval, assign := some { field := some "editor" },
      transitions := [.always "end"] },
    { id := "end", kind := .finish }]

def gradedShelf : World :=
  ({} : World).after [⟨.define gradedArticle, calm 10⟩, ⟨.activate gradedArticle.id, calm 20⟩]

def titled (title : Json) : World :=
  (gradedShelf.perform ⟨.start gradedArticle.id
    [("editor", .string "bob"), ("grade", .int 5), ("title", title)] "ada", calm 30⟩).2

/-- Two articles with different titles, of which one says how many pages it has, are reviewed by the
same editor. -/
theorem titles_do_not_matter :
    (((titled (.string "Draft")).perform
        ⟨.complete (Uuid.ofNat 33) [("pages", .int 7)] "ada", calm 40⟩).1.toOption.map
          fun outcome => outcome.createdTasks.map fun task => (task.stepId, task.assignee)) =
        some [("review", some "bob")] ∧
      Coincides
        ((titled (.string "Draft")).perform
          ⟨.complete (Uuid.ofNat 33) [("pages", .int 7)] "ada", calm 40⟩)
        ((titled .null).perform ⟨.complete (Uuid.ofNat 33) [("grade", .int 5)] "ada", calm 40⟩) := by
  have fields {first second : Json.Members} (editor : seen? "editor" first = seen? "editor" second)
      (grade : seen? "grade" first = seen? "grade" second) :
      AgreeOn gradedArticle.namedFields first second := by
    intro field member
    have named : field = "grade" ∨ field = "editor" := by
      simpa [gradedArticle, Definition.make, Definition.namedFields, Step.namedFields, Transition.onlyWhen,
        Transition.ifNoneFires, Transition.always] using member
    rcases named with rfl | rfl
    · exact grade
    · exact editor
  have begun : Coincides _ _ :=
    (only_named_fields_matter (⟨rfl, rfl, rfl⟩ : gradedShelf.Resembles gradedShelf) (calm 30)).2
      gradedArticle.id [("editor", .string "bob"), ("grade", .int 5), ("title", .string "Draft")]
      [("editor", .string "bob"), ("grade", .int 5), ("title", .null)] "ada"
      fun definition defined => by
        cases defined
        exact fields rfl rfl
  refine ⟨by decide +kernel, (only_named_fields_matter begun.worlds (calm 40)).1 _ _ _ _ ?_⟩
  intro task target twin definition found housed twinned defined
  cases found
  cases housed
  cases twinned
  cases defined
  exact fields rfl rfl

end Workflow
