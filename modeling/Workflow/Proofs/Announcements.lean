import Workflow.Proofs.Overlap
import Workflow.Proofs.Reading
import Workflow.Proofs.Views

/-! Who is told of what. A call writes its changes before it tells anybody, and then tells the
assignees of the tasks that it has made, each once; a call that writes nothing tells nobody. That is
so of the programs themselves, whatever they are answered; what is stored of a call's tasks while
others run is followed through the steps. -/

namespace Workflow

/-- A message about a task, for the principal who has been given it. -/
structure TaskAssignment.IsAbout (message : TaskAssignment) (task : Task) : Prop where
  taskId : message.taskId = task.id
  instanceId : message.instanceId = task.instanceId
  stepId : message.stepId = task.stepId
  principal : task.assignee = some message.principal
  priority : message.priority = task.priority
  dueAt : message.dueAt = task.dueAt

/-- Messages about tasks: one about each that has an assignee, and none about the others. -/
def Inform (messages : List TaskAssignment) (tasks : List Task) : Prop :=
  List.Forall₂ TaskAssignment.IsAbout messages (tasks.filter fun task => task.assignee.isSome)

def assignments (tasks : List Task) : List TaskAssignment :=
  tasks.filterMap TaskAssignment.forTask?

theorem TaskAssignment.forTask?_eq_some {task : Task} {message : TaskAssignment} :
    forTask? task = some message ↔ message.IsAbout task := by
  rw [forTask?, Option.map_eq_some_iff]
  constructor
  · rintro ⟨principal, assigned, rfl⟩
    exact ⟨rfl, rfl, rfl, assigned, rfl, rfl⟩
  · rintro ⟨id, target, step, assigned, priority, due⟩
    exact ⟨message.principal, assigned, by rw [← id, ← target, ← step, ← priority, ← due]⟩

theorem TaskAssignment.forTask?_eq_none {task : Task} :
    forTask? task = none ↔ task.assignee.isSome = false := by
  rw [forTask?, Option.map_eq_none_iff, Option.isSome_eq_false_iff, Option.isNone_iff_eq_none]

/-- There is one list of messages that inform of some tasks. -/
theorem inform_iff {messages : List TaskAssignment} {tasks : List Task} :
    Inform messages tasks ↔ messages = assignments tasks := by
  induction tasks generalizing messages with
  | nil => exact List.forall₂_nil_right_iff
  | cons task rest ih =>
    rw [Inform, assignments]
    cases told : TaskAssignment.forTask? task with
    | none =>
      rw [List.filterMap_cons_none told, List.filter_cons_of_neg]
      · exact ih
      · rw [TaskAssignment.forTask?_eq_none.mp told]
        exact Bool.false_ne_true
    | some message =>
      have about := TaskAssignment.forTask?_eq_some.mp told
      rw [List.filterMap_cons_some told, List.filter_cons_of_pos (by simp [about.principal]),
        List.forall₂_cons_right_iff]
      constructor
      · rintro ⟨other, later, same, informs, rfl⟩
        have one := TaskAssignment.forTask?_eq_some.mpr same
        rw [told] at one
        rw [Option.some.inj one, ih.mp informs, assignments]
      · rintro rfl
        exact ⟨message, _, about, ih.mpr rfl, rfl⟩

theorem Inform.mem {messages : List TaskAssignment} {tasks : List Task} {message : TaskAssignment}
    (informs : Inform messages tasks) (told : message ∈ messages) :
    ∃ task ∈ tasks, message.IsAbout task := by
  rw [inform_iff.mp informs] at told
  obtain ⟨task, member, same⟩ := List.mem_filterMap.mp told
  exact ⟨task, member, TaskAssignment.forTask?_eq_some.mp same⟩

namespace Request

/-- A request that writes no instance and no task and tells nobody anything. -/
def IsQuiet {α : Type} : Request α → Prop
  | store (.saveInstance _) | store (.saveTask _) | store (.commit _) | notify _ => False
  | _ => True

def GivesBack {α : Type} : Request α → Prop
  | leave _ | release _ => True
  | _ => False

variable {α : Type} {operation : Request α}

theorem IsPlain.quiet (plain : operation.IsPlain) : operation.IsQuiet := by
  cases operation with
  | store call =>
    cases call with
    | saveInstance _ | saveTask _ | commit _ => exact plain.1.elim
    | _ => trivial
  | notify _ => exact plain.elim
  | _ => trivial

theorem IsQuiet.aside (quiet : operation.IsQuiet) : operation.IsAside := by
  cases operation with
  | store call =>
    cases call with
    | saveInstance _ | saveTask _ | commit _ => exact quiet.elim
    | _ => trivial
  | _ => trivial

theorem IsQuiet.sent (quiet : operation.IsQuiet) (moments : Moments) (world : World) :
    (world.serve moments operation).2.sent = world.sent := by
  cases operation with
  | store call =>
    simp only [World.serve, World.answer, World.callStore]
    cases (moments world.asked).fault with
    | some failure => rfl
    | none => rfl
  | notify _ => exact quiet.elim
  | _ => rfl

end Request

namespace Program

variable {α : Type}

/-- A program that only gives locks back and tells certain things, in this order, and has one
result. What becomes of a message makes no difference to it. -/
inductive Tells (result : α) : List TaskAssignment → Program α → Prop where
  | done : Tells result [] (.done result)
  | back {β : Type} {told : List TaskAssignment} {operation : Request β} {next : β → Program α}
      (gives : operation.GivesBack) (resume : ∀ answer, Tells result told (next answer)) :
      Tells result told (.request operation next)
  | notify {told : List TaskAssignment} (now : List TaskAssignment) {rest : Program α}
      (resume : Tells result told rest) :
      Tells result (now ++ told) (.request (.notify now) fun _ => rest)

end Program

/-- What a call that succeeds has written, and which of the tasks in it are new: the one of an
instance that it has started, or all but the one that it has completed. -/
inductive EngineCall.Makes : {α : Type} → EngineCall α → α → ChangeSet → List Task → Prop where
  | start {definition : Uuid} {data : Json.Members} {startedBy : String} {target : Instance}
      {task : Task} (opens : task.instanceId = target.id ∧ task.isPending = true) :
      Makes (.start definition data startedBy) target.id ⟨target, [task]⟩ [task]
  | complete {id : Uuid} {data : Json.Members} {principal : String} {target : Instance}
      {task : Task} {now : Timestamp} {created : List Task}
      (opens : ∀ made ∈ created, made.instanceId = target.id ∧ made.isPending = true) :
      Makes (.complete id data principal) ⟨target.id, target.status, created⟩
        ⟨target, task.complete data principal now :: created⟩ created

namespace EngineCall.Makes

variable {α : Type} {call : EngineCall α} {value : α} {changes : ChangeSet} {created : List Task}

theorem createdTasks (makes : call.Makes value changes created) :
    changes.createdTasks = created := by
  cases makes with
  | start opens => exact List.filter_cons_of_pos opens.2
  | complete opens =>
    refine (List.filter_cons_of_neg Bool.false_ne_true).trans (List.filter_eq_self.mpr ?_)
    exact fun made member => (opens made member).2

theorem moves (makes : call.Makes value changes created) : call.Moves := by
  cases makes with
  | start _ | complete _ => trivial

end EngineCall.Makes

namespace Program

variable {α β : Type}

/-- The program of a call that tells nobody anything until it has written its changes, and then what
there is to tell about the tasks that are new in them. A call that moves no instance on does not get
that far. -/
inductive Announces (call : EngineCall α) : Program (Except Failure α) → Prop where
  | failed (failure : Failure) : Announces call (.done (.error failure))
  | silent (value : α) (rests : ¬ call.Moves) : Announces call (.done (.ok value))
  | request {β : Type} {operation : Request β} {next : β → Program (Except Failure α)}
      (quiet : operation.IsQuiet) (plain : call.Moves → operation.IsPlain)
      (resume : ∀ answer, Announces call (next answer)) :
      Announces call (.request operation next)
  | commit {changes : ChangeSet} {created : List Task} {value : α}
      {next : Except Failure Unit → Program (Except Failure α)}
      (failed : ∀ failure, Announces call (next (.error failure)))
      (tells : (next (.ok ())).Tells (.ok value) (assignments created))
      (makes : call.Makes value changes created) :
      Announces call (.request (.store (.commit changes)) next)

theorem Uses.announces_bind {call : EngineCall β} {program : Program α} {post : α → Prop}
    {next : α → Program (Except Failure β)} (plain : program.Uses Request.IsPlain)
    (yields : program.Yields post) (resume : ∀ result, post result → (next result).Announces call) :
    (program.bind next).Announces call := by
  induction yields with
  | done holds => exact resume _ holds
  | request _ ih =>
    exact .request plain.1.quiet (fun _ => plain.1) fun answer => ih answer (plain.2 answer)

theorem Uses.announces {call : EngineCall α} {program : Program (Except Failure α)}
    (quiet : program.Uses Request.IsQuiet) (rests : ¬ call.Moves) : program.Announces call := by
  induction program with
  | done result =>
    cases result with
    | error failure => exact .failed failure
    | ok value => exact .silent value rests
  | request operation next ih =>
    exact .request quiet.1 (fun moves => absurd moves rests) fun answer => ih answer (quiet.2 answer)

end Program

/-- What holds of the value of an operation, if it has one, whatever it is told. -/
def Operation.Prepares {α : Type} (post : α → Prop) (operation : Operation α) : Prop :=
  Program.Yields (fun result => ∀ value, result = .ok value → post value) operation.run

namespace Operation.Prepares

variable {α β : Type} {post : β → Prop}

theorem throw (failure : Failure) : Prepares post (throw failure : Operation β) :=
  .done fun _ same => nomatch same

theorem bind {operation : Operation α} {next : α → Operation β}
    (resume : ∀ value, Prepares post (next value)) : Prepares post (operation >>= next) := by
  refine (Program.yields_true operation.run).bind fun result _ => ?_
  cases result with
  | ok value => exact resume value
  | error failure => exact throw failure

theorem of_consults {drawn : List Uuid} {operation : Operation β}
    {told : List Uuid → Except Failure β → Prop}
    (consults : Consults (fun _ => True) drawn operation told)
    (holds : ∀ ids value, told ids (.ok value) → post value) : Prepares post operation := by
  refine (Program.Consults.yields consults).mono ?_
  rintro result ⟨ids, ends⟩ value rfl
  exact holds ids value ends

end Operation.Prepares

open Program Operation

theorem prepareStart_prepares (id : Uuid) (data : Json.Members) (startedBy : String) :
    Prepares (fun changes => ∃ created,
      (EngineCall.start id data startedBy).Makes changes.target.id changes created)
      (Engine.prepareStart id data startedBy) := by
  unfold Engine.prepareStart
  split
  · exact .throw _
  refine .bind fun definition => .bind fun now => ?_
  have found : ({ definitions := [definition] } : MemoryStore).definition? definition.id =
      some definition := by simp [MemoryStore.definition?]
  have begins : Operation.Consults (fun _ => True) [] _ _ :=
    begin_consults found data startedBy now
  refine .of_consults begins fun ids changes told => ?_
  obtain ⟨begun, rfl, _⟩ := told
  exact ⟨_, .start ⟨rfl, rfl⟩⟩

theorem prepare_prepares (id : Uuid) (data : Json.Members) (principal : String) :
    Prepares (fun changes => ∃ created, (EngineCall.complete id data principal).Makes
      ⟨changes.target.id, changes.target.status, created⟩ changes created)
      (Engine.prepare id data principal) := by
  refine .bind fun task => .bind fun target => .bind fun definition => ?_
  refine .bind fun pending => .bind fun now => ?_
  have advance : Operation.Consults (fun _ => True) [] _ _ :=
    advance_consults definition target task pending data principal now
  refine .of_consults advance fun ids changes told => ?_
  obtain ⟨step, created, advances, _, rfl⟩ := told
  refine ⟨created, .complete fun made member => ?_⟩
  obtain ⟨_, _, _, _, same⟩ := advances.creates.mem member
  have home : (completionChanges target task pending created data principal now).target.id =
      target.id := Instance.withPending_id
  rw [home, same]
  exact ⟨rfl, rfl⟩

theorem define_quiet (definition : Definition) :
    (Engine.define definition).run.Uses Request.IsQuiet := by
  rw [Engine.define_eq]
  refine ((prepareDraft_plain definition).mono fun _ plain => plain.quiet).bind fun prepared => ?_
  cases prepared with
  | error failure => trivial
  | ok draft =>
    refine ⟨trivial, fun answer => ?_⟩
    cases answer with
    | error failure => trivial
    | ok _ => trivial

theorem activate_quiet (id : Uuid) : (Engine.activate id).run.Uses Request.IsQuiet := by
  rw [Engine.activate_eq]
  refine ((checkDraft_plain id).mono fun _ plain => plain.quiet).bind fun checked => ?_
  cases checked with
  | error failure => trivial
  | ok _ =>
    refine ⟨trivial, fun answer => ?_⟩
    cases answer with
    | error failure => trivial
    | ok switched => cases switched <;> trivial

/-- Calls that move no instance on tell nobody anything. -/
theorem call_quiet {α : Type} (call : EngineCall α) (rests : ¬ call.Moves) :
    call.operation.run.Uses Request.IsQuiet := by
  cases call with
  | define definition => exact define_quiet definition
  | activate id => exact activate_quiet id
  | start _ _ _ | complete _ _ _ => exact absurd trivial rests
  | status id => exact (status_plain id).mono fun _ plain => plain.quiet
  | instancesFor principal => exact (instancesFor_plain principal).mono fun _ plain => plain.quiet
  | tasksFor principal filter =>
    refine ⟨trivial, fun answer => ?_⟩
    cases answer with
    | error failure => trivial
    | ok tasks => trivial

theorem start_announces (id : Uuid) (data : Json.Members) (startedBy : String) :
    (Engine.start id data startedBy).run.Announces (.start id data startedBy) := by
  rw [Engine.start_run]
  refine Uses.announces_bind (prepareStart_plain id data startedBy)
    (prepareStart_prepares id data startedBy) fun prepared made => ?_
  cases prepared with
  | error failure => exact .failed failure
  | ok changes =>
    obtain ⟨created, makes⟩ := made changes rfl
    have told : Tells (.ok changes.target.id) (assignments changes.createdTasks ++ []) (do
        Engine.announce changes
        return changes.target.id : Operation Uuid).run := .notify _ .done
    rw [makes.createdTasks, List.append_nil] at told
    exact .commit .failed told makes

theorem settle_announces {id : Uuid} {data : Json.Members} {principal : String} (target : Uuid)
    {prepared : Except Failure ChangeSet}
    (made : ∀ changes, prepared = .ok changes → ∃ created,
      (EngineCall.complete id data principal).Makes
        ⟨changes.target.id, changes.target.status, created⟩ changes created) :
    (Engine.settle target prepared).Announces (.complete id data principal) := by
  have gives (failure : Failure) : (Engine.finish target (.error failure)).run.Announces
      (.complete id data principal) :=
    .request trivial (fun _ => trivial) fun _ =>
      .request trivial (fun _ => trivial) fun _ => .failed failure
  cases prepared with
  | error failure => exact gives failure
  | ok changes =>
    obtain ⟨created, makes⟩ := made changes rfl
    let outcome : TaskCompletion :=
      ⟨changes.target.id, changes.target.status, changes.createdTasks⟩
    have told : Tells (.ok outcome) (assignments changes.createdTasks ++ [])
        (do Engine.announce changes; return outcome : Operation TaskCompletion).run :=
      .notify _ .done
    rw [List.append_nil] at told
    rw [← makes.createdTasks] at makes
    refine .commit gives (.back trivial fun _ => ?_) makes
    change Tells (.ok outcome) _ (do
      if changes.target.isCompleted then Operation.ask (.release target)
      Engine.announce changes
      return outcome : Operation TaskCompletion).run
    split
    · exact .back trivial fun _ => told
    · exact told

theorem complete_announces (id : Uuid) (data : Json.Members) (principal : String) :
    (Engine.complete id data principal).run.Announces (.complete id data principal) := by
  obtain ⟨next, begins, failed, missing, found⟩ := Engine.complete_run id data principal
  rw [begins]
  refine .request trivial (fun _ => ⟨trivial, trivial⟩) fun answer => ?_
  cases answer with
  | error failure =>
    rw [failed]
    exact .failed failure
  | ok located =>
    cases located with
    | none =>
      rw [missing]
      exact .failed _
    | some task =>
      rw [found]
      refine .request trivial (fun _ => trivial) fun _ => ?_
      exact Uses.announces_bind (prepare_plain id data principal)
        (prepare_prepares id data principal) fun _ made => settle_announces task.instanceId made

theorem call_announces {α : Type} (call : EngineCall α) : call.operation.run.Announces call := by
  by_cases moves : call.Moves
  · cases call with
    | start id data startedBy => exact start_announces id data startedBy
    | complete id data principal => exact complete_announces id data principal
    | _ => exact moves.elim
  · exact (call_quiet call moves).announces moves

theorem Task.Continues.forTask? {old new : Task} (continues : old.Continues new) :
    TaskAssignment.forTask? new = TaskAssignment.forTask? old := by
  rw [TaskAssignment.forTask?, TaskAssignment.forTask?, continues.assignee, continues.id,
    continues.instanceId, continues.stepId, continues.priority, continues.dueAt]

theorem assignments_continued {created stored : List Task}
    (continued : List.Forall₂ Task.Continues created stored) :
    assignments stored = assignments created := by
  induction continued with
  | nil => rfl
  | cons first _ ih =>
    rw [assignments] at ih
    rw [assignments, assignments, List.filterMap_cons, List.filterMap_cons, first.forTask?, ih,
      assignments]

theorem continued_refl (tasks : List Task) : List.Forall₂ Task.Continues tasks tasks :=
  List.forall₂_same.mpr fun task _ => .refl task

theorem continued_trans {first middle last : List Task}
    (early : List.Forall₂ Task.Continues first middle)
    (late : List.Forall₂ Task.Continues middle last) : List.Forall₂ Task.Continues first last := by
  induction early generalizing last with
  | nil => exact late
  | cons one _ ih =>
    obtain ⟨task, rest, other, later, rfl⟩ := List.forall₂_cons_left_iff.mp late
    exact .cons (one.trans other) (ih later)

def MemoryStore.tasksAmong (records : MemoryStore) (ids : List Uuid) : List Task :=
  records.tasks.filter fun task => task.id ∈ ids

variable {records : MemoryStore} {ids : List Uuid}

namespace MemoryStore

theorem tasksAmong_fresh (fresh : Fresh records ids) : records.tasksAmong ids = [] := by
  refine List.filter_eq_nil_iff.mpr fun task member known => ?_
  exact fresh.tasks task.id (of_decide_eq_true known) (List.mem_map.mpr ⟨task, member, rfl⟩)

theorem upsert_continued {task old : Task} {tasks : List Task}
    (found : tasks.find? (fun other => other.id = task.id) = some old)
    (continues : old.Continues task) :
    List.Forall₂ Task.Continues (tasks.filter fun task => task.id ∈ ids)
      ((upsert (·.id) task tasks).filter fun task => task.id ∈ ids) := by
  obtain ⟨before, after, shape, written⟩ := @upsert_known _ _ _ Task.id _ _ _ found
  have all : List.Forall₂ Task.Continues tasks (upsert (·.id) task tasks) := by
    rw [written, shape]
    exact List.rel_append (continued_refl before) (.cons continues (continued_refl after))
  refine List.rel_filter (fun first second same => ?_) all
  simp only [same.id]

end MemoryStore

/-- What a call adds to the stored tasks: its new tasks. -/
theorem Writes.tasksAmong {definitions : List Definition} {α : Type} {call : EngineCall α}
    {value : α} {drawn : List Uuid} {changes : ChangeSet}
    (writes : Writes { records with definitions } call value drawn changes)
    (fresh : Fresh records drawn) :
    ∃ kept, List.Forall₂ Task.Continues (records.tasksAmong ids) kept ∧
      (records.commit changes).tasksAmong ids =
        kept ++ changes.createdTasks.filter fun task => task.id ∈ ids := by
  obtain ⟨_, same⟩ := records.commit_defined definitions changes
  rw [MemoryStore.tasksAmong, MemoryStore.tasksAmong, same]
  have unused := fresh.defined definitions
  cases writes with
  | begun begun =>
    rw [begun.tasks_after unused, List.filter_append]
    exact ⟨_, continued_refl _, rfl⟩
  | @completed _ data principal done =>
    have known : records.task? done.task.id = some done.task := by
      rw [done.task_id]
      exact done.found
    have again := @MemoryStore.upsert_continued ids
      (done.task.complete data principal done.now) _ _ known (done.task.continues_complete _ _ _)
    rw [done.tasks_after unused, done.createdTasks_eq, List.filter_append]
    exact ⟨_, again, rfl⟩

theorem Writes.created_drawn {α : Type} {call : EngineCall α} {value : α} {drawn : List Uuid}
    {changes : ChangeSet} (writes : Writes records call value drawn changes) :
    ∀ task ∈ changes.createdTasks, task.id ∈ drawn := by
  cases writes with
  | begun begun =>
    intro task member
    rw [List.mem_singleton.mp (List.mem_filter.mp member).1]
    exact List.mem_cons_self
  | completed done =>
    intro task member
    rw [done.createdTasks_eq] at member
    exact List.mem_reverse.mpr (List.mem_map.mpr ⟨task, member, rfl⟩)

/-- Behind its own changes the tasks that a call has drawn identifiers for are its new ones. -/
theorem Writes.tasksAmong_own {definitions : List Definition} {α : Type} {call : EngineCall α}
    {value : α} {drawn : List Uuid} {changes : ChangeSet}
    (writes : Writes { records with definitions } call value drawn changes)
    (fresh : Fresh records drawn) :
    (records.commit changes).tasksAmong drawn = changes.createdTasks := by
  obtain ⟨kept, continued, after⟩ := writes.tasksAmong fresh
  rw [MemoryStore.tasksAmong_fresh fresh] at continued
  rw [after, List.forall₂_nil_left_iff.mp continued, List.nil_append]
  exact List.filter_eq_self.mpr fun task member => decide_eq_true (writes.created_drawn task member)

/-- The task that a call completes is none that it has drawn an identifier for. -/
theorem Writes.task_not_drawn {definitions : List Definition} {α : Type} {call : EngineCall α}
    {value : α} {drawn : List Uuid} {changes : ChangeSet}
    (writes : Writes { records with definitions } call value drawn changes)
    (fresh : Fresh records drawn) : ∀ id, call.task? = some id → id ∉ drawn := by
  intro id completes
  cases writes with
  | begun begun => cases completes
  | completed done =>
    cases completes
    intro drew
    refine fresh.tasks _ drew (List.mem_map.mpr ⟨done.task, ?_, done.task_id⟩)
    exact MemoryStore.mem_of_task? done.found

namespace System

variable {attempts : Nat → Attempt} {system : System attempts} {drawn : List Uuid}

/-- How far a call has come with telling: nobody has been told and nothing is written, or it has
written and what it has told and is about to tell is what there is to tell about its new tasks, which
are stored. -/
inductive Telling (system : System attempts) (i : Nat) : Prop where
  | early (unwritten : i ∉ system.written) (silent : (system.clients i).sent = [])
      (announces : (system.clients i).rest.Announces (attempts i).call) : Telling system i
  | late {value : (attempts i).Answer} {changes : ChangeSet} {created : List Task}
      {told : List TaskAssignment} (wrote : i ∈ system.written)
      (tells : (system.clients i).rest.Tells (.ok value) told)
      (all : (system.clients i).sent ++ told = assignments created)
      (makes : (attempts i).call.Makes value changes created)
      (stored : List.Forall₂ Task.Continues created
        (system.records.tasksAmong (system.clients i).drawn))
      (apart : ∀ id, (attempts i).call.task? = some id → id ∉ (system.clients i).drawn) :
      Telling system i

theorem Telling.begin (attempts : Nat → Attempt) (records : MemoryStore) (i : Nat) :
    Telling (System.begin attempts records) i :=
  .early List.not_mem_nil rfl (call_announces (attempts i).call)

theorem Orderly.tasksAmong_other (orderly : system.Orderly drawn)
    (distinct : system.Distinct drawn) {i j : Nat} (different : j ≠ i) :
    List.Forall₂ Task.Continues (system.records.tasksAmong (system.clients j).drawn)
      ((system.step i).records.tasksAmong (system.clients j).drawn) := by
  rcases orderly.stores distinct i with ⟨_, tasks⟩ | ⟨changes, wrote⟩
  · rw [MemoryStore.tasksAmong, MemoryStore.tasksAmong, tasks]
    exact continued_refl _
  · obtain ⟨definitions, value, writes⟩ := wrote.writes
    have none : (changes.createdTasks.filter fun task =>
        task.id ∈ (system.clients j).drawn) = [] := by
      refine List.filter_eq_nil_iff.mpr fun task member known => ?_
      exact distinct.apart i j different.symm task.id (writes.created_drawn task member)
        (of_decide_eq_true known)
    obtain ⟨kept, continued, after⟩ := writes.tasksAmong wrote.fresh
    rw [wrote.records, after, none, List.append_nil]
    exact continued

theorem Telling.other {i j : Nat} (telling : system.Telling j) (orderly : system.Orderly drawn)
    (distinct : system.Distinct drawn) (different : j ≠ i) : (system.step i).Telling j := by
  have same := system.clients_step_other different
  have wrote : j ∈ (system.step i).written ↔ j ∈ system.written := by
    rcases orderly.stepped i with ⟨_, _, written⟩ | ⟨_, _, _, _, _, written, _⟩
    · rw [written]
    · rw [written, List.mem_append, List.mem_singleton, or_iff_left different]
  cases telling with
  | early unwritten silent announces =>
    exact .early (fun late => unwritten (wrote.mp late)) (same ▸ silent) (same ▸ announces)
  | late written tells all makes stored apart =>
    have kept := orderly.tasksAmong_other distinct different
    rw [← same] at kept tells all apart
    exact .late (wrote.mpr written) tells all makes (continued_trans (same ▸ stored) kept) apart

section Served

variable {i : Nat} {β : Type} {operation : Request β}
  {next : β → Program (Except Failure (attempts i).Answer)}

theorem clients_served (rest : (system.clients i).rest = .request operation next)
    (free : operation.isBlocked i system.locks = false) {answer : β} {view : World}
    (served : ((system.clients i).view system.records).serve (attempts i).moments operation =
      (answer, view)) :
    (system.step i).clients i = (system.clients i).resume (next answer) view := by
  rw [step_served rest free served]
  exact Function.update_self _ _ _

theorem step_aside (rest : (system.clients i).rest = .request operation next)
    (free : operation.isBlocked i system.locks = false) (aside : operation.IsAside) :
    (system.step i).written = system.written ∧
      (system.step i).records.tasks = system.records.tasks := by
  obtain ⟨_, tasks⟩ := aside.keeps (attempts i).moments ((system.clients i).view system.records)
  rw [step_served rest free rfl, aside.writes_eq_false]
  exact ⟨rfl, tasks⟩

theorem Telling.commit (orderly : system.Orderly drawn) (distinct : system.Distinct drawn)
    {changes : ChangeSet} {last : Except Failure Unit → Program (Except Failure (attempts i).Answer)}
    {value : (attempts i).Answer} {created : List Task}
    (rest : (system.clients i).rest = .request (.store (.commit changes)) last)
    (unwritten : i ∉ system.written) (silent : (system.clients i).sent = [])
    (failed : ∀ failure, (last (.error failure)).Announces (attempts i).call)
    (tells : (last (.ok ())).Tells (.ok value) (assignments created))
    (makes : (attempts i).call.Makes value changes created) : (system.step i).Telling i := by
  have fresh := orderly.fresh distinct unwritten
  obtain ⟨_, _, definitions, answer, _, _, writes⟩ := (orderly.courses i).commits rest
  have free : (Request.store (.commit changes)).isBlocked i system.locks = false := rfl
  let view : World :=
    { (system.clients i).view system.records with asked := (system.clients i).asked + 1 }
  cases fault : ((attempts i).moments (system.clients i).asked).fault with
  | some failure =>
    have served : ((system.clients i).view system.records).serve (attempts i).moments
        (.store (.commit changes)) = (.error failure, view) := by
      simp only [World.serve, World.answer, World.callStore, Client.view, fault, view]
    have after := clients_served rest free served
    refine .early ?_ (after ▸ silent) (after ▸ failed failure)
    rw [step_served rest free served]
    simpa [Request.writes, fault] using unwritten
  | none =>
    have served : ((system.clients i).view system.records).serve (attempts i).moments
          (.store (.commit changes)) =
        (.ok (), { view with records := system.records.commit changes }) := by
      simp only [World.serve, World.answer, World.callStore, Client.view, fault, view]
      rfl
    have after := clients_served rest free served
    have wrote : i ∈ (system.step i).written := by
      rw [step_served rest free served]
      simp [Request.writes, fault]
    have records : (system.step i).records = system.records.commit changes := by
      rw [step_served rest free served]
    have own : (system.step i).records.tasksAmong ((system.step i).clients i).drawn = created := by
      rw [records, after, ← makes.createdTasks]
      exact writes.tasksAmong_own fresh
    refine .late wrote (by rw [after]; exact tells) ?_ makes (own.symm ▸ continued_refl created) ?_
    · rw [after]
      change (system.clients i).sent ++ _ = _
      rw [silent, List.nil_append]
    · rw [after]
      exact writes.task_not_drawn fresh

/-- A call that has written goes on by giving locks back and telling somebody, and for neither it
draws an identifier or writes a task. -/
theorem Telling.settle (rest : (system.clients i).rest = .request operation next)
    (free : operation.isBlocked i system.locks = false) (aside : operation.IsAside)
    {value : (attempts i).Answer} {changes : ChangeSet} {created : List Task}
    {told later : List TaskAssignment} (wrote : i ∈ system.written)
    (all : (system.clients i).sent ++ told = assignments created)
    (makes : (attempts i).call.Makes value changes created)
    (stored : List.Forall₂ Task.Continues created
      (system.records.tasksAmong (system.clients i).drawn))
    (apart : ∀ id, (attempts i).call.task? = some id → id ∉ (system.clients i).drawn)
    (drew : ((system.step i).clients i).drawn = (system.clients i).drawn)
    (tells : ((system.step i).clients i).rest.Tells (.ok value) later)
    (same : ((system.step i).clients i).sent ++ later = (system.clients i).sent ++ told) :
    (system.step i).Telling i := by
  obtain ⟨written, tasks⟩ := step_aside rest free aside
  have kept : (system.step i).records.tasksAmong ((system.step i).clients i).drawn =
      system.records.tasksAmong (system.clients i).drawn := by
    rw [drew, MemoryStore.tasksAmong, MemoryStore.tasksAmong, tasks]
  exact .late (written ▸ wrote) tells (same.trans all) makes (kept ▸ stored) (drew ▸ apart)

theorem Telling.own (telling : system.Telling i) (orderly : system.Orderly drawn)
    (distinct : system.Distinct drawn) : (system.step i).Telling i := by
  cases rest : (system.clients i).rest with
  | done result =>
    rw [step_done rest]
    exact telling
  | request operation next =>
  cases free : operation.isBlocked i system.locks with
  | true =>
    rw [step_blocked rest free]
    cases telling with
    | early unwritten silent announces => exact .early unwritten silent announces
    | late wrote tells all makes stored apart => exact .late wrote tells all makes stored apart
  | false =>
  have after := clients_served rest free rfl
  cases telling with
  | early unwritten silent announces =>
    rw [rest] at announces
    cases announces with
    | request quiet _ resume =>
      obtain ⟨written, _⟩ := step_aside rest free quiet.aside
      refine .early (written ▸ unwritten) ?_ (after ▸ resume _)
      rw [after]
      exact (quiet.sent _ _).trans silent
    | commit failed tells makes =>
      exact .commit orderly distinct rest unwritten silent failed tells makes
  | late wrote tells all makes stored apart =>
    rw [rest] at tells
    cases tells with
    | back gives resume =>
      cases operation with
      | leave _ | release _ =>
        refine .settle rest free trivial wrote all makes stored apart ?_
          (by rw [after]; exact resume _) ?_
        all_goals
          rw [after]
          rfl
      | _ => exact gives.elim
    | @notify _ _ _ resume =>
      refine .settle rest free trivial wrote all makes stored apart ?_
        (by rw [after]; exact resume) ?_
      · rw [after]
        rfl
      · rw [after]
        exact List.append_assoc _ _ _

end Served

theorem Orderly.telling_run (orderly : system.Orderly drawn) {schedule : List Nat}
    (distinct : (system.run schedule).Distinct drawn) (telling : ∀ i, system.Telling i) :
    ∀ i, (system.run schedule).Telling i := by
  induction schedule generalizing system with
  | nil => exact telling
  | cons j rest ih =>
    have later : ((system.step j).run rest).Distinct drawn := distinct
    have now : system.Distinct drawn := later.of_run.of_step
    refine ih (orderly.step now j).1 later fun i => ?_
    by_cases same : i = j
    · subst same
      exact (telling i).own orderly now
    · exact (telling i).other orderly now same

/-- Whom the calls have told of what. At any time a call has told nobody about anything but its own
stored tasks, each of them once at most. When it has succeeded it has told every assignee of the tasks
that it has made, which are stored, and nobody about the task that it has completed. It tells nobody
when it fails, or is of a kind that moves no instance on. -/
structure Announced (system : System attempts) : Prop where
  within : ∀ i, ∃ later, Inform ((system.clients i).sent ++ later)
    (system.records.tasksAmong (system.clients i).drawn)
  told : ∀ i value, (system.clients i).rest = .done (.ok value) → (attempts i).call.Moves →
    ∃ changes created, (attempts i).call.Makes value changes created ∧
      List.Forall₂ Task.Continues created
        (system.records.tasksAmong (system.clients i).drawn) ∧
      Inform (system.clients i).sent created
  spared : ∀ i id, (attempts i).call.task? = some id →
    ∀ message ∈ (system.clients i).sent, message.taskId ≠ id
  failed : ∀ i failure, (system.clients i).rest = .done (.error failure) →
    (system.clients i).sent = []
  rests : ∀ i, ¬ (attempts i).call.Moves → (system.clients i).sent = []

theorem Telling.within {i : Nat} (telling : system.Telling i) (orderly : system.Orderly drawn)
    (distinct : system.Distinct drawn) : ∃ later, Inform ((system.clients i).sent ++ later)
      (system.records.tasksAmong (system.clients i).drawn) := by
  cases telling with
  | early unwritten silent announces =>
    rw [silent, MemoryStore.tasksAmong_fresh (orderly.fresh distinct unwritten)]
    exact ⟨[], .nil⟩
  | late wrote tells all makes stored apart =>
    exact ⟨_, inform_iff.mpr (all.trans (assignments_continued stored).symm)⟩

theorem Orderly.announced (orderly : system.Orderly drawn) (distinct : system.Distinct drawn)
    (telling : ∀ i, system.Telling i) : system.Announced where
  within i := (telling i).within orderly distinct
  told i value rest moves := by
    cases telling i with
    | early unwritten silent announces =>
      rw [rest] at announces
      cases announces with
      | silent _ still => exact absurd moves still
    | late wrote tells all makes stored apart =>
      rw [rest] at tells
      cases tells
      rw [List.append_nil] at all
      exact ⟨_, _, makes, stored, inform_iff.mpr all⟩
  spared i id completes message sent := by
    cases telling i with
    | early unwritten silent announces =>
      rw [silent] at sent
      cases sent
    | late wrote tells all makes stored apart =>
      obtain ⟨later, informs⟩ := (telling i).within orderly distinct
      obtain ⟨task, among, about⟩ := informs.mem (List.mem_append_left later sent)
      have drew := of_decide_eq_true (List.mem_filter.mp among).2
      rintro rfl
      exact apart message.taskId completes (about.taskId ▸ drew)
  failed i failure rest := by
    cases telling i with
    | early unwritten silent announces => exact silent
    | late wrote tells all makes stored apart =>
      rw [rest] at tells
      cases tells
  rests i still := by
    cases telling i with
    | early unwritten silent announces => exact silent
    | late wrote tells all makes stored apart => exact absurd makes.moves still

end System

end Workflow
