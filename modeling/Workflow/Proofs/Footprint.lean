import Workflow.Proofs.Interleaving

/-! What an operation reads while it prepares its changes. Over records that agree on what is read,
the preparation goes the same way. -/

namespace Workflow

namespace Request

/-- A request that writes nothing, leaves the locks alone and has one answer over all records of a
frame. -/
def IsSteady {α : Type} (frame : MemoryStore → Prop) : Request α → Prop
  | store call => (∀ records : MemoryStore, (records.answer call).2 = records) ∧
      ∃ value, ∀ records, frame records → (records.answer call).1 = value
  | acquire _ | leave _ | release _ | notify _ => False
  | _ => True

def Tells {α : Type} (frame : MemoryStore → Prop) : Request α → α → Prop
  | store call, .ok value => ∀ records, frame records → (records.answer call).1 = value
  | _, _ => True

end Request

namespace Program

inductive Steady {α : Type} (frame : MemoryStore → Prop) (post : α → Prop) : Program α → Prop where
  | done {result : α} (holds : post result) : Steady frame post (.done result)
  | request {β : Type} {operation : Request β} {next : β → Program α}
      (steady : operation.IsSteady frame)
      (resume : ∀ answer, operation.Tells frame answer → Steady frame post (next answer)) :
      Steady frame post (.request operation next)

variable {α β : Type} {frame : MemoryStore → Prop}

theorem Steady.bind {program : Program α} {next : α → Program β} {first : α → Prop}
    {post : β → Prop} (steady : Steady frame first program)
    (resume : ∀ value, first value → Steady frame post (next value)) :
    Steady frame post (program.bind next) := by
  induction steady with
  | done holds => exact resume _ holds
  | request steady _ ih => exact .request steady ih

theorem Steady.mono {first post : α → Prop} {program : Program α}
    (steady : Steady frame first program) (implies : ∀ value, first value → post value) :
    Steady frame post program := by
  induction steady with
  | done holds => exact .done (implies _ holds)
  | request steady _ ih => exact .request steady ih

end Program

namespace World

def holding (world : World) (records : MemoryStore) : World :=
  { world with records }

variable {moments : Moments} {frame : MemoryStore → Prop} {world : World} {α : Type}

/-- A steady request is served the same way over all records of its frame. -/
theorem serve_holding {operation : Request α} (steady : operation.IsSteady frame) :
    ∃ answer, ∃ after : World, operation.Tells frame answer ∧ ∀ records, frame records →
      (world.holding records).serve moments operation = (answer, after.holding records) := by
  have blind (tells : operation.Tells frame (world.serve moments operation).1)
      (same : ∀ records, (world.holding records).serve moments operation =
        ((world.serve moments operation).1, (world.serve moments operation).2.holding records)) :
      ∃ answer, ∃ after : World, operation.Tells frame answer ∧ ∀ records, frame records →
        (world.holding records).serve moments operation = (answer, after.holding records) :=
    ⟨_, _, tells, fun records _ => same records⟩
  cases operation with
  | store call =>
    obtain ⟨reads, value, same⟩ := steady
    simp only [serve, World.answer, callStore, holding]
    cases fault : (moments world.asked).fault with
    | some failure =>
      exact ⟨.error failure, { world with asked := world.asked + 1 }, trivial, fun _ _ => rfl⟩
    | none =>
      refine ⟨.ok value, { world with asked := world.asked + 1 }, same, fun records member => ?_⟩
      simp only [reads, same records member]
  | acquire _ | leave _ | release _ | notify _ => exact steady.elim
  | holders _ | hasRole _ _ | now | freshId => exact blind trivial fun _ => rfl

theorem run_holding {post : α → Prop} {program : Program α} (steady : program.Steady frame post) :
    ∃ result, ∃ after : World, ∀ records, frame records →
      run moments program (world.holding records) = (result, after.holding records) := by
  induction steady generalizing world with
  | @done result _ => exact ⟨result, world, fun _ _ => rfl⟩
  | request steady _ ih =>
    obtain ⟨answer, middle, tells, served⟩ := @serve_holding moments frame world _ _ steady
    obtain ⟨result, after, ran⟩ := @ih answer tells middle
    refine ⟨result, after, fun records member => ?_⟩
    rw [run, served records member, ran records member]

end World

namespace Operation

def Steady {α : Type} (frame : MemoryStore → Prop) (operation : Operation α) (post : α → Prop) :
    Prop :=
  Program.Steady frame (fun result => ∀ value, result = .ok value → post value) operation.run

namespace Steady

variable {α β : Type} {frame : MemoryStore → Prop} {post : β → Prop}

theorem pure {value : β} (holds : post value) : Steady frame (Pure.pure value) post :=
  .done fun _ same => Except.ok.inj same ▸ holds

theorem throw {failure : Failure} : Steady frame (throw failure : Operation β) post :=
  .done fun _ impossible => nomatch impossible

theorem bind {operation : Operation α} {next : α → Operation β} {first : α → Prop}
    (steady : Steady frame operation first)
    (resume : ∀ value, first value → Steady frame (next value) post) :
    Steady frame (operation >>= next) post := by
  refine Program.Steady.bind steady fun result holds => ?_
  cases result with
  | error failure => exact throw
  | ok value => exact resume value (holds value rfl)

theorem ask {request : Request β} (steady : request.IsSteady frame)
    (told : ∀ answer, request.Tells frame answer → post answer) :
    Steady frame (Operation.ask request) post :=
  .request steady fun answer tells => .done fun _ same => Except.ok.inj same ▸ told answer tells

theorem attempt {request : Request (Except Failure β)} (steady : request.IsSteady frame)
    (told : ∀ value, request.Tells frame (.ok value) → post value) :
    Steady frame (Operation.attempt request) post := by
  have asked : Steady frame (Operation.ask request) (request.Tells frame) :=
    ask steady fun _ tells => tells
  refine asked.bind fun answer tells => ?_
  cases answer with
  | error failure => exact throw
  | ok value => exact pure (told value tells)

theorem load {call : StoreCall (Option β)} {missing : Failure} (expected : Option β)
    (reads : ∀ records : MemoryStore, (records.answer call).2 = records) (some : ∃ records, frame records)
    (same : ∀ records, frame records → (records.answer call).1 = expected)
    (found : ∀ value, expected = .some value → post value) :
    Steady frame (do Operation.found missing (← Operation.store call)) post := by
  obtain ⟨base, member⟩ := some
  have loaded : Steady frame (Operation.store call) (· = expected) :=
    attempt ⟨reads, expected, same⟩ fun value tells => (tells base member).symm.trans (same base member)
  refine loaded.bind fun value equal => ?_
  cases value with
  | none => exact throw
  | some value => exact pure (found value equal.symm)

end Steady

end Operation

variable {frame : MemoryStore → Prop}

theorem now_steady : Operation.Steady frame (Operation.ask .now) fun _ => True :=
  .ask trivial fun _ _ => trivial

/-- What only consults does not read the records at all. -/
theorem Program.Uses.steady {α : Type} {program : Program α}
    (uses : program.Uses Request.IsConsulting) : Steady frame (fun _ => True) program := by
  induction program with
  | done _ => exact .done trivial
  | request operation next ih =>
    obtain ⟨consulting, resume⟩ := uses
    cases operation with
    | holders _ | hasRole _ _ | freshId =>
      exact .request trivial fun answer _ => ih answer (resume answer)
    | _ => exact consulting.elim

theorem Operation.Consults.steady {α : Type} {drawn : List Uuid} {operation : Operation α}
    {post : List Uuid → Except Failure α → Prop}
    (consults : Operation.Consults (fun _ => True) drawn operation post) :
    Operation.Steady frame operation fun _ => True :=
  Program.Steady.mono (Program.Consults.uses consults).steady fun _ _ _ _ => trivial

/-- Records that are the same as far as a task and its instance go, whatever their definitions. -/
structure Shares (task target : Uuid) (base records : MemoryStore) : Prop where
  instance? : records.instance? target = base.instance? target
  tasksOf : records.tasksOf target = base.tasksOf target
  task? : records.task? task = base.task? task

theorem Shares.refl (task target : Uuid) (base : MemoryStore) : Shares task target base base :=
  ⟨rfl, rfl, rfl⟩

theorem Shares.pendingTasks {task target : Uuid} {base records : MemoryStore}
    (shares : Shares task target base records) :
    records.pendingTasks target = base.pendingTasks target := by
  rw [MemoryStore.pendingTasks_eq, shares.tasksOf, MemoryStore.pendingTasks_eq]

structure Agrees (task target : Uuid) (base records : MemoryStore) : Prop where
  definitions : records.definitions = base.definitions
  instance? : records.instance? target = base.instance? target
  tasksOf : records.tasksOf target = base.tasksOf target
  task? : records.task? task = base.task? task

theorem Agrees.refl (task target : Uuid) (base : MemoryStore) : Agrees task target base base :=
  ⟨rfl, rfl, rfl, rfl⟩

theorem Agrees.shares {task target : Uuid} {base records : MemoryStore}
    (agrees : Agrees task target base records) : Shares task target base records :=
  ⟨agrees.instance?, agrees.tasksOf, agrees.task?⟩

/-- A completion is prepared the same way over all records in which its instance is the same. -/
theorem prepare_steady {base : MemoryStore} {id target : Uuid} {task : Task}
    (found : base.task? id = some task) (located : task.instanceId = target)
    (data : Json.Members) (principal : String) :
    Operation.Steady (Agrees id target base) (Engine.prepare id data principal) fun _ => True := by
  have member : ∃ records, Agrees id target base records := ⟨base, .refl id target base⟩
  have first : Operation.Steady (Agrees id target base) (Engine.loadTask id)
      fun other => base.task? id = some other :=
    .load _ (fun _ => rfl) member (fun _ agrees => agrees.task?) fun _ same => same
  refine first.bind fun other same => ?_
  cases found.symm.trans same
  have second : Operation.Steady (Agrees id target base) (Engine.loadInstance task.instanceId)
      fun home => base.instance? target = some home := by
    rw [located]
    exact .load _ (fun _ => rfl) member (fun _ agrees => agrees.instance?) fun _ same => same
  refine second.bind fun home housed => ?_
  have third : Operation.Steady (Agrees id target base) (Engine.loadDefinition home.definitionId)
      fun _ => True := by
    refine .load (base.definition? home.definitionId) (fun _ => rfl) member ?_ fun _ _ => trivial
    intro records agrees
    simp only [MemoryStore.answer, MemoryStore.definition?, agrees.definitions]
  refine third.bind fun definition _ => ?_
  have listed : Operation.Steady (Agrees id target base)
      (Operation.store (.pendingTasks home.id)) fun _ => True := by
    refine .attempt ⟨fun _ => rfl, base.pendingTasks target, ?_⟩ fun _ _ => trivial
    intro records agrees
    rw [MemoryStore.instance?_id housed]
    exact agrees.shares.pendingTasks
  refine listed.bind fun pending _ => ?_
  refine now_steady.bind fun now _ => ?_
  have advance : Operation.Consults (fun _ => True) [] _ _ :=
    advance_consults definition home task pending data principal now
  exact advance.steady

theorem prepareStart_steady (base : MemoryStore) (id : Uuid) (data : Json.Members)
    (startedBy : String) :
    Operation.Steady (fun records => records.definitions = base.definitions)
      (Engine.prepareStart id data startedBy) fun _ => True := by
  unfold Engine.prepareStart
  by_cases blank : Text.Blank startedBy
  · simp only [if_pos blank]
    exact .throw
  simp only [if_neg blank]
  have loaded : Operation.Steady (fun records => records.definitions = base.definitions)
      (Engine.loadDefinition id) fun definition => base.definition? id = some definition := by
    refine .load (base.definition? id) (fun _ => rfl) ⟨base, rfl⟩ ?_ fun _ same => same
    intro records same
    simp only [MemoryStore.answer, MemoryStore.definition?, same]
  refine loaded.bind fun definition found => ?_
  refine now_steady.bind fun now _ => ?_
  have begins : Operation.Consults (fun _ => True) [] _ _ :=
    begin_consults found data startedBy now
  exact begins.steady

end Workflow
