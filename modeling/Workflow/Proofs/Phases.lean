import Workflow.Engine.Operation

/-! The phases of an operation that writes: it prepares its changes, writes them all at once, and
asks for nothing more that could fail. The operations that do so are put into this form. -/

namespace Workflow

namespace Program

def isDone {α : Type} : Program α → Bool
  | done _ => true
  | request _ _ => false

theorem bind_done {α : Type} (program : Program α) : program.bind .done = program := by
  induction program with
  | done result => rfl
  | request operation next ih => rw [bind, funext ih]

theorem bind_assoc {α β γ : Type} (program : Program α) (next : α → Program β)
    (last : β → Program γ) :
    (program.bind next).bind last = program.bind fun value => (next value).bind last := by
  induction program with
  | done result => rfl
  | request operation rest ih => rw [bind, bind, bind, funext ih]

instance : LawfulMonad Program :=
  LawfulMonad.mk' Program (fun program => bind_done program) (fun _ _ => rfl) bind_assoc

end Program

def Request.IsClosing {α : Type} : Request α → Prop
  | leave _ | release _ | notify _ => True
  | _ => False

namespace Program

inductive Closes {α : Type} (result : α) : Program α → Prop where
  | done : Closes result (.done result)
  | request {β : Type} {operation : Request β} {next : β → Program α}
      (closing : operation.IsClosing) (resume : ∀ answer, Closes result (next answer)) :
      Closes result (.request operation next)

variable {α : Type}

/-- Changes are written by a last call of the store, after which nothing fails any more. -/
structure Commits (write : Except Failure ChangeSet → Program (Except Failure α)) : Prop where
  failed : ∀ failure, (write (.error failure)).Closes (.error failure)
  commits : ∀ changes, ∃ next, write (.ok changes) = .request (.store (.commit changes)) next ∧
    (∀ failure, (next (.error failure)).Closes (.error failure)) ∧
    ∃ value, (next (.ok ())).Closes (.ok value)

end Program

namespace Engine

def prepareDraft (definition : Definition) : Operation Definition := do
  let report := definition.validate
  if !report.isOk then throw (.invalidDefinition report)
  if (← Operation.store (.findDefinition definition.name definition.version)).isSome then
    throw (.alreadyDefined definition.name definition.version)
  if (← Operation.store (.loadDefinition definition.id)).isSome then throw (.idTaken definition.id)
  let now ← Operation.ask .now
  return { definition with status := .draft, createdAt := some now }

def checkDraft (id : Uuid) : Operation Unit := do
  let definition ← loadDefinition id
  if definition.isActive then throw (.alreadyActive id)
  let report := definition.validate
  if !report.isOk then throw (.invalidDefinition report)

/-- Everything that a completion does under the lock before it writes. -/
def prepare (task : Uuid) (data : Json.Members) (principal : String) : Operation ChangeSet := do
  let task ← loadTask task
  let target ← loadInstance task.instanceId
  let definition ← loadDefinition target.definitionId
  let pending ← Operation.store (.pendingTasks target.id)
  let now ← Operation.ask .now
  advance definition target task pending data principal now

def finish (target : Uuid) (result : Except Failure ChangeSet) : Operation TaskCompletion := do
  Operation.ask (.leave target)
  match result with
  | .error failure =>
    Operation.ask (.release target)
    throw failure
  | .ok changes =>
    if changes.target.isCompleted then Operation.ask (.release target)
    announce changes
    return {
      instanceId := changes.target.id
      instanceStatus := changes.target.status
      createdTasks := changes.createdTasks }

def prepareStart (definition : Uuid) (data : Json.Members) (startedBy : String) :
    Operation ChangeSet := do
  if Text.Blank startedBy then throw .noStarter
  let definition ← loadDefinition definition
  let now ← Operation.ask .now
  begin definition data startedBy now

def write (prepared : Except Failure ChangeSet) : Operation ChangeSet := do
  let changes ← ExceptT.mk (pure prepared)
  Operation.store (.commit changes)
  return changes

def settle (target : Uuid) (prepared : Except Failure ChangeSet) :
    Program (Except Failure TaskCompletion) :=
  (write prepared).run.bind fun result => (finish target result).run

def settleStart (prepared : Except Failure ChangeSet) : Program (Except Failure Uuid) :=
  (write prepared >>= fun changes => do announce changes; return changes.target.id).run

theorem run_bind {α β : Type} (operation : Operation α) (next : α → Operation β) :
    (operation >>= next).run = operation.run.bind fun result =>
      (ExceptT.mk (pure result) >>= next : Operation β).run :=
  rfl

theorem run_lift {α β : Type} (program : Program α) (next : α → Operation β) :
    (ExceptT.lift program >>= next : Operation β).run = program.bind fun value =>
      (next value).run := by
  have lifted : (ExceptT.lift program : Operation α).run =
      program.bind fun value => .done (.ok value) := rfl
  rw [run_bind, lifted, Program.bind_assoc]
  rfl

theorem define_eq (definition : Definition) :
    define definition = do
      let draft ← prepareDraft definition
      Operation.store (.saveDefinition draft)
      return definition.id := by
  unfold define prepareDraft
  cases valid : definition.validate.isOk with
  | false =>
    simp only [valid]
    rfl
  | true =>
    simp only [valid, Bool.not_true, Bool.false_eq_true, if_false, bind_assoc]
    refine congrArg _ (funext fun named => ?_)
    cases named with
    | some other => rfl
    | none =>
      simp only [Option.isSome_none, Bool.false_eq_true, if_false, bind_assoc]
      refine congrArg _ (funext fun known => ?_)
      cases known with
      | some other => rfl
      | none => simp only [Option.isSome_none, Bool.false_eq_true, if_false, bind_assoc, pure_bind]

theorem activate_eq (id : Uuid) :
    activate id = (do
      checkDraft id
      if !(← Operation.store (.transition id .draft .active)) then
        throw (.activatedConcurrently id)) := by
  unfold activate checkDraft
  simp only [bind_assoc]
  refine congrArg _ (funext fun definition => ?_)
  cases definition.isActive with
  | true => rfl
  | false =>
    cases definition.validate.isOk with
    | true => rfl
    | false => rfl

theorem completeLocked_eq (task : Uuid) (data : Json.Members) (principal : String) :
    completeLocked task data principal = do
      let changes ← prepare task data principal
      Operation.store (.commit changes)
      return changes := by
  simp only [completeLocked, prepare, bind_assoc]

theorem start_eq (definition : Uuid) (data : Json.Members) (startedBy : String) :
    start definition data startedBy = do
      let changes ← prepareStart definition data startedBy
      Operation.store (.commit changes)
      announce changes
      return changes.target.id := by
  unfold start prepareStart
  split
  · rfl
  · simp only [bind_assoc]

/-- A completion reads its task, and goes on under the lock of its instance. -/
theorem complete_run (task : Uuid) (data : Json.Members) (principal : String) :
    ∃ next, (complete task data principal).run = .request (.store (.loadTask task)) next ∧
      (∀ failure, next (.error failure) = .done (.error failure)) ∧
      next (.ok none) = .done (.error (.noTask task)) ∧
      ∀ found : Task, next (.ok (some found)) = .request (.acquire found.instanceId) fun _ =>
        (prepare task data principal).run.bind (settle found.instanceId) := by
  refine ⟨_, rfl, fun _ => rfl, rfl, fun found => ?_⟩
  have locked : (completeLocked task data principal).run =
      (prepare task data principal).run.bind fun prepared => (write prepared).run := by
    rw [completeLocked_eq]
    rfl
  have rest : (ExceptT.lift (completeLocked task data principal).run >>=
        finish found.instanceId : Operation TaskCompletion).run =
      (prepare task data principal).run.bind (settle found.instanceId) := by
    rw [run_lift, locked, Program.bind_assoc]
    rfl
  exact congrArg (Program.request (.acquire found.instanceId)) (funext fun _ => rest)

theorem start_run (definition : Uuid) (data : Json.Members) (startedBy : String) :
    (start definition data startedBy).run =
      (prepareStart definition data startedBy).run.bind settleStart := by
  rw [start_eq, run_bind]
  refine congrArg _ (funext fun prepared => ?_)
  rw [settleStart, write, bind_assoc]
  simp only [bind_assoc, pure_bind]

private theorem told_closes (changes : ChangeSet) :
    Program.Closes
      (.ok ⟨changes.target.id, changes.target.status, changes.createdTasks⟩)
      (do
        announce changes
        return ⟨changes.target.id, changes.target.status, changes.createdTasks⟩ :
        Operation TaskCompletion).run :=
  .request trivial fun _ => .done

theorem settle_asks (target : Uuid) (changes : ChangeSet) :
    ∃ next, settle target (.ok changes) = .request (.store (.commit changes)) next ∧
      (∀ failure, (next (.error failure)).Closes (.error failure)) ∧
      (next (.ok ())).Closes
        (.ok ⟨changes.target.id, changes.target.status, changes.createdTasks⟩) := by
  refine ⟨_, rfl, fun _ => .request trivial fun _ => .request trivial fun _ => .done,
    .request trivial fun _ => ?_⟩
  change Program.Closes _ (do
    if changes.target.isCompleted then Operation.ask (.release target)
    announce changes
    return ⟨changes.target.id, changes.target.status, changes.createdTasks⟩ :
    Operation TaskCompletion).run
  split
  · exact .request trivial fun _ => told_closes changes
  · exact told_closes changes

theorem settle_commits (target : Uuid) : Program.Commits (settle target) where
  failed _ := .request trivial fun _ => .request trivial fun _ => .done
  commits changes := by
    obtain ⟨next, asks, failed, closes⟩ := settle_asks target changes
    exact ⟨next, asks, failed, _, closes⟩

theorem settleStart_commits : Program.Commits settleStart where
  failed _ := .done
  commits changes :=
    ⟨_, rfl, fun _ => .done, changes.target.id, .request trivial fun _ => .done⟩

end Engine

end Workflow
