import Workflow.Proofs.Reading
import Workflow.Proofs.Stages

/-! How a call deals with the lock of an instance. A completion asks for one lock, gives it back in
the end, and releases its entry as well unless it has left the instance running. The other calls
have nothing to do with locks. -/

namespace Workflow

/-- How a call stands to a lock: it has none; it has one, and gives it back and releases it; it has
one and has left the instance running; or it has given one back and releases it next. -/
inductive Stance
  | outside
  | inside (target : Uuid)
  | kept (target : Uuid)
  | releasing (target : Uuid)
deriving DecidableEq

def Stance.written (target : Uuid) (changes : ChangeSet) : Stance :=
  if changes.target.isCompleted then .inside target else .kept target

def Stance.left (target : Uuid) (changes : ChangeSet) : Stance :=
  if changes.target.isCompleted then .releasing target else .outside

def Request.IsUnlocked {α : Type} : Request α → Prop
  | acquire _ | leave _ | release _ => False
  | _ => True

theorem Request.IsLookup.unlocked {α : Type} {operation : Request α}
    (looks : operation.IsLookup) : operation.IsUnlocked := by
  cases operation with
  | acquire _ | leave _ | release _ => exact looks
  | _ => trivial

namespace Program

variable {α β : Type} {locks : Prop} {target : Uuid}

def wants? : Program α → Option Uuid
  | .done _ => none
  | .request operation _ => operation.wants?

inductive Tidy (locks : Prop) : Stance → Program α → Prop where
  | done {result : α} : Tidy locks .outside (.done result)
  | outside {β : Type} {operation : Request β} {next : β → Program α}
      (unlocked : operation.IsUnlocked) (resume : ∀ answer, Tidy locks .outside (next answer)) :
      Tidy locks .outside (.request operation next)
  | acquire {target : Uuid} {next : Unit → Program α} (may : locks)
      (resume : Tidy locks (.inside target) (next ())) :
      Tidy locks .outside (.request (.acquire target) next)
  | inside {target : Uuid} {β : Type} {operation : Request β} {next : β → Program α}
      (looks : operation.IsLookup) (resume : ∀ answer, Tidy locks (.inside target) (next answer)) :
      Tidy locks (.inside target) (.request operation next)
  | commit {target : Uuid} {changes : ChangeSet} {next : Except Failure Unit → Program α}
      (failed : ∀ failure, Tidy locks (.inside target) (next (.error failure)))
      (written : Tidy locks (.written target changes) (next (.ok ()))) :
      Tidy locks (.inside target) (.request (.store (.commit changes)) next)
  | leave {target : Uuid} {next : Unit → Program α}
      (resume : Tidy locks (.releasing target) (next ())) :
      Tidy locks (.inside target) (.request (.leave target) next)
  | keep {target : Uuid} {next : Unit → Program α} (resume : Tidy locks .outside (next ())) :
      Tidy locks (.kept target) (.request (.leave target) next)
  | release {target : Uuid} {next : Unit → Program α}
      (resume : Tidy locks .outside (next ())) :
      Tidy locks (.releasing target) (.request (.release target) next)

theorem Tidy.leave_written {changes : ChangeSet} {next : Unit → Program α}
    (resume : (next ()).Tidy locks (.left target changes)) :
    Tidy locks (.written target changes) (.request (.leave target) next) := by
  rw [Stance.left] at resume
  rw [Stance.written]
  split
  next done =>
    rw [if_pos done] at resume
    exact .leave resume
  next running =>
    rw [if_neg running] at resume
    exact .keep resume

theorem Uses.tidy {program : Program α} (uses : program.Uses Request.IsUnlocked) :
    program.Tidy locks .outside := by
  induction program with
  | done result => exact .done
  | request operation next ih => exact .outside uses.1 fun answer => ih answer (uses.2 answer)

theorem Uses.inside {program : Program α} {next : α → Program β}
    (uses : program.Uses Request.IsLookup)
    (resume : ∀ result, (next result).Tidy locks (.inside target)) :
    (program.bind next).Tidy locks (.inside target) := by
  induction program with
  | done result => exact resume result
  | request operation rest ih => exact .inside uses.1 fun answer => ih answer (uses.2 answer)

theorem Tidy.asks {program : Program α} {stance : Stance} (tidy : program.Tidy locks stance)
    (wants : program.wants? = some target) : stance = .outside ∧ locks := by
  cases tidy with
  | done => cases wants
  | acquire may _ => exact ⟨rfl, may⟩
  | @outside _ operation _ unlocked _ =>
    cases operation with
    | acquire _ => exact unlocked.elim
    | _ => cases wants
  | @inside _ _ operation _ looks _ =>
    cases operation with
    | acquire _ => exact looks.elim
    | _ => cases wants
  | commit _ _ | leave _ | keep _ | release _ => cases wants

end Program

namespace Operation

variable {α β : Type}

theorem Looks.unlocked {operation : Operation α} (looks : Looks operation) :
    operation.run.Uses Request.IsUnlocked :=
  Program.Uses.mono looks fun _ lookup => lookup.unlocked

theorem Looks.unlocked_bind {operation : Operation α} (looks : Looks operation)
    {next : α → Operation β} (resume : ∀ value, (next value).run.Uses Request.IsUnlocked) :
    (operation >>= next).run.Uses Request.IsUnlocked := by
  refine looks.unlocked.bind fun result => ?_
  cases result with
  | error failure => trivial
  | ok value => exact resume value

theorem store_unlocked (call : StoreCall α) {next : α → Operation β}
    (resume : ∀ value, (next value).run.Uses Request.IsUnlocked) :
    (Operation.store call >>= next).run.Uses Request.IsUnlocked := by
  refine ⟨trivial, fun answer => ?_⟩
  cases answer with
  | error failure => trivial
  | ok value => exact resume value

end Operation

theorem define_unlocked (definition : Definition) :
    (Engine.define definition).run.Uses Request.IsUnlocked := by
  rw [Engine.define_eq]
  refine (prepareDraft_looks definition).unlocked_bind fun draft => ?_
  exact Operation.store_unlocked _ fun _ => trivial

theorem activate_unlocked (id : Uuid) : (Engine.activate id).run.Uses Request.IsUnlocked := by
  rw [Engine.activate_eq]
  refine (checkDraft_looks id).unlocked_bind fun _ => ?_
  refine Operation.store_unlocked _ fun switched => ?_
  cases switched with
  | true => trivial
  | false => trivial

theorem start_unlocked (id : Uuid) (data : Json.Members) (startedBy : String) :
    (Engine.start id data startedBy).run.Uses Request.IsUnlocked := by
  rw [Engine.start_eq]
  refine (prepareStart_looks id data startedBy).unlocked_bind fun changes => ?_
  exact Operation.store_unlocked _ fun _ => ⟨trivial, fun _ => trivial⟩

/-- What follows when a completion has given back the lock of what it has written. -/
theorem finish_tidy {locks : Prop} (target : Uuid) (changes : ChangeSet) :
    Program.Tidy locks (.left target changes) (do
      if changes.target.isCompleted then Operation.ask (.release target)
      Engine.announce changes
      return ⟨changes.target.id, changes.target.status, changes.createdTasks⟩ :
        Operation TaskCompletion).run := by
  have told : Program.Tidy locks .outside (do
      Engine.announce changes
      return ⟨changes.target.id, changes.target.status, changes.createdTasks⟩ :
        Operation TaskCompletion).run :=
    .outside trivial fun _ => .done
  rw [Stance.left]
  cases changes.target.isCompleted with
  | true => exact .release told
  | false => exact told

theorem settle_tidy {locks : Prop} (target : Uuid) (prepared : Except Failure ChangeSet) :
    (Engine.settle target prepared).Tidy locks (.inside target) := by
  cases prepared with
  | error failure => exact .leave (.release .done)
  | ok changes =>
    refine .commit (fun failure => .leave (.release .done)) ?_
    exact .leave_written (finish_tidy target changes)

theorem complete_tidy (id : Uuid) (data : Json.Members) (principal : String) :
    (Engine.complete id data principal).run.Tidy (some id).isSome .outside := by
  obtain ⟨next, asks, failed, missing, found⟩ := Engine.complete_run id data principal
  rw [asks]
  refine .outside trivial fun answer => ?_
  match answer with
  | .error failure =>
    rw [failed]
    exact .done
  | .ok none =>
    rw [missing]
    exact .done
  | .ok (some task) =>
    rw [found]
    exact .acquire rfl ((prepare_looks id data principal).inside (settle_tidy task.instanceId))

theorem call_tidy {α : Type} (call : EngineCall α) :
    call.operation.run.Tidy (call.task?.isSome = true) .outside := by
  cases call with
  | define definition => exact (define_unlocked definition).tidy
  | activate id => exact (activate_unlocked id).tidy
  | start id data startedBy => exact (start_unlocked id data startedBy).tidy
  | complete id data principal => exact complete_tidy id data principal
  | status id => exact (status_looks id).unlocked.tidy
  | instancesFor principal => exact (instancesFor_looks principal).unlocked.tidy
  | tasksFor principal filter =>
    refine .outside trivial fun answer => ?_
    cases answer with
    | error failure => exact .done
    | ok tasks => exact .done

theorem call_wants {α : Type} (call : EngineCall α) : call.operation.run.wants? = none := by
  cases wants : call.operation.run.wants? with
  | none => rfl
  | some target =>
    have locks := ((call_tidy call).asks wants).2
    cases call with
    | complete id data principal =>
      obtain ⟨next, begins, _⟩ := Engine.complete_run id data principal
      have asks : (EngineCall.complete id data principal).operation.run =
        .request (.store (.loadTask id)) next := begins
      rw [asks] at wants
      cases wants
    | _ => cases locks

end Workflow
