import Workflow.Proofs.EngineCalls
import Workflow.Proofs.Queries

/-! What operations do before they write. A plain request asks for records or for something beside
the store, and every store answers it; an operation that writes makes plain requests up to the one
that writes. -/

namespace Workflow

/-- A list that is asked for has no limit, or one that fits a signed word of 64 bits. -/
def StoreCall.IsBounded {α : Type} : StoreCall α → Prop
  | assignedTasks _ filter => ∀ limit, filter.limit = some limit → limit < 0x8000000000000000
  | _ => True

def Request.IsPlain {α : Type} : Request α → Prop
  | store call => call.IsRead ∧ call.IsBounded
  | notify _ => False
  | _ => True

/-- A plain request that has nothing to do with a lock. -/
def Request.IsLookup {α : Type} : Request α → Prop
  | acquire _ | leave _ | release _ => False
  | operation => operation.IsPlain

theorem Request.IsLookup.plain {α : Type} {operation : Request α} (looks : operation.IsLookup) :
    operation.IsPlain := by
  cases operation with
  | acquire _ | leave _ | release _ => exact looks.elim
  | _ => exact looks

namespace Operation

def Plain {α : Type} (operation : Operation α) : Prop :=
  Program.Uses Request.IsPlain operation.run

def Looks {α : Type} (operation : Operation α) : Prop :=
  Program.Uses Request.IsLookup operation.run

theorem Looks.plain {α : Type} {operation : Operation α} (looks : Looks operation) :
    Plain operation :=
  Program.Uses.mono looks fun _ lookup => lookup.plain

theorem Consults.looks {α : Type} {drawn : List Uuid} {operation : Operation α}
    {post : List Uuid → Except Failure α → Prop}
    (consults : Consults (fun _ => True) drawn operation post) : Looks operation := by
  refine (Program.Consults.uses consults).mono fun operation consulting => ?_
  cases operation with
  | holders _ | hasRole _ _ | freshId => trivial
  | _ => exact consulting.elim

namespace Looks

variable {α β : Type}

theorem pure (value : β) : Looks (Pure.pure value) := trivial

theorem throw (failure : Failure) : Looks (throw failure : Operation β) := trivial

theorem bind {operation : Operation α} {next : α → Operation β} (looks : Looks operation)
    (resume : ∀ value, Looks (next value)) : Looks (operation >>= next) := by
  refine Program.Uses.bind looks fun result => ?_
  cases result with
  | ok value => exact resume value
  | error failure => exact throw failure

theorem ask {request : Request β} (lookup : request.IsLookup) : Looks (Operation.ask request) :=
  ⟨lookup, fun _ => trivial⟩

theorem store (call : StoreCall β) (reads : call.IsRead) (bounded : call.IsBounded) :
    Looks (Operation.store call) := by
  refine ⟨⟨reads, bounded⟩, fun answer => ?_⟩
  cases answer with
  | ok value => trivial
  | error failure => trivial

theorem load (call : StoreCall (Option β)) (reads : call.IsRead) (bounded : call.IsBounded)
    (missing : Failure) : Looks (do Operation.found missing (← Operation.store call)) := by
  refine bind (store call reads bounded) fun record => ?_
  cases record with
  | none => exact throw missing
  | some value => exact pure value

end Looks

end Operation

open Operation

theorem prepareDraft_looks (definition : Definition) : Looks (Engine.prepareDraft definition) := by
  unfold Engine.prepareDraft
  cases valid : definition.validate.isOk with
  | false =>
    simp only [valid]
    exact .throw _
  | true =>
    simp only [valid]
    refine .bind (.store (.findDefinition definition.name definition.version) trivial trivial) ?_
    intro named
    cases named with
    | some other => exact .throw _
    | none =>
      refine .bind (.store (.loadDefinition definition.id) trivial trivial) fun known => ?_
      cases known with
      | some other => exact .throw _
      | none => exact .bind (.ask trivial) fun now => .pure _

theorem checkDraft_looks (id : Uuid) : Looks (Engine.checkDraft id) := by
  refine .bind (.load (.loadDefinition id) trivial trivial _) fun definition => ?_
  cases definition.isActive with
  | true => exact .throw _
  | false =>
    cases valid : definition.validate.isOk with
    | false =>
      simp only [valid]
      exact .throw _
    | true =>
      simp only [valid]
      exact .pure _

theorem prepare_looks (id : Uuid) (data : Json.Members) (principal : String) :
    Looks (Engine.prepare id data principal) := by
  refine .bind (.load (.loadTask id) trivial trivial _) fun task => ?_
  refine .bind (.load (.loadInstance task.instanceId) trivial trivial _) fun target => ?_
  refine .bind (.load (.loadDefinition target.definitionId) trivial trivial _) fun definition => ?_
  refine .bind (.store (.pendingTasks target.id) trivial trivial) fun pending => ?_
  refine .bind (.ask trivial) fun now => ?_
  have advance : Consults (fun _ => True) [] _ _ :=
    advance_consults definition target task pending data principal now
  exact advance.looks

theorem prepareStart_looks (id : Uuid) (data : Json.Members) (startedBy : String) :
    Looks (Engine.prepareStart id data startedBy) := by
  unfold Engine.prepareStart
  split
  · exact .throw _
  refine .bind (.load (.loadDefinition id) trivial trivial _) fun definition => ?_
  refine .bind (.ask trivial) fun now => ?_
  have found : ({ definitions := [definition] } : MemoryStore).definition? definition.id =
      some definition := by simp [MemoryStore.definition?]
  have begins : Consults (fun _ => True) [] _ _ := begin_consults found data startedBy now
  exact begins.looks

theorem status_looks (id : Uuid) : Looks (Engine.status id) := by
  refine .bind (.load (.loadInstance id) trivial trivial _) fun target => ?_
  exact .bind (.store (.tasksOf id) trivial trivial) fun tasks => .pure _

theorem instancesFor_looks (principal : String) : Looks (Engine.instancesFor principal) := by
  refine .bind (.store (.assignedTasks principal .pending) trivial nofun) fun tasks => ?_
  generalize (tasks.map (·.instanceId)).eraseDups = ids
  induction ids with
  | nil => exact .pure _
  | cons id rest ih =>
    refine .bind (.load (.loadInstance id) trivial trivial _) fun target => ?_
    exact .bind ih fun targets => .pure _

theorem prepareDraft_plain (definition : Definition) : Plain (Engine.prepareDraft definition) :=
  (prepareDraft_looks definition).plain

theorem checkDraft_plain (id : Uuid) : Plain (Engine.checkDraft id) :=
  (checkDraft_looks id).plain

theorem prepare_plain (id : Uuid) (data : Json.Members) (principal : String) :
    Plain (Engine.prepare id data principal) :=
  (prepare_looks id data principal).plain

theorem prepareStart_plain (id : Uuid) (data : Json.Members) (startedBy : String) :
    Plain (Engine.prepareStart id data startedBy) :=
  (prepareStart_looks id data startedBy).plain

theorem status_plain (id : Uuid) : Plain (Engine.status id) :=
  (status_looks id).plain

theorem instancesFor_plain (principal : String) : Plain (Engine.instancesFor principal) :=
  (instancesFor_looks principal).plain

end Workflow
