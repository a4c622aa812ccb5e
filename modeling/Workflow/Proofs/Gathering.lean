import Workflow.Proofs.Endurance
import Workflow.Proofs.Reading

/-! What a call gathers before it writes, where others write meanwhile. Definitions may change between
any two of its requests; what a completion reads of its task and its instance stays, because it holds
their lock. What it writes in the end is what it would write alone over the stored instances and
tasks, with definitions as it found them. -/

namespace Workflow

namespace Request

def IsInquiry {α : Type} : Request α → Prop
  | store call => call.IsRead
  | holders _ | hasRole .. | now | freshId => True
  | _ => False

def Learns {α : Type} (frame : MemoryStore → Prop) : Request α → α → Prop
  | store call, .ok value => ∃ records, frame records ∧ (records.answer call).1 = value
  | _, _ => True

def draws {α : Type} : Request α → α → List Uuid
  | freshId, id => [id]
  | _, _ => []

end Request

namespace Program

/-- A program that gathers what it needs to know, with what holds of its result and of the identifiers
drawn by then, the last one first. The records may become any others of a frame meanwhile. -/
inductive Gathers {α : Type} (frame : MemoryStore → Prop) (post : List Uuid → α → Prop) :
    List Uuid → Program α → Prop where
  | done {drawn : List Uuid} {result : α} (holds : post drawn result) :
      Gathers frame post drawn (.done result)
  | request {drawn : List Uuid} {β : Type} {operation : Request β} {next : β → Program α}
      (inquiry : operation.IsInquiry)
      (resume : ∀ answer, operation.Learns frame answer →
        Gathers frame post (operation.draws answer ++ drawn) (next answer)) :
      Gathers frame post drawn (.request operation next)

variable {frame : MemoryStore → Prop} {α β : Type} {drawn : List Uuid}

theorem Gathers.bind {program : Program α} {next : α → Program β} {first : List Uuid → α → Prop}
    {post : List Uuid → β → Prop} (gathers : Gathers frame first drawn program)
    (resume : ∀ ids result, first ids result → Gathers frame post ids (next result)) :
    Gathers frame post drawn (program.bind next) := by
  induction gathers with
  | done holds => exact resume _ _ holds
  | request inquiry _ ih => exact .request inquiry ih

theorem Gathers.mono {program : Program α} {first post : List Uuid → α → Prop}
    (gathers : Gathers frame first drawn program)
    (implies : ∀ ids result, first ids result → post ids result) : Gathers frame post drawn program := by
  induction gathers with
  | done holds => exact .done (implies _ _ holds)
  | request inquiry _ ih => exact .request inquiry ih

theorem Consults.gathers {program : Program α} {post : List Uuid → α → Prop}
    (consults : Consults (fun _ => True) post drawn program) : Gathers frame post drawn program := by
  induction consults with
  | done holds => exact .done holds
  | holders _ ih =>
    exact .request trivial fun answer _ =>
      ih { Moment.deserted with holders := fun _ => answer } trivial
  | hasRole _ ih =>
    exact .request trivial fun answer _ =>
      ih { Moment.deserted with hasRole := fun _ _ => answer } trivial
  | freshId _ ih =>
    exact .request trivial fun answer _ => ih { Moment.deserted with freshId := answer } trivial

theorem Closes.unique {program : Program α} {first second : α} (closes : program.Closes first)
    (also : program.Closes second) : first = second := by
  induction closes with
  | done =>
    cases also
    rfl
  | @request _ operation _ closing _ ih =>
    cases also with
    | request _ rest =>
      cases operation with
      | leave _ | release _ => exact ih () (rest ())
      | notify _ => exact ih [] (rest [])
      | _ => exact closing.elim

end Program

namespace Operation

def Gathers {α : Type} (frame : MemoryStore → Prop) (drawn : List Uuid) (operation : Operation α)
    (post : List Uuid → α → Prop) : Prop :=
  Program.Gathers frame (fun ids result => ∀ value, result = .ok value → post ids value) drawn
    operation.run

namespace Gathers

variable {frame : MemoryStore → Prop} {α β : Type} {drawn : List Uuid} {post : List Uuid → β → Prop}

theorem pure {value : β} (holds : post drawn value) : Gathers frame drawn (Pure.pure value) post :=
  .done fun _ same => Except.ok.inj same ▸ holds

theorem throw (failure : Failure) : Gathers frame drawn (throw failure : Operation β) post :=
  .done fun _ impossible => nomatch impossible

theorem bind {operation : Operation α} {next : α → Operation β} {first : List Uuid → α → Prop}
    (gathers : Gathers frame drawn operation first)
    (resume : ∀ ids value, first ids value → Gathers frame ids (next value) post) :
    Gathers frame drawn (operation >>= next) post := by
  refine Program.Gathers.bind gathers fun ids result holds => ?_
  cases result with
  | error failure => exact throw failure
  | ok value => exact resume ids value (holds value rfl)

theorem now : Gathers frame drawn (Operation.ask .now) fun ids _ => ids = drawn :=
  .request trivial fun _ _ => .done fun _ _ => rfl

theorem store (call : StoreCall β) (reads : call.IsRead) :
    Gathers frame drawn (Operation.store call) fun ids value =>
      ids = drawn ∧ ∃ records, frame records ∧ (records.answer call).1 = value := by
  have asked : Gathers frame drawn (Operation.ask (.store call)) fun ids answer =>
      ids = drawn ∧ (Request.store call).Learns frame answer :=
    .request reads fun answer learns => .done fun _ same => Except.ok.inj same ▸ ⟨rfl, learns⟩
  refine asked.bind fun ids answer told => ?_
  cases answer with
  | error failure => exact throw failure
  | ok value => exact pure told

theorem load (call : StoreCall (Option β)) (reads : call.IsRead) (missing : Failure) :
    Gathers frame drawn (do Operation.found missing (← Operation.store call)) fun ids value =>
      ids = drawn ∧ ∃ records, frame records ∧ (records.answer call).1 = some value := by
  refine (store call reads).bind fun ids value told => ?_
  cases value with
  | none => exact throw missing
  | some value => exact pure told

end Gathers

end Operation

def EngineCall.outcome? {α : Type} : EngineCall α → α → Option TaskCompletion
  | complete .., outcome => some outcome
  | _, _ => none

/-- The changes that a call writes, with its answer and the identifiers that it draws, the last one
first. -/
inductive Writes (records : MemoryStore) :
    {α : Type} → EngineCall α → α → List Uuid → ChangeSet → Prop where
  | begun {id : Uuid} {data : Json.Members} {startedBy : String}
      (begun : Beginning (fun _ => True) records id data startedBy) :
      Writes records (.start id data startedBy) begun.id [begun.taskId, begun.id] begun.changes
  | completed {id : Uuid} {data : Json.Members} {principal : String}
      (done : Completion (fun _ => True) records id data principal) :
      Writes records (.complete id data principal) done.outcome done.ids done.changes

/-- What a call is about to do when it has gathered what it needs: it fails, or it writes its changes,
over any records of a frame but for the definitions, and cannot fail after that. -/
def Readies {α : Type} (call : EngineCall α)
    (write : Except Failure ChangeSet → Program (Except Failure α)) (frame : MemoryStore → Prop)
    (ids : List Uuid) : Except Failure ChangeSet → Prop
  | .error failure => (write (.error failure)).Closes (.error failure)
  | .ok changes => ∃ next value definitions,
      write (.ok changes) = .request (.store (.commit changes)) next ∧
        (∀ failure, (next (.error failure)).Closes (.error failure)) ∧
        (next (.ok ())).Closes (.ok value) ∧
        ∀ records, frame records → Writes { records with definitions } call value ids changes

/-- A completion that is prepared under the lock of its instance can be written. -/
theorem prepare_gathers {base : MemoryStore} {id target : Uuid} (houses : Houses base id target)
    (data : Json.Members) (principal : String) :
    (Engine.prepare id data principal).run.Gathers (Shares id target base)
      (Readies (.complete id data principal) (Engine.settle target) (Shares id target base)) [] := by
  have prepared : Operation.Gathers (Shares id target base) [] (Engine.prepare id data principal)
      fun ids changes => ∃ definitions, ∀ records, Shares id target base records →
        Writes { records with definitions } (.complete id data principal)
          ⟨changes.target.id, changes.target.status, changes.createdTasks⟩ ids changes := by
    obtain ⟨stored, known, located⟩ := houses
    refine .bind (.load (.loadTask id) trivial _) fun ids task told => ?_
    obtain ⟨rfl, records, shares, found⟩ := told
    replace found : records.task? id = some task := found
    rw [shares.task?, known] at found
    cases found
    refine .bind (.load (.loadInstance stored.instanceId) trivial _) fun ids home told => ?_
    obtain ⟨rfl, records, shares, housed⟩ := told
    replace housed : records.instance? stored.instanceId = some home := housed
    rw [located, shares.instance?] at housed
    have place : home.id = target := MemoryStore.instance?_id housed
    refine .bind (.load (.loadDefinition home.definitionId) trivial _) fun ids definition told => ?_
    obtain ⟨rfl, records, _, defined⟩ := told
    replace defined : records.definition? home.definitionId = some definition := defined
    have named := MemoryStore.definition?_id defined
    refine .bind (.store (.pendingTasks home.id) trivial) fun ids pending told => ?_
    obtain ⟨rfl, records, shares, listed⟩ := told
    replace listed : records.pendingTasks home.id = pending := listed
    rw [place, shares.pendingTasks] at listed
    refine Operation.Gathers.now.bind fun ids now told => ?_
    subst told
    have advances : Operation.Consults (fun _ => True) [] _ _ :=
      advance_consults definition home stored pending data principal now
    refine advances.gathers.mono fun ids result told changes same => ?_
    subst same
    obtain ⟨step, created, advances, drawn, rfl⟩ := told
    refine ⟨[definition], fun records shares => ?_⟩
    let done : Completion (fun _ => True) { records with definitions := [definition] } id data principal :=
      { task := stored, target := home, definition, now, step, created, advances
        found := shares.task?.trans known
        housed := by
          rw [located]
          exact shares.instance?.trans housed
        defined := by simp [MemoryStore.definition?, named] }
    have written : completionChanges home stored pending created data principal now = done.changes := by
      have same : records.pendingTasks home.id = pending := by
        rw [place, shares.pendingTasks, listed]
      rw [← same]
      rfl
    rw [written, drawn, List.append_nil]
    exact .completed done
  refine prepared.mono fun ids result told => ?_
  cases result with
  | error failure => exact (Engine.settle_commits target).failed failure
  | ok changes =>
    obtain ⟨definitions, writes⟩ := told changes rfl
    obtain ⟨next, asks, failed, closes⟩ := Engine.settle_asks target changes
    exact ⟨next, _, definitions, asks, failed, closes, writes⟩

/-- A start that is prepared can be written, whatever has become of the records. -/
theorem prepareStart_gathers (id : Uuid) (data : Json.Members) (startedBy : String) :
    (Engine.prepareStart id data startedBy).run.Gathers (fun _ => True)
      (Readies (.start id data startedBy) Engine.settleStart fun _ => True) [] := by
  have prepared : Operation.Gathers (fun _ => True) [] (Engine.prepareStart id data startedBy)
      fun ids changes => ∃ definitions, ∀ records : MemoryStore,
        Writes { records with definitions } (.start id data startedBy) changes.target.id ids changes := by
    unfold Engine.prepareStart
    split
    · exact .throw _
    refine .bind (.load (.loadDefinition id) trivial _) fun ids definition told => ?_
    obtain ⟨rfl, records, _, defined⟩ := told
    replace defined : records.definition? id = some definition := defined
    have named := MemoryStore.definition?_id defined
    refine Operation.Gathers.now.bind fun ids now told => ?_
    subst told
    have begins : Operation.Consults (fun _ => True) [] _ _ := begin_consults defined data startedBy now
    refine begins.gathers.mono fun ids result told changes same => ?_
    subst same
    obtain ⟨begun, rfl, _, drawn⟩ := told
    refine ⟨[begun.definition], fun others => ?_⟩
    let again : Beginning (fun _ => True) { others with definitions := [begun.definition] } id data
        startedBy :=
      { begun with found := by simp [MemoryStore.definition?, MemoryStore.definition?_id begun.found] }
    rw [drawn]
    exact .begun again
  refine prepared.mono fun ids result told => ?_
  cases result with
  | error failure => exact Engine.settleStart_commits.failed failure
  | ok changes =>
    obtain ⟨definitions, writes⟩ := told changes rfl
    exact ⟨_, changes.target.id, definitions, rfl, fun _ => .done, .request trivial fun _ => .done,
      fun records _ => writes records⟩

theorem Fresh.defined {records : MemoryStore} {ids : List Uuid} (fresh : Fresh records ids)
    (definitions : List Definition) : Fresh { records with definitions } ids :=
  ⟨fresh.distinct, fresh.instances, fresh.tasks⟩

/-- What changes make of instances and tasks does not depend on the definitions. -/
theorem MemoryStore.commit_defined (records : MemoryStore) (definitions : List Definition)
    (changes : ChangeSet) :
    (records.commit changes).instances =
        (({ records with definitions } : MemoryStore).commit changes).instances ∧
      (records.commit changes).tasks =
        (({ records with definitions } : MemoryStore).commit changes).tasks := by
  simp only [commit_instances, commit_tasks, and_self]

namespace Writes

variable {records : MemoryStore} {definitions : List Definition} {α : Type} {call : EngineCall α}
  {value : α} {ids : List Uuid} {changes : ChangeSet}

theorem effect (writes : Writes records call value ids changes) :
    Effect (fun _ => True) records call value ids (records.commit changes) := by
  cases writes with
  | begun begun => exact .begun begun
  | completed done => exact .completed done

theorem carries (writes : Writes { records with definitions } call value ids changes)
    (fresh : Fresh records ids) : Carries records changes := by
  have carries : Carries { records with definitions } changes := by
    cases writes with
    | begun begun => exact begun.carries (fresh.defined definitions)
    | completed done => exact done.carries (fresh.defined definitions)
  exact ⟨⟨carries.confined.own, carries.confined.was⟩, carries.target, carries.tasks⟩

theorem accounted (writes : Writes { records with definitions } call value ids changes)
    {drawn : List Uuid} (accounted : Accounted records drawn) :
    Accounted (records.commit changes) (ids ++ drawn) := by
  have after : Accounted (({ records with definitions } : MemoryStore).commit changes) (ids ++ drawn) :=
    writes.effect.accounted ⟨accounted.instances, accounted.tasks⟩
  obtain ⟨instances, tasks⟩ := records.commit_defined definitions changes
  exact ⟨instances ▸ after.instances, tasks ▸ after.tasks⟩

/-- The instance that is written is that of the task that is completed, or it is new. -/
theorem place (writes : Writes { records with definitions } call value ids changes) :
    (∃ id, call.task? = some id ∧ Houses records id changes.target.id) ∨
      call.task? = none ∧ changes.target.id ∈ ids := by
  cases writes with
  | begun begun => exact Or.inr ⟨rfl, List.mem_cons_of_mem _ List.mem_cons_self⟩
  | completed done =>
    refine Or.inl ⟨_, rfl, done.task, done.found, ?_⟩
    rw [done.changes_id, done.target_id]

theorem moves (writes : Writes { records with definitions } call value ids changes)
    {outcome : TaskCompletion} (answers : call.outcome? value = some outcome) :
    outcome.instanceId = changes.target.id ∧ outcome.instanceStatus = changes.target.status ∧
      ∃ old, records.instance? changes.target.id = some old ∧ old.status ≠ .completed := by
  cases writes with
  | begun begun => cases answers
  | completed done =>
    cases answers
    refine ⟨rfl, rfl, done.target, ?_, ?_⟩
    · rw [done.changes_id, done.target_id]
      exact done.housed
    · simpa [Instance.isCompleted] using done.advances.running

end Writes

end Workflow
