import Workflow.Proofs.Gathering
import Workflow.Proofs.Serialization

/-! How far a call of any kind has come while others are under way, and what its next request leads
to: it leaves instances and tasks alone, or it writes its changes and cannot fail any more. -/

namespace Workflow

namespace Request

def IsAside {α : Type} : Request α → Prop
  | store (.saveInstance _) | store (.saveTask _) | store (.commit _) => False
  | _ => True

def commits? {α : Type} : Request α → Option ChangeSet
  | store (.commit changes) => some changes
  | _ => none

variable {α : Type} {operation : Request α}

theorem IsPlain.aside (plain : operation.IsPlain) : operation.IsAside := by
  cases operation with
  | store call =>
    cases call with
    | saveInstance _ | saveTask _ | commit _ => exact plain.1.elim
    | _ => trivial
  | _ => trivial

theorem IsAside.writes_eq_false (aside : operation.IsAside) (moment : Moment) :
    operation.writes moment = false := by
  cases operation with
  | store call =>
    cases call with
    | commit changes => exact aside.elim
    | _ => rfl
  | _ => rfl

theorem IsAside.keeps (aside : operation.IsAside) (moments : Moments) (world : World) :
    (world.serve moments operation).2.records.instances = world.records.instances ∧
      (world.serve moments operation).2.records.tasks = world.records.tasks := by
  cases operation with
  | store call =>
    simp only [World.serve, World.answer, World.callStore]
    cases (moments world.asked).fault with
    | some failure => exact ⟨rfl, rfl⟩
    | none =>
      cases call with
      | transition id source target =>
        simp only [MemoryStore.answer, MemoryStore.transition]
        cases world.records.definition? id with
        | none => exact ⟨rfl, rfl⟩
        | some definition =>
          simp only
          split
          · exact ⟨rfl, rfl⟩
          · exact ⟨rfl, rfl⟩
      | saveInstance _ | saveTask _ | commit _ => exact aside.elim
      | _ => exact ⟨rfl, rfl⟩
  | _ => exact ⟨rfl, rfl⟩

theorem IsInquiry.not_closing (inquiry : operation.IsInquiry) : ¬ operation.IsClosing := by
  intro closing
  cases operation with
  | leave _ | release _ | notify _ => exact inquiry
  | _ => exact closing

theorem IsInquiry.writes_eq_false (inquiry : operation.IsInquiry) (moment : Moment) :
    operation.writes moment = false := by
  cases operation with
  | store call =>
    cases call with
    | commit changes => exact inquiry.elim
    | _ => rfl
  | _ => rfl

theorem IsInquiry.served (inquiry : operation.IsInquiry) (frame : MemoryStore → Prop)
    (moments : Moments) (world : World) (current : frame world.records) :
    operation.Learns frame (world.serve moments operation).1 ∧
      (world.serve moments operation).2.records = world.records ∧
      (world.serve moments operation).2.drawn =
        operation.draws (world.serve moments operation).1 ++ world.drawn := by
  cases operation with
  | store call =>
    simp only [World.serve, World.answer, World.callStore]
    cases (moments world.asked).fault with
    | some failure => exact ⟨trivial, rfl, rfl⟩
    | none =>
      refine ⟨⟨world.records, current, rfl⟩, ?_, rfl⟩
      cases call with
      | saveDefinition _ | transition _ _ _ | saveInstance _ | saveTask _ | commit _ =>
        exact inquiry.elim
      | _ => rfl
  | acquire _ | leave _ | release _ | notify _ => exact inquiry.elim
  | _ => exact ⟨trivial, rfl, rfl⟩

end Request

def Program.commits? {α : Type} : Program α → Option ChangeSet
  | .done _ => none
  | .request operation _ => operation.commits?

theorem define_aside (definition : Definition) :
    (Engine.define definition).run.Uses Request.IsAside := by
  have plain : Operation.Plain (Engine.prepareDraft definition) := prepareDraft_plain definition
  rw [Engine.define_eq]
  refine (plain.mono fun _ plain => plain.aside).bind fun prepared => ?_
  cases prepared with
  | error failure => trivial
  | ok draft =>
    refine ⟨trivial, fun answer => ?_⟩
    cases answer with
    | error failure => trivial
    | ok _ => trivial

theorem activate_aside (id : Uuid) : (Engine.activate id).run.Uses Request.IsAside := by
  have plain : Operation.Plain (Engine.checkDraft id) := checkDraft_plain id
  rw [Engine.activate_eq]
  refine (plain.mono fun _ plain => plain.aside).bind fun checked => ?_
  cases checked with
  | error failure => trivial
  | ok _ =>
    refine ⟨trivial, fun answer => ?_⟩
    cases answer with
    | error failure => trivial
    | ok switched => cases switched <;> trivial

/-- Why what a call gathers stays so: it is nothing about instances and tasks, or the call holds the
lock of its instance. -/
inductive Relies {α : Type} (call : EngineCall α) (holds : Uuid → Prop) : (MemoryStore → Prop) → Prop where
  | nothing (other : call.task? = none) : Relies call holds fun _ => True
  | locked {base : MemoryStore} {id target : Uuid} (same : call.task? = some id)
      (houses : Houses base id target) (held : holds target) :
      Relies call holds (Shares id target base)

theorem Relies.mono {α : Type} {call : EngineCall α} {holds later : Uuid → Prop}
    {frame : MemoryStore → Prop} (relies : Relies call holds frame)
    (kept : ∀ target, holds target → later target) : Relies call later frame := by
  cases relies with
  | nothing other => exact .nothing other
  | locked same houses held => exact .locked same houses (kept _ held)

theorem Relies.held {α : Type} {call : EngineCall α} {holds : Uuid → Prop}
    {frame : MemoryStore → Prop} {records : MemoryStore} (relies : Relies call holds frame)
    (current : frame records) {id target : Uuid} (completes : call.task? = some id)
    (home : Houses records id target) : holds target := by
  cases relies with
  | nothing other => exact nomatch other.symm.trans completes
  | @locked base own place picked known held =>
    cases picked.symm.trans completes
    obtain ⟨first, found, located⟩ := known
    have here : Houses records id place := ⟨first, current.task?.trans found, located⟩
    exact here.unique home ▸ held

/-- A call that only has closing requests left, if any, until it returns what a completion answers. -/
def Client.Reports {attempt : Attempt} (client : Client attempt) (outcome : TaskCompletion) : Prop :=
  ∃ value, client.rest.Closes (.ok value) ∧ attempt.call.outcome? value = some outcome

/-- How far a call has come, whatever runs beside it. It may never write an instance or a task; be
about to look for its task; want the lock of its instance; gather what it needs to know; or have only
closing requests left. -/
inductive Course {attempt : Attempt} (client : Client attempt) (records : MemoryStore)
    (holds : Uuid → Prop) (unwritten : Prop) : Prop where
  | aside (other : ∀ value, attempt.call.outcome? value = none)
      (uses : client.rest.Uses Request.IsAside) : Course client records holds unwritten
  | opening (early : unwritten) (begun : client = .begin attempt)
      (completes : attempt.call.task?.isSome = true) : Course client records holds unwritten
  | wanting {id target : Uuid} {program : Program (Except Failure ChangeSet)}
      {write : Except Failure ChangeSet → Program (Except Failure attempt.Answer)}
      (early : unwritten) (same : attempt.call.task? = some id) (undrawn : client.drawn = [])
      (houses : Houses records id target)
      (rest : client.rest = .request (.acquire target) fun _ => program.bind write)
      (gathers : ∀ base, Houses base id target → program.Gathers (Shares id target base)
        (Readies attempt.call write (Shares id target base)) []) :
      Course client records holds unwritten
  | gathering {frame : MemoryStore → Prop} {program : Program (Except Failure ChangeSet)}
      {write : Except Failure ChangeSet → Program (Except Failure attempt.Answer)}
      (early : unwritten) (relies : Relies attempt.call holds frame) (current : frame records)
      (rest : client.rest = program.bind write)
      (gathers : program.Gathers frame (Readies attempt.call write frame) client.drawn) :
      Course client records holds unwritten
  | ended {result : Except Failure attempt.Answer} (closes : client.rest.Closes result)
      (wrote : ∀ value, result = .ok value → ¬ unwritten) : Course client records holds unwritten

/-- What a call leads to with the answer to its request: it goes on and leaves instances and tasks
alone, or it writes its changes and is about to return. -/
inductive Moved {attempt : Attempt} (client : Client attempt) (records : MemoryStore)
    (holds : Uuid → Prop) (unwritten : Prop) {β : Type} (operation : Request β)
    (after : Client attempt) (view : World) : Prop where
  | quiet (silent : operation.writes (attempt.moments client.asked) = false)
      (instances : view.records.instances = records.instances)
      (tasks : view.records.tasks = records.tasks)
      (course : ∀ later : Uuid → Prop, (¬ operation.IsClosing → ∀ target, holds target → later target) →
        Course after view.records later unwritten)
      (reports : ∀ outcome, after.Reports outcome → client.Reports outcome)
  | writes {frame : MemoryStore → Prop} {definitions : List Definition} {changes : ChangeSet}
      {value : attempt.Answer} (early : unwritten)
      (loud : operation.writes (attempt.moments client.asked) = true)
      (relies : Relies attempt.call holds frame) (current : frame records)
      (writes : Writes { records with definitions } attempt.call value client.drawn changes)
      (committed : view.records = records.commit changes) (undrawn : after.drawn = client.drawn)
      (closes : after.rest.Closes (.ok value))

namespace Course

variable {attempt : Attempt} {client : Client attempt} {records : MemoryStore}
  {holds : Uuid → Prop} {unwritten : Prop} {β : Type} {operation : Request β}
  {next : β → Program (Except Failure attempt.Answer)}

theorem begin (attempt : Attempt) (records : MemoryStore) (early : unwritten) :
    Course (.begin attempt) records holds unwritten := by
  obtain ⟨call, moments⟩ := attempt
  have aside {α : Type} {call : EngineCall α} (other : ∀ value, call.outcome? value = none)
      (uses : call.operation.run.Uses Request.IsAside) :
      Course (.begin ⟨call, moments⟩) records holds unwritten := .aside other uses
  cases call with
  | define definition => exact aside (fun _ => rfl) (define_aside definition)
  | activate id => exact aside (fun _ => rfl) (activate_aside id)
  | start id data startedBy =>
    have rest := Engine.start_run id data startedBy
    exact .gathering early (.nothing rfl) trivial rest (prepareStart_gathers id data startedBy)
  | complete id data principal => exact .opening early rfl rfl
  | status id =>
    exact aside (fun _ => rfl) (Program.Uses.mono (status_plain id) fun _ plain => plain.aside)
  | instancesFor principal =>
    exact aside (fun _ => rfl)
      (Program.Uses.mono (instancesFor_plain principal) fun _ plain => plain.aside)
  | tasksFor principal filter =>
    refine aside (fun _ => rfl) ⟨trivial, fun answer => ?_⟩
    cases answer with
    | error failure => trivial
    | ok tasks => trivial

theorem failed {failure : Failure} (closes : client.rest.Closes (.error failure)) :
    Course client records holds unwritten :=
  .ended closes fun _ impossible => nomatch impossible

theorem not_reports (course : Course client records holds unwritten) (early : unwritten)
    (outcome : TaskCompletion) : ¬ client.Reports outcome := by
  intro reports
  obtain ⟨value, closes, answers⟩ := reports
  cases course with
  | aside other _ => cases (other value).symm.trans answers
  | opening _ begun completes =>
    subst begun
    obtain ⟨call, moments⟩ := attempt
    cases call with
    | complete id data principal =>
      obtain ⟨_, begins, _⟩ := Engine.complete_run id data principal
      have rest : (Client.begin ⟨.complete id data principal, moments⟩).rest =
        .request (.store (.loadTask id)) _ := begins
      rw [rest] at closes
      cases closes with
      | request closing _ => exact closing
    | _ => cases completes
  | wanting _ _ _ _ rest _ =>
    rw [rest] at closes
    cases closes with
    | request closing _ => exact closing
  | @gathering frame program write _ _ _ rest gathers =>
    rw [rest] at closes
    cases gathers with
    | @done _ prepared readies =>
      cases prepared with
      | error failure => exact nomatch closes.unique readies
      | ok changes =>
        obtain ⟨_, _, _, asks, _⟩ := readies
        have commits : (write (.ok changes)).Closes (.ok value) := closes
        rw [asks] at commits
        cases commits with
        | request closing _ => exact closing
    | request inquiry _ =>
      cases closes with
      | request closing _ => exact inquiry.not_closing closing
  | ended ends wrote => exact wrote value (ends.unique closes) early

theorem moved_aside (other : ∀ value, attempt.call.outcome? value = none)
    (uses : client.rest.Uses Request.IsAside) (asks : client.rest = .request operation next)
    {answer : β} {view : World}
    (served : (client.view records).serve attempt.moments operation = (answer, view)) :
    Moved client records holds unwritten operation (client.resume (next answer) view) view := by
  rw [asks] at uses
  obtain ⟨instances, tasks⟩ := uses.1.keeps attempt.moments (client.view records)
  rw [served] at instances tasks
  refine .quiet (uses.1.writes_eq_false _) instances tasks
    (fun _ _ => .aside other (uses.2 answer)) fun outcome reports => ?_
  obtain ⟨value, _, answers⟩ := reports
  cases (other value).symm.trans answers

theorem moved_ended {result : Except Failure attempt.Answer} (closes : client.rest.Closes result)
    (wrote : ∀ value, result = .ok value → ¬ unwritten) (asks : client.rest = .request operation next)
    {answer : β} {view : World}
    (served : (client.view records).serve attempt.moments operation = (answer, view)) :
    Moved client records holds unwritten operation (client.resume (next answer) view) view := by
  have before := closes
  rw [asks] at closes
  cases closes with
  | request closing resume =>
    have reports : ∀ outcome, (client.resume (next answer) view).Reports outcome →
        client.Reports outcome := by
      intro outcome reports
      obtain ⟨value, ends, answers⟩ := reports
      cases (resume answer).unique ends
      exact ⟨value, before, answers⟩
    cases operation with
    | leave _ | release _ | notify _ =>
      cases served
      exact .quiet rfl rfl rfl (fun _ _ => .ended (resume _) wrote) reports
    | _ => exact closing.elim

theorem moved_early {after : Client attempt} {view : World} (early : unwritten)
    (silent : operation.writes (attempt.moments client.asked) = false)
    (same : view.records = records)
    (course : ∀ later : Uuid → Prop, (¬ operation.IsClosing → ∀ target, holds target → later target) →
      Course after view.records later unwritten) :
    Moved client records holds unwritten operation after view := by
  refine .quiet silent (congrArg (·.instances) same) (congrArg (·.tasks) same) course ?_
  intro outcome reports
  exact absurd reports ((course (fun _ => True) fun _ _ _ => trivial).not_reports early outcome)

theorem moved_opening (early : unwritten) (begun : client = .begin attempt)
    (completes : attempt.call.task?.isSome = true) (asks : client.rest = .request operation next)
    {answer : β} {view : World}
    (served : (client.view records).serve attempt.moments operation = (answer, view)) :
    Moved client records holds unwritten operation (client.resume (next answer) view) view := by
  subst begun
  obtain ⟨call, moments⟩ := attempt
  cases call with
  | complete id data principal =>
    obtain ⟨silent, rfl, opened⟩ := completion_opens asks served
    rcases opened with ⟨failure, rest⟩ | ⟨_, task, stored, rest⟩
    · have ended : (next answer).Closes (.error failure) := by
        rw [rest]
        exact .done
      exact moved_early early silent rfl fun _ _ => .failed ended
    · refine moved_early early silent rfl fun later _ => ?_
      exact .wanting early rfl rfl ⟨task, stored, rfl⟩ rest fun base houses =>
        prepare_gathers houses data principal
  | _ => cases completes

/-- A call that has gathered what it needs to know fails or writes its changes. -/
theorem moved_commit {frame : MemoryStore → Prop} {changes : ChangeSet}
    {write : Except Failure ChangeSet → Program (Except Failure attempt.Answer)}
    (early : unwritten) (relies : Relies attempt.call holds frame) (current : frame records)
    (rest : client.rest = write (.ok changes))
    (readies : Readies attempt.call write frame client.drawn (.ok changes))
    (asks : client.rest = .request operation next) {answer : β} {view : World}
    (served : (client.view records).serve attempt.moments operation = (answer, view)) :
    Moved client records holds unwritten operation (client.resume (next answer) view) view := by
  obtain ⟨last, value, definitions, commits, failed, closes, writes⟩ := readies
  cases (rest.trans commits).symm.trans asks
  simp only [World.serve, World.answer, World.callStore, Client.view] at served
  cases fault : (attempt.moments client.asked).fault with
  | some failure =>
    simp only [fault] at served
    cases served
    have silent : (Request.store (.commit changes)).writes (attempt.moments client.asked) = false := by
      simp [Request.writes, fault]
    exact moved_early early silent rfl fun _ _ => .failed (failed failure)
  | none =>
    simp only [fault] at served
    cases served
    have loud : (Request.store (.commit changes)).writes (attempt.moments client.asked) = true := by
      simp [Request.writes, fault]
    exact .writes early loud relies current (writes records current) rfl rfl closes

theorem moved (course : Course client records holds unwritten)
    (asks : client.rest = .request operation next)
    (ready : ∀ target, operation.wants? = some target → holds target) {answer : β} {view : World}
    (served : (client.view records).serve attempt.moments operation = (answer, view)) :
    Moved client records holds unwritten operation (client.resume (next answer) view) view := by
  cases course with
  | aside other uses => exact moved_aside other uses asks served
  | opening early begun completes => exact moved_opening early begun completes asks served
  | ended closes wrote => exact moved_ended closes wrote asks served
  | @wanting id target program write early same undrawn houses rest gathers =>
    cases rest.symm.trans asks
    cases served
    refine moved_early early rfl rfl fun later kept => ?_
    have held : later target := kept (fun closing => closing) target (ready target rfl)
    refine .gathering early (.locked same houses held) (.refl id target records) rfl ?_
    exact undrawn.symm ▸ gathers records houses
  | @gathering frame program write early relies current rest gathers =>
    cases gathers with
    | @done _ prepared readies =>
      cases prepared with
      | error failure =>
        have closes : client.rest.Closes (.error failure) := by
          rw [rest]
          exact readies
        exact moved_ended closes (fun _ impossible => nomatch impossible) asks served
      | ok changes => exact moved_commit early relies current rest readies asks served
    | @request _ γ inquiry rests is resume =>
      have here : client.rest = .request inquiry fun answer => (rests answer).bind write := rest
      cases here.symm.trans asks
      obtain ⟨learns, same, drawn⟩ := is.served frame attempt.moments (client.view records) current
      rw [served] at learns same drawn
      refine moved_early early (is.writes_eq_false _) same fun later kept => ?_
      refine .gathering early (relies.mono (kept is.not_closing)) (same ▸ current) rfl ?_
      change Program.Gathers _ _ view.drawn _
      rw [drawn]
      exact resume answer learns

theorem mono (course : Course client records holds unwritten) {later : Uuid → Prop} {still : Prop}
    (held : ∀ target, holds target → later target) (same : unwritten ↔ still) :
    Course client records later still := by
  cases course with
  | aside other uses => exact .aside other uses
  | opening early begun completes => exact .opening (same.mp early) begun completes
  | wanting early picked undrawn houses rest gathers =>
    exact .wanting (same.mp early) picked undrawn houses rest gathers
  | gathering early relies current rest gathers =>
    exact .gathering (same.mp early) (relies.mono held) current rest gathers
  | ended closes wrote => exact .ended closes fun value ok late => wrote value ok (same.mpr late)

theorem of_eq (course : Course client records holds unwritten) {after : MemoryStore}
    (instances : after.instances = records.instances) (tasks : after.tasks = records.tasks) :
    Course client after holds unwritten := by
  cases course with
  | aside other uses => exact .aside other uses
  | opening early begun completes => exact .opening early begun completes
  | wanting early same undrawn houses rest gathers =>
    refine .wanting early same undrawn ?_ rest gathers
    rw [Houses, MemoryStore.task?, tasks]
    exact houses
  | gathering early relies current rest gathers =>
    cases relies with
    | nothing other => exact .gathering early (.nothing other) trivial rest gathers
    | locked same houses held =>
      refine .gathering early (.locked same houses held) ⟨?_, ?_, ?_⟩ rest gathers
      · rw [MemoryStore.instance?, instances]
        exact current.instance?
      · rw [MemoryStore.tasksOf, tasks]
        exact current.tasksOf
      · rw [MemoryStore.task?, tasks]
        exact current.task?
  | ended closes wrote => exact .ended closes wrote

/-- A call keeps its place when another one writes a different instance than the one whose lock it
holds. -/
theorem commit (course : Course client records holds unwritten) {changes : ChangeSet}
    (confined : records.Confined changes)
    (apart : ∀ id target, Houses records id target → holds target → changes.target.id ≠ target) :
    Course client (records.commit changes) holds unwritten := by
  cases course with
  | aside other uses => exact .aside other uses
  | opening early begun completes => exact .opening early begun completes
  | wanting early same undrawn houses rest gathers =>
    exact .wanting early same undrawn (houses.commit confined) rest gathers
  | gathering early relies current rest gathers =>
    cases relies with
    | nothing other => exact .gathering early (.nothing other) trivial rest gathers
    | @locked base id target same houses held =>
      have now : Houses records id target := by
        obtain ⟨task, found, home⟩ := houses
        exact ⟨task, current.task?.trans found, home⟩
      refine .gathering early (.locked same houses held) ?_ rest gathers
      exact current.commit confined now (apart id target now held)
  | ended closes wrote => exact .ended closes wrote

/-- A call that is about to write has gathered what it writes. -/
theorem commits (course : Course client records holds unwritten) {changes : ChangeSet}
    {last : Except Failure Unit → Program (Except Failure attempt.Answer)}
    (asks : client.rest = .request (.store (.commit changes)) last) :
    unwritten ∧ ∃ frame definitions value, Relies attempt.call holds frame ∧ frame records ∧
      Writes { records with definitions } attempt.call value client.drawn changes := by
  have open' {result : Except Failure attempt.Answer} : ¬ client.rest.Closes result := by
    intro closes
    rw [asks] at closes
    cases closes with
    | request closing _ => exact closing
  cases course with
  | aside _ uses =>
    rw [asks] at uses
    exact uses.1.elim
  | opening _ begun completes =>
    subst begun
    obtain ⟨call, moments⟩ := attempt
    cases call with
    | complete id data principal =>
      obtain ⟨_, begins, _⟩ := Engine.complete_run id data principal
      have rest : (Client.begin ⟨.complete id data principal, moments⟩).rest =
        .request (.store (.loadTask id)) _ := begins
      cases congrArg Program.commits? (rest.symm.trans asks)
    | _ => cases completes
  | wanting _ _ _ _ rest _ => cases congrArg Program.commits? (rest.symm.trans asks)
  | @gathering frame program write early relies current rest gathers =>
    cases gathers with
    | @done _ prepared readies =>
      cases prepared with
      | error failure =>
        have closes : client.rest.Closes (.error failure) := by
          rw [rest]
          exact readies
        exact (open' closes).elim
      | ok prepared =>
        obtain ⟨_, value, definitions, commits, _, _, writes⟩ := readies
        cases (rest.trans commits).symm.trans asks
        exact ⟨early, frame, definitions, value, relies, current, writes records current⟩
    | @request _ _ operation rests inquiry _ =>
      have here : client.rest = .request operation fun answer => (rests answer).bind write := rest
      cases here.symm.trans asks
      exact inquiry.elim
  | ended closes _ => exact (open' closes).elim

end Course

end Workflow
