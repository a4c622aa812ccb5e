import Workflow.Proofs.Footprint
import Workflow.Proofs.Soundness

/-! How far a call that runs beside others has come. Until it writes, running it from the start over
the records as they are comes to the same as letting it go on; a completion that prepares its
changes holds the lock of its instance, which is what keeps its reads up to date. -/

namespace Workflow

namespace World

def onto (world : World) (drawn : List Uuid) (sent : List TaskAssignment) : World :=
  { world with drawn := world.drawn ++ drawn, sent := sent ++ world.sent }

theorem serve_onto {α : Type} (moments : Moments) (world : World) (operation : Request α)
    (drawn : List Uuid) (sent : List TaskAssignment) :
    (world.onto drawn sent).serve moments operation =
      ((world.serve moments operation).1, (world.serve moments operation).2.onto drawn sent) := by
  cases operation with
  | store call =>
    simp only [serve, answer, callStore, onto]
    split <;> rfl
  | notify assignments => simp only [serve, answer, onto, List.append_assoc]
  | _ => rfl

/-- What was drawn and sent before does not matter to a program. -/
theorem run_onto {α : Type} (moments : Moments) (program : Program α) (world : World)
    (drawn : List Uuid) (sent : List TaskAssignment) :
    run moments program (world.onto drawn sent) =
      ((run moments program world).1, (run moments program world).2.onto drawn sent) := by
  induction program generalizing world with
  | done result => rfl
  | request operation next ih => rw [run, serve_onto, ih, run]

theorem run_closes {α : Type} {moments : Moments} {program : Program α} {result : α} {world : World}
    (closes : program.Closes result) :
    (run moments program world).1 = result ∧
      (run moments program world).2.records = world.records ∧
      (run moments program world).2.drawn = world.drawn := by
  induction closes generalizing world with
  | done => exact ⟨rfl, rfl, rfl⟩
  | @request β operation next closing _ ih =>
    obtain ⟨same, records, drawn⟩ :=
      @ih (world.serve moments operation).1 (world.serve moments operation).2
    cases operation with
    | leave _ | release _ | notify _ => exact ⟨same, records, drawn⟩
    | _ => exact closing.elim

end World

def Houses (records : MemoryStore) (id target : Uuid) : Prop :=
  ∃ task, records.task? id = some task ∧ task.instanceId = target

def EngineCall.task? {α : Type} : EngineCall α → Option Uuid
  | complete task .. => some task
  | _ => none

section Opening

variable {records : MemoryStore} {id : Uuid} {data : Json.Members} {principal : String}
  {moments : Moments}

/-- With the answer to its first request a completion fails, or it has found its task and wants the
lock of its instance. -/
theorem completion_opens {β : Type} {operation : Request β}
    {next : β → Program (Except Failure TaskCompletion)}
    (asks : (Engine.complete id data principal).run = .request operation next) {answer : β}
    {view : World} (served : ({ records } : World).serve moments operation = (answer, view)) :
    operation.writes (moments 0) = false ∧ view = { records, asked := 1 } ∧
      ((∃ failure, next answer = .done (.error failure)) ∨
        (moments 0).fault = none ∧ ∃ task, records.task? id = some task ∧
          next answer = .request (.acquire task.instanceId) fun _ =>
            (Engine.prepare id data principal).run.bind (Engine.settle task.instanceId)) := by
  obtain ⟨first, begins, failed, missing, found⟩ := Engine.complete_run id data principal
  rw [begins] at asks
  cases asks
  simp only [World.serve, World.answer, World.callStore] at served
  cases fault : (moments 0).fault with
  | some failure =>
    rw [fault] at served
    cases served
    exact ⟨rfl, rfl, Or.inl ⟨failure, failed failure⟩⟩
  | none =>
    rw [fault] at served
    cases served
    refine ⟨rfl, rfl, ?_⟩
    simp only [MemoryStore.answer]
    cases stored : records.task? id with
    | none => exact Or.inl ⟨_, missing⟩
    | some task => exact Or.inr ⟨trivial, task, rfl, found task⟩

/-- A completion that finds its task comes to the same as what it does from the lock on. -/
theorem completion_runs (healthy : (moments 0).fault = none) {target : Uuid}
    (houses : Houses records id target) :
    World.run moments (Engine.complete id data principal).run { records } =
      World.run moments
        (.request (.acquire target) fun _ =>
          (Engine.prepare id data principal).run.bind (Engine.settle target))
        { records, asked := 1 } := by
  obtain ⟨task, known, rfl⟩ := houses
  obtain ⟨first, begins, _, _, found⟩ := Engine.complete_run id data principal
  have told : ({ records } : World).serve moments (.store (.loadTask id)) =
      (.ok (some task), { records, asked := 1 }) := by
    simp only [World.serve, World.answer, World.callStore, healthy, MemoryStore.answer, known]
  rw [begins, World.run, told, found]

end Opening

/-- Why the reads of a call stay up to date while it prepares its changes: it reads definitions
only, or it holds the lock of the instance that it reads. -/
inductive Guards {α : Type} (call : EngineCall α) (holds : Uuid → Prop) :
    (MemoryStore → Prop) → Prop where
  | definitions (base : MemoryStore) (other : call.task? = none) :
      Guards call holds fun records => records.definitions = base.definitions
  | locked {base : MemoryStore} {id target : Uuid} (same : call.task? = some id)
      (houses : Houses base id target) (held : holds target) :
      Guards call holds (Agrees id target base)

/-- How far a call has come. It may be about to begin; have found its task and want the lock; prepare
its changes; or have nothing to do any more that matters, with a result that is its fate. -/
inductive Stage {attempt : Attempt} (client : Client attempt) (records : MemoryStore)
    (holds : Uuid → Prop) (unwritten : Prop) (fate : Except Failure attempt.Answer → Prop) :
    Prop where
  | fresh (early : unwritten) (begun : client = .begin attempt)
      (completes : attempt.call.task?.isSome = true) :
      Stage client records holds unwritten fate
  | located {id target : Uuid} {prepare : Program (Except Failure ChangeSet)}
      {write : Except Failure ChangeSet → Program (Except Failure attempt.Answer)}
      (early : unwritten) (same : attempt.call.task? = some id)
      (rest : client.rest = .request (.acquire target) fun _ => prepare.bind write)
      (houses : Houses records id target)
      (steady : ∀ base, Houses base id target → prepare.Steady (Agrees id target base) fun _ => True)
      (commits : Program.Commits write)
      (runs : ∀ records, Houses records id target →
        World.run attempt.moments attempt.call.operation.run { records } =
          World.run attempt.moments client.rest (client.view records)) :
      Stage client records holds unwritten fate
  | preparing {frame : MemoryStore → Prop} {prepare : Program (Except Failure ChangeSet)}
      {write : Except Failure ChangeSet → Program (Except Failure attempt.Answer)}
      (early : unwritten) (guards : Guards attempt.call holds frame)
      (rest : client.rest = prepare.bind write) (current : frame records)
      (steady : prepare.Steady frame fun _ => True) (commits : Program.Commits write)
      (runs : ∀ records, frame records →
        World.run attempt.moments attempt.call.operation.run { records } =
          World.run attempt.moments client.rest (client.view records)) :
      Stage client records holds unwritten fate
  | ended {result : Except Failure attempt.Answer} (closes : client.rest.Closes result)
      (fated : fate result) : Stage client records holds unwritten fate

variable {attempt : Attempt} {client : Client attempt} {records : MemoryStore}
  {holds : Uuid → Prop} {unwritten : Prop} {fate : Except Failure attempt.Answer → Prop}

theorem serve_steady (client : Client attempt) {β : Type} {frame : MemoryStore → Prop} {operation : Request β}
    (steady : operation.IsSteady frame) (current : frame records) (moments : Moments) :
    operation.Tells frame ((client.view records).serve moments operation).1 ∧
      ∀ others, frame others → ∀ rest, (client.view others).serve moments operation =
        (((client.view records).serve moments operation).1,
          (client.resume rest ((client.view records).serve moments operation).2).view others) := by
  obtain ⟨answer, after, tells, served⟩ :=
    @World.serve_holding moments frame (client.view records) _ _ steady
  have here : (client.view records).serve moments operation = (answer, after.holding records) :=
    served records current
  rw [here]
  exact ⟨tells, fun others member _ => served others member⟩

/-- What a call leads to with the answer to its request: a later stage, over the same records, or the
end of its changes, which are those of the call run alone. -/
inductive Answered (client : Client attempt) (records : MemoryStore) (holds : Uuid → Prop)
    (unwritten : Prop) (fate : Except Failure attempt.Answer → Prop) {β : Type}
    (operation : Request β) (after : Client attempt) (view : World) : Prop where
  | moves (quiet : operation.writes (attempt.moments client.asked) = false)
      (same : view.records = records)
      (stage : ∀ later : Uuid → Prop, (¬ operation.IsClosing → ∀ target, holds target → later target) →
        Stage after records later unwritten fate)
  | writes {frame : MemoryStore → Prop} {value : attempt.Answer} (early : unwritten)
      (writes : operation.writes (attempt.moments client.asked) = true)
      (guards : Guards attempt.call holds frame) (current : frame records)
      (closes : after.rest.Closes (.ok value))
      (result : (World.run attempt.moments attempt.call.operation.run { records }).1 = .ok value)
      (written : (World.run attempt.moments attempt.call.operation.run { records }).2.records =
        view.records)
      (drawn : (World.run attempt.moments attempt.call.operation.run { records }).2.drawn =
        after.drawn)

theorem Guards.mono {α : Type} {call : EngineCall α} {holds later : Uuid → Prop}
    {frame : MemoryStore → Prop} (guards : Guards call holds frame)
    (kept : ∀ target, holds target → later target) : Guards call later frame := by
  cases guards with
  | definitions base other => exact .definitions base other
  | locked same houses held => exact .locked same houses (kept _ held)

theorem Request.IsSteady.not_closing {β : Type} {frame : MemoryStore → Prop}
    {operation : Request β} (steady : operation.IsSteady frame) : ¬ operation.IsClosing := by
  intro closing
  cases operation with
  | leave _ | release _ | notify _ => exact steady
  | _ => exact closing

theorem Request.IsSteady.writes_eq_false {β : Type} {frame : MemoryStore → Prop}
    {operation : Request β} (steady : operation.IsSteady frame) (moment : Moment) :
    operation.writes moment = false := by
  cases operation with
  | store call =>
    cases call with
    | commit changes =>
      have none : upsert (·.id) changes.target [] = [] :=
        (MemoryStore.commit_instances changes).symm.trans (congrArg (·.instances) (steady.1 {}))
      cases none
    | _ => rfl
  | _ => rfl

namespace Stage

variable {β : Type} {operation : Request β} {next : β → Program (Except Failure attempt.Answer)}

theorem answered_ended {result : Except Failure attempt.Answer}
    (closes : client.rest.Closes result) (fated : fate result)
    (asks : client.rest = .request operation next) {view : World} {answer : β}
    (served : (client.view records).serve attempt.moments operation = (answer, view)) :
    Answered client records holds unwritten fate operation (client.resume (next answer) view)
      view := by
  rw [asks] at closes
  cases closes with
  | request closing resume =>
    have ended : ∀ later : Uuid → Prop,
        Stage (client.resume (next answer) view) records later unwritten fate :=
      fun _ => .ended (resume answer) fated
    cases operation with
    | leave _ | release _ | notify _ =>
      cases served
      exact .moves rfl rfl fun later _ => ended later
    | _ => exact closing.elim

theorem answered_fresh (early : unwritten) (begun : client = .begin attempt)
    (completes : attempt.call.task?.isSome = true)
    (fails : ∀ failure, fate (.error failure)) (asks : client.rest = .request operation next)
    {view : World} {answer : β}
    (served : (client.view records).serve attempt.moments operation = (answer, view)) :
    Answered client records holds unwritten fate operation (client.resume (next answer) view)
      view := by
  subst begun
  obtain ⟨call, moments⟩ := attempt
  cases call with
  | complete id data principal =>
    obtain ⟨silent, rfl, opened⟩ := completion_opens asks served
    rcases opened with ⟨failure, rest⟩ | ⟨healthy, task, stored, rest⟩
    · refine .moves silent rfl fun later _ => .ended ?_ (fails failure)
      rw [Client.resume, rest]
      exact .done
    · refine .moves silent rfl fun later _ => ?_
      have steady : ∀ base, Houses base id task.instanceId →
          (Engine.prepare id data principal).run.Steady (Agrees id task.instanceId base)
            fun _ => True := by
        intro base houses
        obtain ⟨other, known, home⟩ := houses
        exact (prepare_steady known home data principal).mono fun _ _ => trivial
      refine .located early rfl rest ⟨task, stored, rfl⟩ steady
        (Engine.settle_commits task.instanceId) ?_
      intro others houses
      rw [Client.resume, rest]
      exact completion_runs healthy houses
  | _ => cases completes

theorem answered_located {id target : Uuid} {prepare : Program (Except Failure ChangeSet)}
    {write : Except Failure ChangeSet → Program (Except Failure attempt.Answer)}
    (early : unwritten) (same : attempt.call.task? = some id)
    (rest : client.rest = .request (.acquire target) fun _ => prepare.bind write)
    (houses : Houses records id target)
    (steady : ∀ base, Houses base id target → prepare.Steady (Agrees id target base) fun _ => True)
    (commits : Program.Commits write)
    (runs : ∀ records, Houses records id target →
      World.run attempt.moments attempt.call.operation.run { records } =
        World.run attempt.moments client.rest (client.view records))
    (held : holds target) :
    Answered client records holds unwritten fate (.acquire target)
      (client.resume (prepare.bind write) { client.view records with asked := client.asked + 1 })
      { client.view records with asked := client.asked + 1 } := by
  refine .moves rfl rfl fun later kept => ?_
  have still : later target := kept (fun closing => closing) target held
  refine .preparing early (.locked same houses still) rfl (.refl id target records)
    (steady records houses) commits ?_
  intro others agrees
  have moved : Houses others id target := by
    obtain ⟨task, found, located⟩ := houses
    exact ⟨task, agrees.task?.trans found, located⟩
  rw [runs others moved, rest]
  rfl

/-- The changes of a call are written, as they are when it is run alone, or the call fails. -/
theorem answered_commit {frame : MemoryStore → Prop} {changes : ChangeSet}
    {last : Except Failure Unit → Program (Except Failure attempt.Answer)} {value : attempt.Answer}
    (early : unwritten) (guards : Guards attempt.call holds frame)
    (rest : client.rest = .request (.store (.commit changes)) last) (current : frame records)
    (failed : ∀ failure, (last (.error failure)).Closes (.error failure))
    (closes : (last (.ok ())).Closes (.ok value))
    (runs : World.run attempt.moments attempt.call.operation.run { records } =
      World.run attempt.moments client.rest (client.view records))
    (fails : ∀ failure, fate (.error failure)) {answer : Except Failure Unit} {view : World}
    (served : (client.view records).serve attempt.moments (.store (.commit changes)) =
      (answer, view)) :
    Answered client records holds unwritten fate (.store (.commit changes))
      (client.resume (last answer) view) view := by
  have told := served
  simp only [World.serve, World.answer, World.callStore, Client.view] at told
  cases fault : (attempt.moments client.asked).fault with
  | some failure =>
    simp only [fault] at told
    cases told
    have quiet : (Request.store (.commit changes)).writes (attempt.moments client.asked) = false := by
      simp [Request.writes, fault]
    exact .moves quiet rfl fun later _ => .ended (failed failure) (fails failure)
  | none =>
    simp only [fault] at told
    cases told
    have writes : (Request.store (.commit changes)).writes (attempt.moments client.asked) = true := by
      simp [Request.writes, fault]
    rw [rest, World.run, served] at runs
    obtain ⟨result, written, drawn⟩ := World.run_closes closes
    rw [← runs] at result written drawn
    exact .writes early writes guards current closes result written drawn

theorem answered_steady {γ : Type} {frame : MemoryStore → Prop} {steady : Request γ}
    {rests : γ → Program (Except Failure ChangeSet)}
    {write : Except Failure ChangeSet → Program (Except Failure attempt.Answer)}
    (early : unwritten) (guards : Guards attempt.call holds frame)
    (rest : client.rest = .request steady fun answer => (rests answer).bind write)
    (current : frame records) (is : steady.IsSteady frame)
    (resume : ∀ answer, steady.Tells frame answer → (rests answer).Steady frame fun _ => True)
    (commits : Program.Commits write)
    (runs : ∀ records, frame records →
      World.run attempt.moments attempt.call.operation.run { records } =
        World.run attempt.moments client.rest (client.view records))
    {answer : γ} {view : World}
    (served : (client.view records).serve attempt.moments steady = (answer, view)) :
    Answered client records holds unwritten fate steady
      (client.resume ((rests answer).bind write) view) view := by
  obtain ⟨tells, same⟩ := serve_steady client is current attempt.moments
  rw [served] at tells same
  let later := (rests answer).bind write
  have kept := congrArg Prod.snd (served.symm.trans (same records current later))
  refine .moves (is.writes_eq_false _) (congrArg World.records kept) fun locks held => ?_
  refine .preparing early (guards.mono (held is.not_closing)) rfl current (resume answer tells)
    commits ?_
  intro others member
  rw [runs others member, rest, World.run, same others member later]
  rfl

theorem answered (stage : Stage client records holds unwritten fate)
    (fails : unwritten → ∀ failure, fate (.error failure))
    (asks : client.rest = .request operation next)
    (ready : ∀ target, operation.wants? = some target → holds target) {view : World} {answer : β}
    (served : (client.view records).serve attempt.moments operation = (answer, view)) :
    Answered client records holds unwritten fate operation (client.resume (next answer) view)
      view := by
  cases stage with
  | fresh early begun completes =>
    exact answered_fresh early begun completes (fails early) asks served
  | @located id target prepare write early same rest houses steady commits runs =>
    cases rest.symm.trans asks
    cases served
    exact answered_located early same rest houses steady commits runs (ready target rfl)
  | ended closes fated => exact answered_ended closes fated asks served
  | @preparing frame prepare write early guards rest current steady commits runs =>
    cases steady with
    | @done prepared _ =>
      cases prepared with
      | error failure =>
        have closes : client.rest.Closes (.error failure) := by
          rw [rest]
          exact commits.failed failure
        exact answered_ended closes (fails early failure) asks served
      | ok changes =>
        obtain ⟨last, same, failed, value, closes⟩ := commits.commits changes
        have rest : client.rest = .request (.store (.commit changes)) last := rest.trans same
        cases rest.symm.trans asks
        exact answered_commit early guards rest current failed closes (runs records current)
          (fails early) served
    | @request γ steadyOperation rests is resume =>
      have rest : client.rest = .request steadyOperation fun answer => (rests answer).bind write :=
        rest
      cases rest.symm.trans asks
      exact answered_steady early guards rest current is resume commits runs served

theorem mono (stage : Stage client records holds unwritten fate) {later : Uuid → Prop}
    {still : Prop} {surer : Except Failure attempt.Answer → Prop}
    (held : ∀ target, holds target → later target) (early : unwritten → still)
    (fated : ∀ result, fate result → surer result) : Stage client records later still surer := by
  cases stage with
  | fresh waits begun completes => exact .fresh (early waits) begun completes
  | located waits same rest houses steady commits runs =>
    exact .located (early waits) same rest houses steady commits runs
  | preparing waits guards rest current steady commits runs =>
    exact .preparing (early waits) (guards.mono held) rest current steady commits runs
  | ended closes certain => exact .ended closes (fated _ certain)

theorem settled (stage : Stage client records holds unwritten fate) (late : ¬ unwritten) :
    ∃ result, fate result := by
  cases stage with
  | fresh early _ _ => exact absurd early late
  | located early _ _ _ _ _ _ => exact absurd early late
  | preparing early _ _ _ _ _ _ => exact absurd early late
  | ended _ fated => exact ⟨_, fated⟩

theorem fated (stage : Stage client records holds unwritten fate)
    (fails : unwritten → ∀ failure, fate (.error failure)) {result : Except Failure attempt.Answer}
    (returned : client.rest = .done result) : fate result := by
  cases stage with
  | fresh early begun completes =>
    subst begun
    obtain ⟨call, moments⟩ := attempt
    cases call with
    | complete id data principal =>
      obtain ⟨_, program, _⟩ := Engine.complete_run id data principal
      have rest : (Client.begin ⟨.complete id data principal, moments⟩).rest =
        .request (.store (.loadTask id)) _ := program
      cases rest.symm.trans returned
    | _ => cases completes
  | located _ _ rest _ _ _ _ => cases rest.symm.trans returned
  | @preparing frame prepare write early guards rest current steady commits runs =>
    rw [rest] at returned
    cases steady with
    | @done prepared _ =>
      cases prepared with
      | error failure =>
        have closes := commits.failed failure
        have last : write (.error failure) = .done result := returned
        rw [last] at closes
        cases closes
        exact fails early failure
      | ok changes =>
        obtain ⟨_, asks, _⟩ := commits.commits changes
        cases asks.symm.trans returned
    | request _ _ => cases returned
  | ended closes fated =>
    rw [returned] at closes
    cases closes
    exact fated

end Stage

theorem Houses.commit {id target : Uuid} (houses : Houses records id target)
    {changes : ChangeSet} (confined : records.Confined changes) :
    Houses (records.commit changes) id target := by
  obtain ⟨task, found, home⟩ := houses
  obtain ⟨one, later, origin⟩ := MemoryStore.task?_commit changes found
  refine ⟨one, later, ?_⟩
  rcases origin with written | same
  · rw [← MemoryStore.task?_id later] at found
    rw [confined.own one written, ← confined.was one written task found, home]
  · rw [same, home]

theorem Houses.unique {id first second : Uuid} (houses : Houses records id first)
    (also : Houses records id second) : first = second := by
  obtain ⟨task, found, rfl⟩ := houses
  obtain ⟨other, same, rfl⟩ := also
  cases found.symm.trans same
  rfl

/-- Records keep sharing a task and its instance when another instance is written. -/
theorem Shares.commit {base : MemoryStore} {id target : Uuid} (shares : Shares id target base records)
    {changes : ChangeSet} (confined : records.Confined changes) (houses : Houses records id target)
    (apart : changes.target.id ≠ target) : Shares id target base (records.commit changes) where
  instance? := by
    rw [MemoryStore.instance?_commit, if_neg apart]
    exact shares.instance?
  tasksOf := (MemoryStore.tasksOf_commit_other confined apart).trans shares.tasksOf
  task? := by
    rw [MemoryStore.task?_commit_other]
    · exact shares.task?
    · intro known
      obtain ⟨one, member, same⟩ := List.mem_map.mp known
      obtain ⟨task, found, home⟩ := houses
      rw [← same] at found
      exact apart ((confined.was one member task found).symm.trans home)

theorem Agrees.commit {base : MemoryStore} {id target : Uuid} (agrees : Agrees id target base records)
    {changes : ChangeSet} (confined : records.Confined changes) (houses : Houses records id target)
    (apart : changes.target.id ≠ target) : Agrees id target base (records.commit changes) := by
  obtain ⟨found, listed, stored⟩ := agrees.shares.commit confined houses apart
  exact ⟨(MemoryStore.commit_definitions changes).trans agrees.definitions, found, listed, stored⟩

/-- A call keeps its stage when another one writes changes to a different instance than the one
that it reads. -/
theorem Stage.commit (stage : Stage client records holds unwritten fate)
    {changes : ChangeSet} (confined : records.Confined changes)
    (apart : ∀ id target, Houses records id target → holds target → changes.target.id ≠ target) :
    Stage client (records.commit changes) holds unwritten fate := by
  cases stage with
  | fresh early begun completes => exact .fresh early begun completes
  | located early same rest houses steady commits runs =>
    exact .located early same rest (houses.commit confined) steady commits runs
  | preparing early guards rest current steady commits runs =>
    cases guards with
    | definitions base other =>
      refine .preparing early (.definitions base other) rest ?_ steady commits runs
      exact (MemoryStore.commit_definitions changes).trans current
    | @locked base id target same houses held =>
      have now : Houses records id target := by
        obtain ⟨task, found, home⟩ := houses
        exact ⟨task, current.task?.trans found, home⟩
      refine .preparing early (.locked same houses held) rest ?_ steady commits runs
      exact current.commit confined now (apart id target now held)
  | ended closes fated => exact .ended closes fated

end Workflow
