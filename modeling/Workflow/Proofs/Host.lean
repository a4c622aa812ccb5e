import Workflow.Proofs.Consultation
import Workflow.Proofs.Histories
import Workflow.Proofs.Phases
import Workflow.Store.Backend

/-! Operations over a store of either kind. What an operation meets besides the store is given by
the same moments as over records in memory, where a host does what a world does. What a service does
is what a host does at the moments that its outages, its directory and its clock make. -/

namespace Workflow

/-- A store, with what was asked, drawn and sent on the way to it. -/
structure Host where
  store : Store := .memory {}
  asked : Nat := 0
  /-- Every identifier drawn so far, the last one first. -/
  drawn : List Uuid := []
  sent : List TaskAssignment := []

theorem Operation.run_store_bind {α β : Type} (call : StoreCall β) (next : β → Operation α) :
    (Operation.store call >>= next).run = .request (.store call) fun answer => match answer with
      | .ok value => (next value).run
      | .error failure => .done (.error failure) := by
  refine congrArg (Program.request (.store call)) (funext fun answer => ?_)
  cases answer with
  | ok value => rfl
  | error failure => rfl

namespace Host

def callStore {α : Type} (moment : Moment) (host : Host) (call : StoreCall α) :
    Except Failure α × Host :=
  match moment.fault with
  | some failure => (.error failure, host)
  | none => ((host.store.answer moment.now call).1,
      { host with store := (host.store.answer moment.now call).2 })

def answer {α : Type} (moment : Moment) (host : Host) : Request α → α × Host
  | .store call => host.callStore moment call
  | .holders role => (moment.holders role, host)
  | .hasRole principal role => (moment.hasRole principal role, host)
  | .acquire _ => ((), host)
  | .leave _ => ((), host)
  | .release _ => ((), host)
  | .now => (moment.now, host)
  | .freshId => (moment.freshId, { host with drawn := moment.freshId :: host.drawn })
  | .notify assignments =>
    (assignments.map moment.delivery, { host with sent := host.sent ++ assignments })

def serve {α : Type} (moments : Moments) (host : Host) (operation : Request α) : α × Host :=
  { host with asked := host.asked + 1 }.answer (moments host.asked) operation

def run {α : Type} (moments : Moments) : Program α → Host → α × Host
  | .done result, host => (result, host)
  | .request operation next, host =>
    run moments (next (host.serve moments operation).1) (host.serve moments operation).2

def perform (host : Host) (attempt : Attempt) : Except Failure attempt.Answer × Host :=
  run attempt.moments attempt.call.operation.run { host with asked := 0 }

def after (host : Host) (attempts : List Attempt) : Host :=
  attempts.foldl (fun host attempt => (host.perform attempt).2) host

def results : Host → List Attempt → List (Σ attempt : Attempt, Except Failure attempt.Answer)
  | _, [] => []
  | host, attempt :: rest =>
    ⟨attempt, (host.perform attempt).1⟩ :: (host.perform attempt).2.results rest

def ofWorld (world : World) : Host :=
  { store := .memory world.records, asked := world.asked, drawn := world.drawn, sent := world.sent }

theorem serve_ofWorld {α : Type} (moments : Moments) (world : World) (operation : Request α) :
    (ofWorld world).serve moments operation =
      ((world.serve moments operation).1, ofWorld (world.serve moments operation).2) := by
  cases operation with
  | store call =>
    simp only [serve, answer, callStore, World.serve, World.answer, World.callStore, ofWorld]
    cases (moments world.asked).fault with
    | some failure => rfl
    | none => rfl
  | _ => rfl

theorem run_ofWorld {α : Type} (moments : Moments) (program : Program α) (world : World) :
    run moments program (ofWorld world) =
      ((World.run moments program world).1, ofWorld (World.run moments program world).2) := by
  induction program generalizing world with
  | done result => rfl
  | request operation next ih => rw [run, serve_ofWorld, ih, World.run]

theorem perform_ofWorld (world : World) (attempt : Attempt) :
    (ofWorld world).perform attempt =
      ((world.perform attempt).1, ofWorld (world.perform attempt).2) :=
  run_ofWorld attempt.moments attempt.call.operation.run { world with asked := 0 }

theorem after_ofWorld (world : World) (attempts : List Attempt) :
    (ofWorld world).after attempts = ofWorld (world.after attempts) := by
  induction attempts generalizing world with
  | nil => rfl
  | cons attempt rest ih =>
    rw [after, List.foldl_cons, perform_ofWorld, ← after, ih]
    rfl

theorem asked_serve {α : Type} {moments : Moments} (host : Host) (operation : Request α) :
    (host.serve moments operation).2.asked = host.asked + 1 := by
  cases operation with
  | store call =>
    simp only [serve, answer, callStore]
    split <;> rfl
  | _ => rfl

/-- A program only meets the moments from its first request on. -/
theorem run_congr {α : Type} {first second : Moments} (program : Program α) (host : Host)
    (same : ∀ n, host.asked ≤ n → first n = second n) :
    run first program host = run second program host := by
  induction program generalizing host with
  | done result => rfl
  | request operation next ih =>
    have now : host.serve first operation = host.serve second operation := by
      simp only [serve, same host.asked (Nat.le_refl _)]
    rw [run, run, now]
    refine ih _ _ fun n bound => same n ?_
    rw [asked_serve] at bound
    omega

variable {α β : Type} {moments : Moments} {host : Host}

/-- What was answered to an operation that succeeds and begins with a call of the store. -/
theorem run_store {call : StoreCall β} {next : β → Operation α} {value : α}
    (succeeds : (run moments (Operation.store call >>= next).run host).1 = .ok value) :
    ∃ now answer after, host.store.answer now call = (.ok answer, after) ∧
      run moments (Operation.store call >>= next).run host =
        run moments (next answer).run { host with store := after, asked := host.asked + 1 } := by
  rw [Operation.run_store_bind] at succeeds ⊢
  rw [run] at succeeds ⊢
  cases fault : (moments host.asked).fault with
  | some failure =>
    simp only [serve, Host.answer, callStore, fault, run] at succeeds
    cases succeeds
  | none =>
    refine ⟨(moments host.asked).now, ?_⟩
    simp only [serve, Host.answer, callStore, fault] at succeeds ⊢
    cases told : host.store.answer (moments host.asked).now call with
    | mk result after =>
      rw [told] at succeeds
      cases result with
      | ok answer => exact ⟨answer, after, rfl, rfl⟩
      | error failure => cases succeeds

theorem run_now {next : Timestamp → Operation α} :
    run moments (Operation.ask .now >>= next).run host =
      run moments (next (moments host.asked).now).run { host with asked := host.asked + 1 } :=
  rfl

end Host

namespace Service

open Host

def moment {α : Type} (service : Service) (operation : Request α) : Moment where
  fault :=
    match operation with
    | .store call =>
      if call.name ∈ service.outage.stalling then some .timedOut
      else if call.name ∈ service.outage.failing then some (.storeFailed call.name)
      else none
    | _ => none
  holders role := (service.await (service.directory.holders role)).1
  hasRole principal role := (service.await (service.directory.hasRole principal role)).1
  now := service.clock
  freshId := Uuid.ofNat service.nextId
  delivery := service.delivery

structure Shows (service : Service) (host : Host) : Prop where
  store : service.store = host.store
  sent : service.sent = host.sent
  fair : service.outage.losesRaces = false

variable {service : Service} {host : Host}

theorem await_shows {α : Type} (same : service.Shows host) (reply : Reply α) :
    (service.await reply).2.Shows host := by
  cases reply with
  | answered result => exact same
  | silent => exact ⟨same.store, same.sent, same.fair⟩

theorem answer_shows {α : Type} (same : service.Shows host) (operation : Request α) :
    (service.answer operation).1 = (host.answer (service.moment operation) operation).1 ∧
      (service.answer operation).2.Shows (host.answer (service.moment operation) operation).2 := by
  obtain ⟨store, sent, fair⟩ := same
  cases operation with
  | store call =>
    have kept : lose service.outage call = none := by
      cases call with
      | transition id source target => simp [lose, fair]
      | _ => rfl
    simp only [answer, callStore, Host.answer, Host.callStore, moment]
    split
    · exact ⟨rfl, store, sent, fair⟩
    split
    · exact ⟨rfl, store, sent, fair⟩
    · simp only [kept, store]
      exact ⟨trivial, rfl, sent, fair⟩
  | holders role => exact ⟨rfl, await_shows ⟨store, sent, fair⟩ _⟩
  | hasRole principal role => exact ⟨rfl, await_shows ⟨store, sent, fair⟩ _⟩
  | notify assignments =>
    have grown : service.sent ++ assignments = host.sent ++ assignments := by rw [sent]
    simp only [answer, notify]
    split
    · exact ⟨rfl, store, grown, fair⟩
    · exact ⟨rfl, store, grown, fair⟩
  | _ => exact ⟨rfl, store, sent, fair⟩

/-- What a service does, a host does at moments that the service makes on the way. -/
theorem runProgram_within {α : Type} (kept : Service → Prop) (permits : Moment → Prop)
    (permitted : ∀ (service : Service) {β : Type} (operation : Request β), kept service →
      permits (service.moment operation) ∧ kept (service.answer operation).2)
    (program : Program α) (same : service.Shows host) (start : kept service) :
    ∃ moments, (∀ n, permits (moments n)) ∧
      (runProgram program service).1 = (Host.run moments program host).1 ∧
      (runProgram program service).2.Shows (Host.run moments program host).2 := by
  induction program generalizing service host with
  | done result =>
    exact ⟨fun _ => service.moment .now, fun _ => (permitted service .now start).1, rfl, same⟩
  | request operation next ih =>
    have started : service.Shows { host with asked := host.asked + 1 } :=
      ⟨same.store, same.sent, same.fair⟩
    obtain ⟨told, shown⟩ := answer_shows started operation
    obtain ⟨here, there⟩ := permitted service operation start
    obtain ⟨rest, within, result, ended⟩ := ih (service.answer operation).1 shown there
    let moments : Moments := fun n =>
      if n = host.asked then service.moment operation else rest n
    have now : moments host.asked = service.moment operation := if_pos rfl
    have served : host.serve moments operation =
        { host with asked := host.asked + 1 }.answer (service.moment operation) operation := by
      rw [serve, now]
    refine ⟨moments, fun n => ?_, ?_⟩
    · simp only [moments]
      split
      · exact here
      · exact within n
    have later : ∀ n, (host.serve moments operation).2.asked ≤ n → moments n = rest n := by
      intro n bound
      rw [asked_serve] at bound
      exact if_neg (by omega)
    rw [Host.run, run_congr _ _ later, served, ← told]
    exact ⟨result, ended⟩

/-- What a service does, a host does at some moments. -/
theorem runProgram_shows {α : Type} (program : Program α) (same : service.Shows host) :
    ∃ moments, (runProgram program service).1 = (Host.run moments program host).1 ∧
      (runProgram program service).2.Shows (Host.run moments program host).2 := by
  obtain ⟨moments, -, ran⟩ := runProgram_within (fun _ => True) (fun _ => True)
    (fun _ _ _ _ => ⟨trivial, trivial⟩) program same trivial
  exact ⟨moments, ran⟩

theorem run_shows {α : Type} (call : EngineCall α) (same : service.Shows host) :
    ∃ moments, (service.run call.operation).1 = (host.perform ⟨call, moments⟩).1 ∧
      (service.run call.operation).2.Shows (host.perform ⟨call, moments⟩).2 := by
  have begun : { service with elapsed := 0, freeAt := [] }.Shows { host with asked := 0 } :=
    ⟨same.store, same.sent, same.fair⟩
  exact runProgram_shows call.operation.run begun

/-- The calls that a service with records in memory is given make a history. -/
theorem run_history {α : Type} {world : World} (call : EngineCall α)
    (same : service.Shows (ofWorld world)) :
    ∃ moments, (service.run call.operation).1 = (world.perform ⟨call, moments⟩).1 ∧
      (service.run call.operation).2.Shows (ofWorld (world.perform ⟨call, moments⟩).2) := by
  obtain ⟨moments, result, shown⟩ := run_shows call same
  rw [perform_ofWorld] at result shown
  exact ⟨moments, result, shown⟩

end Service

end Workflow
