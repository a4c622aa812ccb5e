import Workflow.Proofs.KeyedRecords
import Workflow.Service.Basic

/-! Operations over records in memory. What an operation meets besides the records is given by one
moment for each of its requests, so that a statement for all moments covers every clock, every
choice of identifiers, every directory and every call of the store that fails. -/

namespace Workflow

/-- What one request can meet: a failure of the store, the answers of the directory, the time, an
identifier to draw and what becomes of each message. A call of the store that fails has no effect. -/
structure Moment where
  fault : Option Failure := none
  holders : String → Except Failure (List String)
  hasRole : String → String → Except Failure Bool
  now : Timestamp
  freshId : Uuid
  delivery : TaskAssignment → Except DeliveryFailure Unit := fun _ => .ok ()

abbrev Moments := Nat → Moment

/-- The stored records, with what was asked, drawn and sent on the way to them. -/
structure World where
  records : MemoryStore := {}
  asked : Nat := 0
  /-- Every identifier drawn so far, the last one first. -/
  drawn : List Uuid := []
  sent : List TaskAssignment := []

namespace World

def callStore {α : Type} (fault : Option Failure) (world : World) (call : StoreCall α) :
    Except Failure α × World :=
  match fault with
  | some failure => (.error failure, world)
  | none => (.ok (world.records.answer call).1,
      { world with records := (world.records.answer call).2 })

/-- The answer to a request at its moment. Locks are free for an operation that runs alone. -/
def answer {α : Type} (moment : Moment) (world : World) : Request α → α × World
  | .store call => world.callStore moment.fault call
  | .holders role => (moment.holders role, world)
  | .hasRole principal role => (moment.hasRole principal role, world)
  | .acquire _ => ((), world)
  | .leave _ => ((), world)
  | .release _ => ((), world)
  | .now => (moment.now, world)
  | .freshId => (moment.freshId, { world with drawn := moment.freshId :: world.drawn })
  | .notify assignments =>
    (assignments.map moment.delivery, { world with sent := world.sent ++ assignments })

def serve {α : Type} (moments : Moments) (world : World) (operation : Request α) : α × World :=
  { world with asked := world.asked + 1 }.answer (moments world.asked) operation

def run {α : Type} (moments : Moments) : Program α → World → α × World
  | .done result, world => (result, world)
  | .request operation next, world =>
    run moments (next (world.serve moments operation).1) (world.serve moments operation).2

variable {moments : Moments} {world : World}

theorem run_bind {α β : Type} (program : Program α) (next : α → Program β) :
    run moments (program.bind next) world =
      run moments (next (run moments program world).1) (run moments program world).2 := by
  induction program generalizing world with
  | done result => rfl
  | request operation rest ih => exact ih _

theorem asked_serve {α : Type} (operation : Request α) :
    (world.serve moments operation).2.asked = world.asked + 1 := by
  cases operation with
  | store call =>
    simp only [serve, answer, callStore]
    cases (moments world.asked).fault with
    | some failure => rfl
    | none => rfl
  | _ => rfl

theorem drawn_serve {α : Type} (operation : Request α) :
    ∃ drawn, (world.serve moments operation).2.drawn = drawn ++ world.drawn := by
  cases operation with
  | freshId => exact ⟨[_], rfl⟩
  | store call =>
    refine ⟨[], ?_⟩
    simp only [serve, answer, callStore]
    split <;> rfl
  | _ => exact ⟨[], rfl⟩

theorem drawn_grows {α : Type} (program : Program α) :
    ∃ drawn, (run moments program world).2.drawn = drawn ++ world.drawn := by
  induction program generalizing world with
  | done result => exact ⟨[], rfl⟩
  | request operation rest ih =>
    have rest := @ih (world.serve moments operation).1 (world.serve moments operation).2
    obtain ⟨later, grown⟩ := rest
    obtain ⟨first, start⟩ := @drawn_serve moments world _ operation
    exact ⟨later ++ first, by rw [run, grown, start, List.append_assoc]⟩

theorem run_lift {α : Type} (program : Program α) :
    run moments (ExceptT.lift program : Operation α).run world =
      (.ok (run moments program world).1, (run moments program world).2) := by
  exact run_bind program fun value => .done (Except.ok value)

def Ends {α : Type} (moments : Moments) (operation : Operation α) (world : World)
    (post : Except Failure α → World → Prop) : Prop :=
  post (run moments operation.run world).1 (run moments operation.run world).2

namespace Ends

variable {α β : Type}

theorem mono {operation : Operation α} {first post : Except Failure α → World → Prop}
    (ends : Ends moments operation world first)
    (implies : ∀ result after, first result after → post result after) :
    Ends moments operation world post :=
  implies _ _ ends

theorem pure {value : α} {post : Except Failure α → World → Prop} (holds : post (.ok value) world) :
    Ends moments (Pure.pure value) world post :=
  holds

theorem throw {failure : Failure} {post : Except Failure α → World → Prop}
    (holds : post (.error failure) world) : Ends moments (throw failure) world post :=
  holds

theorem bind {operation : Operation α} {next : α → Operation β}
    {first : Except Failure α → World → Prop} {post : Except Failure β → World → Prop}
    (ends : Ends moments operation world first)
    (failed : ∀ failure after, first (.error failure) after → post (.error failure) after)
    (resume : ∀ value after, first (.ok value) after → Ends moments (next value) after post) :
    Ends moments (operation >>= next) world post := by
  unfold Ends at *
  change post (run moments (operation.run.bind _) world).1 (run moments (operation.run.bind _) world).2
  rw [run_bind]
  cases result : (run moments operation.run world).1 with
  | error failure =>
    rw [result] at ends
    exact failed failure _ ends
  | ok value =>
    rw [result] at ends
    exact resume value _ ends

theorem lift {operation : Operation α} {next : Except Failure α → Operation β}
    {first : Except Failure α → World → Prop} {post : Except Failure β → World → Prop}
    (ends : Ends moments operation world first)
    (resume : ∀ result after, first result after → Ends moments (next result) after post) :
    Ends moments (ExceptT.lift operation.run >>= next) world post := by
  have lifted : Ends moments (ExceptT.lift operation.run) world fun result after =>
      ∃ value, result = .ok value ∧ first value after := by
    unfold Ends at *
    rw [run_lift]
    exact ⟨_, rfl, ends⟩
  apply lifted.bind
  · intro failure after ended
    obtain ⟨value, impossible, _⟩ := ended
    cases impossible
  · intro value after ended
    obtain ⟨_, same, reached⟩ := ended
    cases same
    exact resume value after reached

theorem ask {operation : Request α} {post : Except Failure α → World → Prop}
    (answered : post (.ok (world.serve moments operation).1) (world.serve moments operation).2) :
    Ends moments (Operation.ask operation) world post :=
  answered

theorem attempt {operation : Request (Except Failure α)} {post : Except Failure α → World → Prop}
    (answered : post (world.serve moments operation).1 (world.serve moments operation).2) :
    Ends moments (Operation.attempt operation) world post := by
  have asked : Ends moments (Operation.ask operation) world fun result after =>
      result = .ok (world.serve moments operation).1 ∧
        after = (world.serve moments operation).2 := ask ⟨rfl, rfl⟩
  apply asked.bind
  · intro failure after ended
    obtain ⟨impossible, _⟩ := ended
    cases impossible
  · intro value after ended
    obtain ⟨same, rfl⟩ := ended
    cases same
    cases result : (world.serve moments operation).1 with
    | ok value => rw [result] at answered; exact answered
    | error failure => rw [result] at answered; exact answered

end Ends

end World

inductive Met (permits : Moment → Prop) (failure : Failure) : Prop where
  | store {moment : Moment} (permitted : permits moment) (fault : moment.fault = some failure)
  | holders {moment : Moment} {role : String} (permitted : permits moment)
      (reply : moment.holders role = .error failure)
  | hasRole {moment : Moment} {principal role : String} (permitted : permits moment)
      (reply : moment.hasRole principal role = .error failure)

namespace World

structure Still (before after : World) : Prop where
  records : after.records = before.records
  drawn : after.drawn = before.drawn
  sent : after.sent = before.sent

theorem Still.refl (world : World) : Still world world := ⟨rfl, rfl, rfl⟩

theorem Still.trans {before middle after : World} (first : Still before middle)
    (last : Still middle after) : Still before after :=
  ⟨last.records.trans first.records, last.drawn.trans first.drawn, last.sent.trans first.sent⟩

variable {permits : Moment → Prop} {moments : Moments} {world : World} {α : Type}

/-- A call of the store fails with what it met, or does what the records in memory do. -/
def Stores (permits : Moment → Prop) (before : World) (call : StoreCall α) :
    Except Failure α → World → Prop
  | .ok value, after => value = (before.records.answer call).1 ∧
      after.records = (before.records.answer call).2 ∧ after.drawn = before.drawn ∧
        after.sent = before.sent
  | .error failure, after => Still before after ∧ Met permits failure

theorem Ends.store (within : ∀ n, permits (moments n)) (call : StoreCall α) :
    Ends moments (Operation.store call) world (Stores permits world call) := by
  apply Ends.attempt
  cases fault : (moments world.asked).fault with
  | some failure =>
    simp only [serve, answer, callStore, fault]
    exact ⟨⟨rfl, rfl, rfl⟩, .store (within _) fault⟩
  | none =>
    simp only [serve, answer, callStore, fault]
    exact ⟨rfl, rfl, rfl, rfl⟩

/-- A call of the store that only reads leaves everything as it is, whatever comes of it. -/
theorem Stores.still {call : StoreCall α} {result : Except Failure α} {after : World}
    (stores : Stores permits world call result after)
    (reads : (world.records.answer call).2 = world.records) : Still world after := by
  cases result with
  | error failure => exact stores.1
  | ok value =>
    obtain ⟨_, records, drawn, sent⟩ := stores
    exact ⟨records.trans reads, drawn, sent⟩

/-- An operation that asks for something which leaves the records, the identifiers and the messages
alone goes on with whatever it is told. -/
theorem Ends.pass {β : Type} {operation : Request α} {next : α → Operation β}
    {post : Except Failure β → World → Prop}
    (quiet : ∀ before : World, Still before (before.serve moments operation).2)
    (resume : ∀ value after, Still world after → Ends moments (next value) after post) :
    Ends moments (Operation.ask operation >>= next) world post := by
  have asked : Ends moments (Operation.ask operation) world fun result after =>
      Still world after ∧ ∃ value, result = .ok value := Ends.ask ⟨quiet world, _, rfl⟩
  apply asked.bind
  · intro failure after ended
    obtain ⟨_, _, impossible⟩ := ended
    cases impossible
  · intro value after ended
    obtain ⟨still, _⟩ := ended
    exact resume value after still

theorem Ends.clock (within : ∀ n, permits (moments n)) {next : Timestamp → Operation α}
    {post : Except Failure α → World → Prop}
    (resume : ∀ moment, permits moment → ∀ after, Still world after →
      Ends moments (next moment.now) after post) :
    Ends moments (Operation.ask .now >>= next) world post :=
  resume _ (within world.asked) _ ⟨rfl, rfl, rfl⟩

theorem Ends.tell {assignments : List TaskAssignment} {next : Unit → Operation α}
    {post : Except Failure α → World → Prop}
    (resume : ∀ after, after.records = world.records → after.drawn = world.drawn →
      after.sent = world.sent ++ assignments → Ends moments (next ()) after post) :
    Ends moments ((do let _ ← Operation.ask (.notify assignments)) >>= next) world post :=
  resume _ rfl rfl rfl

/-- A record that is asked for is there, or is reported missing, or the store failed. -/
theorem Ends.load {call : StoreCall (Option α)} (within : ∀ n, permits (moments n))
    (reads : (world.records.answer call).2 = world.records) (missing : Failure) :
    Ends moments (do Operation.found missing (← Operation.store call)) world fun result after =>
      Still world after ∧ match result with
        | .ok value => (world.records.answer call).1 = some value
        | .error failure => Met permits failure ∨
            failure = missing ∧ (world.records.answer call).1 = none := by
  apply (Ends.store within call).bind
  · intro failure after stores
    exact ⟨stores.still reads, Or.inl stores.2⟩
  · intro answer after stores
    have still := stores.still reads
    obtain ⟨found, _⟩ := stores
    cases answer with
    | none => exact Ends.throw ⟨still, Or.inr ⟨rfl, found.symm⟩⟩
    | some value => exact Ends.pure ⟨still, found.symm⟩

end World

end Workflow
