import Mathlib.Data.List.Nodup
import Workflow.Proofs.Retention

/-! Completions and starts that run beside each other come to the same as those of them that write,
run one after another in the order in which they write. The invariant is that the records are those
of this history and that every call is at some stage. -/

namespace Workflow

def EngineCall.Moves {α : Type} : EngineCall α → Prop
  | start .. => True
  | complete .. => True
  | _ => False

namespace System

variable {attempts : Nat → Attempt}

/-- The world in which the calls that have written were run one after another. -/
def history (initial : World) (system : System attempts) : World :=
  initial.after (system.written.map attempts)

/-- The result that a call is bound to have: a failure where it has not written, and otherwise the
result that it has in the history, behind the calls that wrote before it. -/
def Fate (initial : World) (written : List Nat) (i : Nat)
    (result : Except Failure (attempts i).Answer) : Prop :=
  (i ∉ written ∧ ∃ failure, result = .error failure) ∨
    ∃ before after value, written = before ++ i :: after ∧ result = .ok value ∧
      ((initial.after (before.map attempts)).perform (attempts i)).1 = .ok value

structure Serial (initial : World) (system : System attempts) : Prop where
  once : system.written.Nodup
  records : system.records = (system.history initial).records
  reached : Reachable (fun _ => True) (system.history initial)
  drawn : ∀ id ∈ (system.history initial).drawn,
    id ∈ initial.drawn ∨ ∃ j ∈ system.written, id ∈ (system.clients j).drawn
  stages : ∀ i, Stage (system.clients i) system.records
    (fun target => system.locks.holder? target = some i) (i ∉ system.written)
    (Fate initial system.written i)

variable {initial : World} {system : System attempts}

theorem Serial.sound (serial : system.Serial initial) :
    Sound (fun _ => True) system.records := by
  rw [serial.records]
  exact serial.reached.sound.records

end System

theorem Stage.begin {attempt : Attempt} (moves : attempt.call.Moves) (records : MemoryStore)
    {holds : Uuid → Prop} {unwritten : Prop} {fate : Except Failure attempt.Answer → Prop}
    (early : unwritten) : Stage (.begin attempt) records holds unwritten fate := by
  obtain ⟨call, moments⟩ := attempt
  cases call with
  | start id data startedBy =>
    have rest := Engine.start_run id data startedBy
    exact .preparing early (.definitions records rfl) rest rfl
      ((prepareStart_steady records id data startedBy).mono fun _ _ => trivial)
      Engine.settleStart_commits fun _ _ => rfl
  | complete id data principal => exact .fresh early rfl rfl
  | _ => exact moves.elim

/-- What a successful call writes: changes of one instance, which is the one of the task that it
completes or is new. -/
theorem World.perform_commits {permits : Moment → Prop} {world : World}
    (sound : world.Sound permits) {attempt : Attempt} (moves : attempt.call.Moves)
    (within : attempt.Within permits) (fresh : (world.perform attempt).2.drawn.Nodup)
    {value : attempt.Answer} (succeeded : (world.perform attempt).1 = .ok value) :
    ∃ changes, (world.perform attempt).2.records = world.records.commit changes ∧
      world.records.Confined changes ∧
      ((∃ id, attempt.call.task? = some id ∧ Houses world.records id changes.target.id) ∨
        attempt.call.task? = none ∧ world.records.instance? changes.target.id = none) := by
  obtain ⟨call, moments⟩ := attempt
  cases call with
  | start id data startedBy =>
    have begins := world.perform_start id data startedBy within
    rw [succeeded] at begins
    obtain ⟨begun, _, written, grown⟩ := begins
    rw [grown] at fresh
    have new := sound.accounted.fresh fresh
    exact ⟨begun.changes, written, begun.confined new, Or.inr ⟨rfl, begun.unknown new⟩⟩
  | complete id data principal =>
    have completes := world.perform_complete id data principal within
    rw [succeeded] at completes
    obtain ⟨done, _, written, grown, _⟩ := completes
    rw [grown] at fresh
    have new := sound.accounted.fresh fresh
    refine ⟨done.changes, written, done.confined new, Or.inl ⟨id, rfl, done.task, done.found, ?_⟩⟩
    rw [done.changes_id, done.target_id]
  | _ => exact moves.elim

/-- Running a call alone over a world is running it from the start over the records. -/
theorem World.perform_eq (world : World) (attempt : Attempt) :
    world.perform attempt =
      ((run attempt.moments attempt.call.operation.run { records := world.records }).1,
        (run attempt.moments attempt.call.operation.run { records := world.records }).2.onto
          world.drawn world.sent) := by
  rw [← run_onto]
  simp only [perform, onto, List.nil_append, List.append_nil]

/-- Requests other than those that give a lock back leave a client the locks that it holds. -/
theorem Request.holder?_changeLocks_own {α : Type} (operation : Request α)
    {locks : LockTable Nat} {client : Nat} {target : Uuid} (open' : ¬ operation.IsClosing)
    (held : locks.holder? target = some client) :
    (operation.changeLocks client locks).holder? target = some client := by
  cases operation with
  | acquire wanted =>
    simp only [changeLocks]
    split
    · exact held
    · exact LockTable.holder?_acquire held
  | leave _ | release _ => exact absurd trivial open'
  | _ => exact held

theorem Request.holder?_changeLocks_blocked {α : Type} {operation : Request α}
    {locks : LockTable Nat} {client other : Nat} {target : Uuid}
    (blocked : operation.isBlocked client locks = true) (held : locks.holder? target = some other) :
    (operation.changeLocks client locks).holder? target = some other := by
  by_cases same : client = other
  · subst same
    refine operation.holder?_changeLocks_own ?_ held
    intro closing
    cases operation with
    | leave _ | release _ | notify _ => cases blocked
    | _ => exact closing
  · exact operation.holder?_changeLocks held same

namespace System

variable {attempts : Nat → Attempt} {initial : World} {system : System attempts}

theorem Fate.of_unwritten {written : List Nat} {i : Nat} (unwritten : i ∉ written)
    (failure : Failure) : @Fate attempts initial written i (.error failure) :=
  Or.inl ⟨unwritten, failure, rfl⟩

theorem unwritten_append {written : List Nat} {i j : Nat} (waits : i ∉ written)
    (different : i ≠ j) : i ∉ written ++ [j] := by
  intro member
  rcases List.mem_append.mp member with before | last
  · exact waits before
  · exact different (List.mem_singleton.mp last)

theorem Fate.append {written : List Nat} {i j : Nat} {result : Except Failure (attempts i).Answer}
    (fate : Fate initial written i result) (different : i ≠ j) :
    Fate initial (written ++ [j]) i result := by
  rcases fate with ⟨unwritten, failure, same⟩ | ⟨before, after, value, order, same, alone⟩
  · exact Or.inl ⟨unwritten_append unwritten different, failure, same⟩
  · refine Or.inr ⟨before, after ++ [j], value, ?_, same, alone⟩
    rw [order, List.append_assoc, List.cons_append]

theorem Serial.waits (serial : system.Serial initial) {i : Nat} {β : Type} {operation : Request β}
    (blocked : operation.isBlocked i system.locks = true) :
    { system with locks := operation.changeLocks i system.locks }.Serial initial where
  once := serial.once
  records := serial.records
  reached := serial.reached
  drawn := serial.drawn
  stages j := (serial.stages j).mono (fun _ held => Request.holder?_changeLocks_blocked blocked held) id
    fun _ fated => fated

theorem Serial.moves (serial : system.Serial initial) {i : Nat} {client : Client (attempts i)}
    {locks : LockTable Nat}
    (grown : ∀ id ∈ (system.clients i).drawn, id ∈ client.drawn)
    (stage : Stage client system.records (fun target => locks.holder? target = some i)
      (i ∉ system.written) (Fate initial system.written i))
    (others : ∀ j, j ≠ i → ∀ target, system.locks.holder? target = some j →
      locks.holder? target = some j) :
    { system with locks, clients := Function.update system.clients i client }.Serial initial where
  once := serial.once
  records := serial.records
  reached := serial.reached
  drawn id member := by
    apply (serial.drawn id member).imp_right
    intro origin
    obtain ⟨j, wrote, drew⟩ := origin
    refine ⟨j, wrote, ?_⟩
    by_cases same : j = i
    · subst same
      simp only [Function.update_self]
      exact grown id drew
    · simp only [Function.update_of_ne same]
      exact drew
  stages j := by
    by_cases same : j = i
    · subst same
      simp only [Function.update_self]
      exact stage
    · simp only [Function.update_of_ne same]
      exact (serial.stages j).mono (others j same) id fun _ fated => fated

/-- The changes of a call concern no instance that another call reads under its lock. -/
theorem Serial.apart (serial : system.Serial initial) {i : Nat} {frame : MemoryStore → Prop}
    (guards : Guards (attempts i).call (fun target => system.locks.holder? target = some i) frame)
    (current : frame system.records) {changes : ChangeSet}
    (place : (∃ id, (attempts i).call.task? = some id ∧
        Houses system.records id changes.target.id) ∨
      (attempts i).call.task? = none ∧ system.records.instance? changes.target.id = none)
    {j : Nat} (different : j ≠ i) (id target : Uuid) (houses : Houses system.records id target)
    (held : system.locks.holder? target = some j) : changes.target.id ≠ target := by
  intro same
  rcases place with ⟨task, completes, home⟩ | ⟨_, unknown⟩
  · cases guards with
    | definitions base other => exact nomatch other.symm.trans completes
    | @locked base own place picked known holds =>
      cases picked.symm.trans completes
      have here : Houses system.records task place := by
        obtain ⟨first, found, located⟩ := known
        exact ⟨first, current.task?.trans found, located⟩
      rw [here.unique home, same, held] at holds
      exact different (Option.some.inj holds)
  · obtain ⟨task, found, home⟩ := houses
    obtain ⟨_, _, _, _, _, housed, _⟩ :=
      serial.sound.placed task (MemoryStore.mem_of_task? found)
    rw [home, ← same, unknown] at housed
    cases housed

/-- A call draws nothing that was drawn in the history, if it has not written yet. -/
theorem Serial.fresh (serial : system.Serial initial) {after : System attempts} {i : Nat}
    (early : i ∉ system.written) (distinct : after.Distinct initial.drawn)
    (same : ∀ j, j ≠ i → after.clients j = system.clients j) :
    ((after.clients i).drawn ++ (system.history initial).drawn).Nodup := by
  refine distinct.nodup_append serial.reached.fresh early fun id member => ?_
  refine (serial.drawn id member).imp_right fun ⟨j, wrote, theirs⟩ => ⟨j, wrote, ?_⟩
  rw [same j fun equal => early (equal ▸ wrote)]
  exact theirs

theorem Serial.writes (serial : system.Serial initial) {i : Nat} {client : Client (attempts i)}
    {locks : LockTable Nat} {records : MemoryStore} {value : (attempts i).Answer}
    {frame : MemoryStore → Prop} (moves : (attempts i).call.Moves) (early : i ∉ system.written)
    (guards : Guards (attempts i).call (fun target => system.locks.holder? target = some i) frame)
    (current : frame system.records) (closes : client.rest.Closes (.ok value))
    (alone : ((system.history initial).perform (attempts i)).1 = .ok value)
    (stored : ((system.history initial).perform (attempts i)).2.records = records)
    (grown : ((system.history initial).perform (attempts i)).2.drawn =
      client.drawn ++ (system.history initial).drawn)
    (others : ∀ j, j ≠ i → ∀ target, system.locks.holder? target = some j →
      locks.holder? target = some j)
    (distinct : Distinct initial.drawn
      { records, locks, clients := Function.update system.clients i client,
        written := system.written ++ [i] : System attempts }) :
    { records, locks, clients := Function.update system.clients i client,
      written := system.written ++ [i] : System attempts }.Serial initial := by
  have fresh := serial.fresh early distinct fun j different => Function.update_of_ne different _ _
  simp only [Function.update_self] at fresh
  rw [← grown] at fresh
  obtain ⟨changes, committed, confined, place⟩ :=
    World.perform_commits serial.reached.sound moves (fun _ => trivial) fresh alone
  rw [stored, ← serial.records] at committed
  rw [← serial.records] at confined place
  have next : initial.after ((system.written ++ [i]).map attempts) =
      ((system.history initial).perform (attempts i)).2 := by
    rw [List.map_append, World.after_append]
    rfl
  refine ⟨?_, ?_, ?_, ?_, ?_⟩
  · refine List.nodup_append.mpr ⟨serial.once, by simp, ?_⟩
    intro j before k last same
    rw [same, List.mem_singleton.mp last] at before
    exact early before
  · rw [history, next]
    exact stored.symm
  · rw [history, next]
    exact .perform serial.reached (attempts i) (fun _ => trivial) fresh
  · intro id member
    rw [history, next, grown] at member
    rcases List.mem_append.mp member with mine | before
    · refine Or.inr ⟨i, List.mem_append_right _ List.mem_cons_self, ?_⟩
      simp only [Function.update_self]
      exact mine
    · apply (serial.drawn id before).imp_right
      intro origin
      obtain ⟨j, wrote, drew⟩ := origin
      have different : j ≠ i := fun same => early (same ▸ wrote)
      refine ⟨j, List.mem_append_left _ wrote, ?_⟩
      simp only [Function.update_of_ne different]
      exact drew
  · intro j
    by_cases same : j = i
    · subst same
      simp only [Function.update_self]
      exact .ended closes (Or.inr ⟨system.written, [], value, rfl, rfl, alone⟩)
    · simp only [Function.update_of_ne same]
      rw [committed]
      have stage := (serial.stages j).commit confined (serial.apart guards current place same)
      exact stage.mono (others j same) (fun waits => unwritten_append waits same)
        fun _ fated => fated.append same

/-- One step of any call keeps the invariant, and it changes no records unless the call writes. -/
theorem Serial.step (serial : system.Serial initial) {i : Nat} (moves : (attempts i).call.Moves)
    (distinct : (system.step i).Distinct initial.drawn) :
    (system.step i).Serial initial ∧
      ((system.step i).records = system.records ∨ i ∈ (system.step i).written) := by
  cases rest : (system.clients i).rest with
  | done result =>
    rw [step_done rest]
    exact ⟨serial, Or.inl rfl⟩
  | request operation next =>
    cases free : operation.isBlocked i system.locks with
    | true =>
      rw [step_blocked rest free]
      exact ⟨serial.waits free, Or.inl rfl⟩
    | false =>
      generalize served :
        ((system.clients i).view system.records).serve (attempts i).moments operation = reply
      obtain ⟨answer, view⟩ := reply
      rw [step_served rest free served] at distinct ⊢
      have ready : ∀ target, operation.wants? = some target →
          system.locks.holder? target = some i := by
        intro target wanted
        simpa [Request.isBlocked, wanted] using free
      have others : ∀ j, j ≠ i → ∀ target, system.locks.holder? target = some j →
          (operation.changeLocks i system.locks).holder? target = some j :=
        fun j different target held => operation.holder?_changeLocks held (Ne.symm different)
      have answered := (serial.stages i).answered Fate.of_unwritten rest ready served
      cases answered with
      | moves quiet same stage =>
        have grown : ∀ id ∈ (system.clients i).drawn, id ∈ view.drawn := by
          obtain ⟨drawn, grown⟩ := @World.drawn_serve (attempts i).moments
            ((system.clients i).view system.records) _ operation
          rw [served] at grown
          intro id member
          rw [grown]
          exact List.mem_append_right _ member
        rw [quiet, same]
        exact ⟨serial.moves grown
          (stage _ fun closing target held => operation.holder?_changeLocks_own closing held) others,
          Or.inl rfl⟩
      | writes early wrote guards current closes result written drawn =>
        rw [wrote] at distinct ⊢
        have alone := (system.history initial).perform_eq (attempts i)
        rw [← serial.records] at alone
        rw [← congrArg Prod.fst alone] at result
        have stored := congrArg (·.2.records) alone
        have grown := congrArg (·.2.drawn) alone
        exact ⟨serial.writes moves early guards current closes result (stored.trans written)
          (grown.trans (congrArg (· ++ _) drawn)) others distinct,
          Or.inr (List.mem_append_right _ List.mem_cons_self)⟩

theorem Serial.run (serial : system.Serial initial) (moves : ∀ i, (attempts i).call.Moves)
    {schedule : List Nat} (distinct : (system.run schedule).Distinct initial.drawn) :
    (system.run schedule).Serial initial := by
  induction schedule generalizing system with
  | nil => exact serial
  | cons i rest ih =>
    have later : ((system.step i).run rest).Distinct initial.drawn := distinct
    exact ih (serial.step (moves i) later.of_run).1 later

/-- A call that has written succeeds at its place in the history. -/
theorem Serial.succeeds (serial : system.Serial initial) {before after : List Nat} {i : Nat}
    (place : system.written = before ++ i :: after) :
    ∃ value, ((initial.after (before.map attempts)).perform (attempts i)).1 = .ok value := by
  have once := serial.once
  have wrote : i ∈ system.written := by
    rw [place]
    exact List.mem_append_right _ List.mem_cons_self
  obtain ⟨_, fated⟩ := (serial.stages i).settled fun unwritten => unwritten wrote
  rcases fated with ⟨unwritten, _⟩ | ⟨first, last, value, order, _, alone⟩
  · exact absurd wrote unwritten
  rw [order] at once
  have nowhere := (List.nodup_cons.mp (List.nodup_middle.mp once)).1
  have same := (List.append_cons_inj_of_notMem (fun earlier => nowhere (List.mem_append_left _ earlier))
    fun later => nowhere (List.mem_append_right _ later)).mp (order.symm.trans place)
  rw [← same.1]
  exact ⟨value, alone⟩

theorem Serial.begin {permits : Moment → Prop} (reached : Reachable permits initial)
    (moves : ∀ i, (attempts i).call.Moves) : (begin attempts initial.records).Serial initial where
  once := List.nodup_nil
  records := rfl
  reached := reached.mono fun _ _ => trivial
  drawn _ member := Or.inl member
  stages i := Stage.begin (moves i) initial.records List.not_mem_nil

/-- Calls that ran beside each other, as a history of those that wrote: the records are those of the
history, each call returned what it returns there or failed and changed nothing, and no task was
completed or made twice and no completion lost. -/
structure Serialized (initial : World) (schedule : List Nat) (system : System attempts) : Prop where
  once : system.written.Nodup
  records : system.records = (initial.after (system.written.map attempts)).records
  succeeds : ∀ before i after, system.written = before ++ i :: after →
    ∃ value, ((initial.after (before.map attempts)).perform (attempts i)).1 = .ok value
  returned : ∀ i result, (system.clients i).rest = .done result →
    Fate initial system.written i result
  quiet : ∀ before i after, schedule = before ++ i :: after → i ∉ system.written →
    ((begin attempts initial.records).run (before ++ [i])).records =
      ((begin attempts initial.records).run before).records
  single : (system.written.filterMap fun i => (attempts i).call.task?).Nodup
  retained : ∀ before i after id data principal moments, system.written = before ++ i :: after →
    attempts i = ⟨.complete id data principal, moments⟩ →
      Retains system.records id data principal (after.map attempts)
  made : system.records.tasks.map (·.id) =
    initial.records.tasks.map (·.id) ++ initial.madeBy (system.written.map attempts)
  distinct : (system.records.tasks.map (·.id)).Nodup

theorem Serial.single (serial : system.Serial initial) {permits : Moment → Prop}
    (reached : Reachable permits initial) :
    (system.written.filterMap fun i => (attempts i).call.task?).Nodup := by
  have all : Reachable (fun _ => True) initial := reached.mono fun _ _ => trivial
  have once := all.completes_once (fun _ _ _ => trivial) serial.reached.fresh
  rw [List.filterMap_map] at once
  apply once
  intro before attempt after split
  obtain ⟨earlier, rest, place, same, others⟩ := List.map_eq_append_iff.mp split
  obtain ⟨i, later, order, here, _⟩ := List.map_eq_cons_iff.mp others
  subst order same here
  exact serial.succeeds place

theorem Serial.retained (serial : system.Serial initial) {permits : Moment → Prop}
    (reached : Reachable permits initial) {before after : List Nat} {i : Nat} {id : Uuid}
    {data : Json.Members} {principal : String} {moments : Moments}
    (place : system.written = before ++ i :: after)
    (completes : attempts i = ⟨.complete id data principal, moments⟩) :
    Retains system.records id data principal (after.map attempts) := by
  have all : Reachable (fun _ => True) initial := reached.mono fun _ _ => trivial
  have fresh := serial.reached.fresh
  have succeeded := serial.succeeds place
  have split : system.written.map attempts =
      before.map attempts ++ ⟨.complete id data principal, moments⟩ :: after.map attempts := by
    rw [place, List.map_append, List.map_cons, completes]
  rw [serial.records]
  rw [history, split] at fresh ⊢
  have start := all.after (before.map attempts) (fun _ _ _ => trivial) (World.fresh_append fresh)
  rw [World.after_append] at fresh ⊢
  rw [completes] at succeeded
  obtain ⟨outcome, succeeded⟩ := succeeded
  exact start.retains (fun _ _ _ => trivial) fresh succeeded

theorem Serial.quiet {schedule before after : List Nat} {i : Nat}
    (serial : (system.run before).Serial initial) (moves : (attempts i).call.Moves)
    (distinct : (system.run schedule).Distinct initial.drawn)
    (split : schedule = before ++ i :: after) (unwritten : i ∉ (system.run schedule).written) :
    (system.run (before ++ [i])).records = (system.run before).records := by
  have last : system.run (before ++ [i]) = (system.run before).step i := system.run_append before [i]
  have rest : system.run schedule = ((system.run before).step i).run after := by
    rw [split, System.run_append]
    rfl
  rw [rest] at distinct unwritten
  rw [last]
  rcases (serial.step moves distinct.of_run).2 with same | wrote
  · exact same
  · obtain ⟨later, grown⟩ := ((system.run before).step i).written_run after
    rw [grown] at unwritten
    exact absurd (List.mem_append_left _ wrote) unwritten

end System

variable {permits : Moment → Prop} {initial : World} {attempts : Nat → Attempt}

/-- Whatever the order in which the steps of completions and starts are taken, they come to the same
as the calls among them that write, one after another. -/
theorem interleavings_serialize (reached : Reachable permits initial)
    (moves : ∀ i, (attempts i).call.Moves) (schedule : List Nat)
    (distinct : ((System.begin attempts initial.records).run schedule).Distinct initial.drawn) :
    ((System.begin attempts initial.records).run schedule).Serialized initial schedule := by
  have start := System.Serial.begin reached moves
  have serial := start.run moves distinct
  have all : Reachable (fun _ => True) initial := reached.mono fun _ _ => trivial
  refine ⟨serial.once, serial.records, fun _ _ _ place => serial.succeeds place, ?_, ?_,
    serial.single reached, fun _ _ _ _ _ _ _ => serial.retained reached, ?_, serial.sound.tasks⟩
  · intro i result returned
    exact (serial.stages i).fated System.Fate.of_unwritten returned
  · intro before i after split
    have early : ((System.begin attempts initial.records).run before).Distinct initial.drawn := by
      rw [split, System.run_append] at distinct
      exact distinct.of_run
    exact (start.run moves early).quiet (moves i) distinct split
  · rw [serial.records]
    exact all.tasks_made (fun _ _ _ => trivial) serial.reached.fresh

/-- Two reviews of one article, its print and any number of further articles. -/
def articleCalls : Nat → Attempt
  | 0 => ⟨.complete (Uuid.ofNat 48) [("grade", .int 1)] "ada", calm 100⟩
  | 1 => ⟨.complete (Uuid.ofNat 48) [("grade", .int 2)] "ada", calm 200⟩
  | 2 => ⟨.complete (Uuid.ofNat 49) [("copies", .int 7)] "ada", calm 300⟩
  | i + 3 => ⟨.start article.id [] "ada", calm (400 + 100 * i)⟩

def articleTurns : List Nat :=
  (List.range 96).map (· % 4)

def articleRace : System articleCalls :=
  (System.begin articleCalls (({} : World).after articleForks).records).run articleTurns

/-- One of the two reviews is written, and the calls come to the same as if they had run one after
another. -/
theorem article_calls_serialize :
    articleRace.written = [3, 0, 2] ∧
      articleRace.Serialized (({} : World).after articleForks) articleTurns := by
  have reached : Reachable (fun _ => True) (({} : World).after articleForks) :=
    article_forks fun _ _ => trivial
  have moves : ∀ i, (articleCalls i).call.Moves := by
    intro i
    match i with
    | 0 | 1 | 2 | _ + 3 => trivial
  have distinct : articleRace.Distinct (({} : World).after articleForks).drawn :=
    @System.Distinct.of_busy _ _ _ _ [0, 1, 2, 3] (by decide +kernel) (by decide +kernel)
  exact ⟨by decide +kernel, interleavings_serialize reached moves articleTurns distinct⟩

end Workflow
