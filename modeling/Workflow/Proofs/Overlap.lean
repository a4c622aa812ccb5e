import Mathlib.Data.List.Pairwise
import Workflow.Proofs.Course

/-! Calls of every kind under way at once. Whatever they are and in whatever order they take their
steps, what is stored endures, and an instance is completed once. -/

namespace Workflow

namespace System

variable {attempts : Nat → Attempt} {drawn : List Uuid} {system : System attempts}

structure Orderly (drawn : List Uuid) (system : System attempts) : Prop where
  once : system.written.Nodup
  housed : ∀ task ∈ system.records.tasks, (system.records.instance? task.instanceId).isSome = true
  accounted : ∃ known, Accounted system.records known ∧ known.Nodup ∧
    ∀ id ∈ known, id ∈ drawn ∨ ∃ j ∈ system.written, id ∈ (system.clients j).drawn
  finished : ∀ i outcome, (system.clients i).Reports outcome → outcome.instanceStatus = .completed →
    ∃ target, system.records.instance? outcome.instanceId = some target ∧ target.status = .completed
  ordered : system.written.Pairwise fun i j => ∀ first second, (system.clients i).Reports first →
    (system.clients j).Reports second → first.instanceStatus = .completed →
      second.instanceId ≠ first.instanceId
  courses : ∀ i, Course (system.clients i) system.records
    (fun target => system.locks.holder? target = some i) (i ∉ system.written)

theorem Orderly.wrote (orderly : system.Orderly drawn) {i : Nat} {outcome : TaskCompletion}
    (reports : (system.clients i).Reports outcome) : i ∈ system.written :=
  Decidable.of_not_not fun early => (orderly.courses i).not_reports early outcome reports

theorem Orderly.begin {permits : Moment → Prop} {world : World} (sound : world.Sound permits)
    (fresh : world.drawn.Nodup) (attempts : Nat → Attempt) :
    (begin attempts world.records).Orderly world.drawn where
  once := List.nodup_nil
  housed task member := by
    obtain ⟨target, _, _, _, _, housed, _⟩ := sound.records.placed task member
    exact housed ▸ rfl
  accounted := ⟨world.drawn, sound.accounted, fresh, fun _ member => Or.inl member⟩
  finished i outcome reports _ := by
    have course : Course (.begin (attempts i)) world.records (fun _ => True) True :=
      .begin (attempts i) world.records trivial
    exact absurd reports (course.not_reports trivial outcome)
  ordered := List.Pairwise.nil
  courses i := Course.begin (attempts i) world.records List.not_mem_nil

/-- A call that has to wait changes nothing but the queue for a lock. -/
theorem Orderly.waits (orderly : system.Orderly drawn) {i : Nat} {β : Type} {operation : Request β}
    (blocked : operation.isBlocked i system.locks = true) :
    { system with locks := operation.changeLocks i system.locks }.Orderly drawn where
  once := orderly.once
  housed := orderly.housed
  accounted := orderly.accounted
  finished := orderly.finished
  ordered := orderly.ordered
  courses j :=
    (orderly.courses j).mono (fun _ held => Request.holder?_changeLocks_blocked blocked held) Iff.rfl

theorem Orderly.goes_on (orderly : system.Orderly drawn) {i : Nat} {client : Client (attempts i)}
    {locks : LockTable Nat} {records : MemoryStore}
    (instances : records.instances = system.records.instances)
    (tasks : records.tasks = system.records.tasks)
    (grown : ∀ id ∈ (system.clients i).drawn, id ∈ client.drawn)
    (course : Course client records (fun target => locks.holder? target = some i)
      (i ∉ system.written))
    (reports : ∀ outcome, client.Reports outcome → (system.clients i).Reports outcome)
    (others : ∀ j, j ≠ i → ∀ target, system.locks.holder? target = some j →
      locks.holder? target = some j) :
    { system with records, locks, clients := Function.update system.clients i client }.Orderly
      drawn := by
  have reported : ∀ j outcome, (Function.update system.clients i client j).Reports outcome →
      (system.clients j).Reports outcome :=
    (Function.forall_update_iff system.clients fun j other => ∀ outcome, other.Reports outcome →
      (system.clients j).Reports outcome).mpr ⟨reports, fun _ _ _ told => told⟩
  have drew : ∀ j, ∀ id ∈ (system.clients j).drawn,
      id ∈ (Function.update system.clients i client j).drawn :=
    (Function.forall_update_iff system.clients fun j other => ∀ id ∈ (system.clients j).drawn,
      id ∈ other.drawn).mpr ⟨grown, fun _ _ _ member => member⟩
  have found : ∀ id, records.instance? id = system.records.instance? id := by
    intro id
    rw [MemoryStore.instance?, instances, MemoryStore.instance?]
  refine ⟨orderly.once, ?_, ?_, ?_, ?_, ?_⟩
  · intro task member
    rw [found]
    exact orderly.housed task (tasks ▸ member)
  · obtain ⟨known, accounted, single, origin⟩ := orderly.accounted
    refine ⟨known, ⟨instances ▸ accounted.instances, tasks ▸ accounted.tasks⟩, single, ?_⟩
    intro id member
    refine (origin id member).imp_right ?_
    rintro ⟨j, wrote, mine⟩
    exact ⟨j, wrote, drew j id mine⟩
  · intro j outcome told completed
    rw [found]
    exact orderly.finished j outcome (reported j outcome told) completed
  · exact orderly.ordered.imp fun before first second told later =>
      before first second (reported _ first told) (reported _ second later)
  · refine (Function.forall_update_iff system.clients fun j other => Course other records
      (fun target => locks.holder? target = some j) (j ∉ system.written)).mpr ⟨course, ?_⟩
    intro j different
    exact ((orderly.courses j).of_eq instances tasks).mono (others j different) Iff.rfl

/-- The changes of a call concern no instance whose lock another call holds. -/
theorem Orderly.apart (orderly : system.Orderly drawn) {i : Nat} {frame : MemoryStore → Prop}
    (relies : Relies (attempts i).call (fun target => system.locks.holder? target = some i) frame)
    (current : frame system.records) {changes : ChangeSet} {ids : List Uuid}
    (place : (∃ id, (attempts i).call.task? = some id ∧
        Houses system.records id changes.target.id) ∨
      (attempts i).call.task? = none ∧ changes.target.id ∈ ids)
    (fresh : Fresh system.records ids) {j : Nat} (different : j ≠ i) (id target : Uuid)
    (houses : Houses system.records id target) (held : system.locks.holder? target = some j) :
    changes.target.id ≠ target := by
  intro same
  rcases place with ⟨task, completes, home⟩ | ⟨_, new⟩
  · have holds := relies.held current completes home
    rw [same, held] at holds
    exact different (Option.some.inj holds)
  · obtain ⟨task, found, home⟩ := houses
    have stored := orderly.housed task (MemoryStore.mem_of_task? found)
    obtain ⟨one, known⟩ := Option.isSome_iff_exists.mp stored
    refine fresh.instances _ new (List.mem_map.mpr ⟨one, MemoryStore.mem_of_instance? known, ?_⟩)
    rw [MemoryStore.instance?_id known, home, same]

theorem Orderly.fresh (orderly : system.Orderly drawn) (distinct : system.Distinct drawn) {i : Nat}
    (early : i ∉ system.written) : Fresh system.records (system.clients i).drawn := by
  obtain ⟨known, accounted, single, origin⟩ := orderly.accounted
  exact accounted.fresh (distinct.nodup_append single early origin)

theorem Orderly.place (orderly : system.Orderly drawn) (distinct : system.Distinct drawn) {i : Nat}
    (early : i ∉ system.written) {frame : MemoryStore → Prop}
    (relies : Relies (attempts i).call (fun target => system.locks.holder? target = some i) frame)
    (current : frame system.records) {definitions : List Definition} {changes : ChangeSet}
    {value : (attempts i).Answer}
    (writes : Writes { system.records with definitions } (attempts i).call value
      (system.clients i).drawn changes) :
    (∃ task, (attempts i).call.task? = some task ∧
        Houses system.records task changes.target.id ∧
        system.locks.holder? changes.target.id = some i) ∨
      (attempts i).call.task? = none ∧ system.records.instance? changes.target.id = none := by
  rcases writes.place with ⟨task, completes, home⟩ | ⟨other, new⟩
  · exact .inl ⟨task, completes, home, relies.held current completes home⟩
  · refine .inr ⟨other, Option.eq_none_iff_forall_ne_some.mpr fun old found => ?_⟩
    have unused := (orderly.fresh distinct early).instances _ new
    refine unused (List.mem_map.mpr ⟨old, MemoryStore.mem_of_instance? found, ?_⟩)
    exact MemoryStore.instance?_id found

section Written

variable {i : Nat} {client : Client (attempts i)} {changes : ChangeSet}
  {value : (attempts i).Answer} {ids : List Uuid} {definitions : List Definition}

theorem reported_of_writes
    (writes : Writes { system.records with definitions } (attempts i).call value ids changes)
    (closes : client.rest.Closes (.ok value)) {outcome : TaskCompletion}
    (reports : client.Reports outcome) :
    outcome.instanceId = changes.target.id ∧ outcome.instanceStatus = changes.target.status ∧
      ∃ old, system.records.instance? changes.target.id = some old ∧ old.status ≠ .completed := by
  obtain ⟨other, ends, answers⟩ := reports
  cases closes.unique ends
  exact writes.moves answers

/-- What is reported as completed is stored as completed, also by the call that has just written. -/
theorem Orderly.finished_commit (orderly : system.Orderly drawn)
    (writes : Writes { system.records with definitions } (attempts i).call value ids changes)
    (closes : client.rest.Closes (.ok value))
    (endures : Endures system.records (system.records.commit changes)) :
    ∀ j outcome, (Function.update system.clients i client j).Reports outcome →
      outcome.instanceStatus = .completed →
        ∃ target, (system.records.commit changes).instance? outcome.instanceId = some target ∧
          target.status = .completed := by
  refine (Function.forall_update_iff system.clients fun _ other => ∀ outcome,
    other.Reports outcome → outcome.instanceStatus = .completed →
      ∃ target, (system.records.commit changes).instance? outcome.instanceId = some target ∧
        target.status = .completed).mpr ⟨?_, ?_⟩
  · intro outcome reports completed
    obtain ⟨here, status, _⟩ := reported_of_writes writes closes reports
    refine ⟨changes.target, ?_, status.symm.trans completed⟩
    rw [here, MemoryStore.instance?_commit, if_pos rfl]
  · intro j _ outcome reports completed
    obtain ⟨target, found, done⟩ := orderly.finished j outcome reports completed
    exact ⟨target, (endures.completedInstances _ target found done).1, done⟩

/-- A call that writes finds its instance running, so that no earlier one has completed it. -/
theorem Orderly.not_finished (orderly : system.Orderly drawn)
    (writes : Writes { system.records with definitions } (attempts i).call value ids changes)
    (closes : client.rest.Closes (.ok value)) {j : Nat} {first second : TaskCompletion}
    (earlier : (system.clients j).Reports first) (completed : first.instanceStatus = .completed)
    (later : client.Reports second) : second.instanceId ≠ first.instanceId := by
  intro same
  obtain ⟨here, _, old, stored, running⟩ := reported_of_writes writes closes later
  obtain ⟨target, found, done⟩ := orderly.finished j first earlier completed
  rw [← here, same, found] at stored
  cases stored
  exact running done

end Written

theorem Orderly.writes (orderly : system.Orderly drawn) (distinct : system.Distinct drawn) {i : Nat}
    {client : Client (attempts i)} {locks : LockTable Nat} {changes : ChangeSet}
    {value : (attempts i).Answer} {frame : MemoryStore → Prop} {definitions : List Definition}
    (early : i ∉ system.written)
    (relies : Relies (attempts i).call (fun target => system.locks.holder? target = some i) frame)
    (current : frame system.records)
    (writes : Writes { system.records with definitions } (attempts i).call value
      (system.clients i).drawn changes)
    (undrawn : client.drawn = (system.clients i).drawn) (closes : client.rest.Closes (.ok value))
    (others : ∀ j, j ≠ i → ∀ target, system.locks.holder? target = some j →
      locks.holder? target = some j) :
    ({ records := system.records.commit changes, locks,
       clients := Function.update system.clients i client,
       written := system.written ++ [i] } : System attempts).Orderly drawn ∧
      Endures system.records (system.records.commit changes) := by
  obtain ⟨known, accounted, single, origin⟩ := orderly.accounted
  have apart := distinct.nodup_append single early origin
  have fresh := accounted.fresh apart
  have carries := writes.carries fresh
  have endures := carries.endures
  have earlier {j : Nat} (wrote : j ∈ system.written) :
      Function.update system.clients i client j = system.clients j :=
    Function.update_of_ne (fun same : j = i => early (same ▸ wrote)) _ _
  refine ⟨⟨?_, ?_, ?_, ?_, ?_, ?_⟩, endures⟩
  · exact List.nodup_append_comm.mp (List.nodup_cons.mpr ⟨early, orderly.once⟩)
  · exact carries.confined.housed orderly.housed
  · refine ⟨_, writes.accounted accounted, apart, fun id member => ?_⟩
    rcases List.mem_append.mp member with mine | before
    · refine Or.inr ⟨i, List.mem_append_right _ List.mem_cons_self, ?_⟩
      simp only [Function.update_self, undrawn]
      exact mine
    · refine (origin id before).imp_right fun ⟨j, wrote, drew⟩ => ?_
      refine ⟨j, List.mem_append_left _ wrote, ?_⟩
      simp only [earlier wrote]
      exact drew
  · exact orderly.finished_commit writes closes endures
  · refine List.pairwise_append.mpr ⟨?_, List.pairwise_singleton _ _, ?_⟩
    · refine orderly.ordered.imp_of_mem fun wrote also before first second => ?_
      simp only [earlier wrote, earlier also]
      exact before first second
    · intro j wrote k last first second reports later completed
      cases List.mem_singleton.mp last
      simp only [earlier wrote, Function.update_self] at reports later
      exact orderly.not_finished writes closes reports completed later
  · refine (Function.forall_update_iff system.clients fun j other => Course other
      (system.records.commit changes) (fun target => locks.holder? target = some j)
      (j ∉ system.written ++ [i])).mpr ⟨?_, fun j different => ?_⟩
    · exact .ended closes fun _ _ unwritten =>
        unwritten (List.mem_append_right _ List.mem_cons_self)
    · have course := (orderly.courses j).commit carries.confined
        (orderly.apart relies current writes.place fresh different)
      refine course.mono (others j different)
        ⟨fun waits => unwritten_append waits different, fun waits => ?_⟩
      exact fun wrote => waits (List.mem_append_left _ wrote)

theorem Orderly.step (orderly : system.Orderly drawn) (distinct : system.Distinct drawn) (i : Nat) :
    (system.step i).Orderly drawn ∧ Endures system.records (system.step i).records := by
  cases rest : (system.clients i).rest with
  | done result =>
    rw [step_done rest]
    exact ⟨orderly, .of_eq rfl rfl⟩
  | request operation next =>
    cases free : operation.isBlocked i system.locks with
    | true =>
      rw [step_blocked rest free]
      exact ⟨orderly.waits free, .of_eq rfl rfl⟩
    | false =>
      have grown := system.drawn_step i i
      generalize served :
        ((system.clients i).view system.records).serve (attempts i).moments operation = reply
      obtain ⟨answer, view⟩ := reply
      rw [step_served rest free served] at grown ⊢
      have ready : ∀ target, operation.wants? = some target →
          system.locks.holder? target = some i := by
        intro target wanted
        simpa [Request.isBlocked, wanted] using free
      have others : ∀ j, j ≠ i → ∀ target, system.locks.holder? target = some j →
          (operation.changeLocks i system.locks).holder? target = some j :=
        fun j different target held => operation.holder?_changeLocks held (Ne.symm different)
      cases (orderly.courses i).moved rest ready served with
      | quiet silent instances tasks course reports =>
        rw [silent]
        refine ⟨orderly.goes_on instances tasks ?_ (course _ fun closing target held =>
          operation.holder?_changeLocks_own closing held) reports others, .of_eq instances tasks⟩
        obtain ⟨later, grown⟩ := grown
        simp only [Function.update_self] at grown
        intro id member
        rw [grown]
        exact List.mem_append_right _ member
      | writes early loud relies current writes committed undrawn closes =>
        rw [loud, committed]
        exact orderly.writes distinct early relies current writes undrawn closes others

/-- What a step comes to: it leaves instances and tasks alone, or a call writes its changes and has
only closing requests left. -/
inductive Stepped (system : System attempts) (i : Nat) : Prop where
  | quiet (instances : (system.step i).records.instances = system.records.instances)
      (tasks : (system.step i).records.tasks = system.records.tasks)
      (written : (system.step i).written = system.written)
  | writes {frame : MemoryStore → Prop} {definitions : List Definition} {changes : ChangeSet}
      {value : (attempts i).Answer} (early : i ∉ system.written)
      (relies : Relies (attempts i).call (fun target => system.locks.holder? target = some i) frame)
      (current : frame system.records)
      (writes : Writes { system.records with definitions } (attempts i).call value
        (system.clients i).drawn changes)
      (records : (system.step i).records = system.records.commit changes)
      (written : (system.step i).written = system.written ++ [i])
      (closes : ((system.step i).clients i).rest.Closes (.ok value))

theorem Orderly.stepped (orderly : system.Orderly drawn) (i : Nat) : system.Stepped i := by
  cases rest : (system.clients i).rest with
  | done result =>
    have step := step_done rest
    exact .quiet (by rw [step]) (by rw [step]) (by rw [step])
  | request operation next =>
    cases free : operation.isBlocked i system.locks with
    | true =>
      have step := step_blocked rest free
      exact .quiet (by rw [step]) (by rw [step]) (by rw [step])
    | false =>
      generalize served :
        ((system.clients i).view system.records).serve (attempts i).moments operation = reply
      obtain ⟨answer, view⟩ := reply
      have ready : ∀ target, operation.wants? = some target →
          system.locks.holder? target = some i := by
        intro target wanted
        simpa [Request.isBlocked, wanted] using free
      have step := step_served rest free served
      cases (orderly.courses i).moved rest ready served with
      | quiet silent instances tasks _ _ =>
        refine .quiet ?_ ?_ ?_
        · rw [step]
          exact instances
        · rw [step]
          exact tasks
        · rw [step, silent]
          rfl
      | writes early loud relies current writes committed _ closes =>
        refine .writes early relies current writes ?_ ?_ ?_
        · rw [step]
          exact committed
        · rw [step, loud]
          rfl
        · rw [step]
          simp only [Function.update_self]
          exact closes

/-- A call that has only closing requests left keeps its result. -/
theorem closes_step (i j : Nat) {result : Except Failure (attempts i).Answer}
    (closes : (system.clients i).rest.Closes result) :
    ((system.step j).clients i).rest.Closes result := by
  by_cases same : i = j
  · subst same
    cases rest : (system.clients i).rest with
    | done _ =>
      rw [step_done rest]
      exact closes
    | request operation next =>
      cases free : operation.isBlocked i system.locks with
      | true =>
        rw [step_blocked rest free]
        exact closes
      | false =>
        rw [step_served rest free rfl]
        simp only [Function.update_self]
        rw [rest] at closes
        cases closes with
        | request _ resume => exact resume _
  · rw [system.clients_step_other same]
    exact closes

structure Wrote (system : System attempts) (i : Nat) (changes : ChangeSet) : Prop where
  early : i ∉ system.written
  written : (system.step i).written = system.written ++ [i]
  records : (system.step i).records = system.records.commit changes
  fresh : Fresh system.records (system.clients i).drawn
  writes : ∃ definitions value, Writes { system.records with definitions } (attempts i).call value
    (system.clients i).drawn changes
  place : (∃ task, (attempts i).call.task? = some task ∧
      Houses system.records task changes.target.id ∧
      system.locks.holder? changes.target.id = some i) ∨
    (attempts i).call.task? = none ∧ system.records.instance? changes.target.id = none

/-- A step writes the changes of a call, or it leaves instances and tasks alone. -/
theorem Orderly.stores (orderly : system.Orderly drawn) (distinct : system.Distinct drawn)
    (i : Nat) :
    ((system.step i).records.instances = system.records.instances ∧
        (system.step i).records.tasks = system.records.tasks) ∨
      ∃ changes, system.Wrote i changes := by
  cases orderly.stepped i with
  | quiet instances tasks _ => exact .inl ⟨instances, tasks⟩
  | writes early relies current writes records written _ =>
    exact .inr ⟨_, early, written, records, orderly.fresh distinct early, ⟨_, _, writes⟩,
      orderly.place distinct early relies current writes⟩

theorem Orderly.run (orderly : system.Orderly drawn) {schedule : List Nat}
    (distinct : (system.run schedule).Distinct drawn) :
    (system.run schedule).Orderly drawn ∧ Endures system.records (system.run schedule).records := by
  induction schedule generalizing system with
  | nil => exact ⟨orderly, .of_eq rfl rfl⟩
  | cons i rest ih =>
    have later : ((system.step i).run rest).Distinct drawn := distinct
    obtain ⟨next, first⟩ := orderly.step later.of_run.of_step i
    obtain ⟨last, endures⟩ := ih next later
    exact ⟨last, first.trans endures⟩

def Returns (system : System attempts) (i : Nat) (outcome : TaskCompletion) : Prop :=
  ∃ value, (system.clients i).rest = .done (.ok value) ∧
    (attempts i).call.outcome? value = some outcome

theorem Returns.reports {i : Nat} {outcome : TaskCompletion} (returns : system.Returns i outcome) :
    (system.clients i).Reports outcome := by
  obtain ⟨value, rest, answers⟩ := returns
  refine ⟨value, ?_, answers⟩
  rw [rest]
  exact .done

/-- Of an instance one completion at most says that it has completed it, and it is the last of that
instance to be written. -/
structure Concludes (system : System attempts) : Prop where
  once : system.written.Nodup
  wrote : ∀ i outcome, system.Returns i outcome → i ∈ system.written
  last : system.written.Pairwise fun i j => ∀ first second, system.Returns i first →
    system.Returns j second → first.instanceStatus = .completed →
      second.instanceId ≠ first.instanceId
  single : ∀ i j first second, system.Returns i first → system.Returns j second →
    first.instanceStatus = .completed → second.instanceStatus = .completed →
      second.instanceId = first.instanceId → i = j

def Separate (system : System attempts) (i j : Nat) : Prop :=
  ∀ first second, (system.clients i).Reports first → (system.clients j).Reports second →
    first.instanceStatus = .completed → second.instanceStatus = .completed →
      second.instanceId ≠ first.instanceId

instance (system : System attempts) : Std.Symm system.Separate :=
  ⟨fun _ _ separate first second one other ended also same =>
    separate second first other one also ended same.symm⟩

theorem Orderly.separate (orderly : system.Orderly drawn) {i j : Nat} (different : i ≠ j) :
    system.Separate i j := by
  intro first second one other
  have apart : system.written.Pairwise system.Separate :=
    orderly.ordered.imp fun before first second one other ended _ =>
      before first second one other ended
  exact apart.forall (orderly.wrote one) (orderly.wrote other) different first second one other

theorem Orderly.concludes (orderly : system.Orderly drawn) : system.Concludes where
  once := orderly.once
  wrote _ _ returns := orderly.wrote returns.reports
  last := orderly.ordered.imp fun before first second one other =>
    before first second one.reports other.reports
  single i j first second one other ended also same := by
    refine Decidable.of_not_not fun different => ?_
    exact orderly.separate different first second one.reports other.reports ended also same

end System

/-- Whatever calls are made, one after another or at once, and in whatever order their steps are taken:
records that were stored at any time stay with the fields that never change, completed ones stay as
they are, and a completion that completes its instance is the last one of that instance to succeed. -/
theorem overlapping_calls_endure {permits : Moment → Prop} {initial : World}
    (reached : Reachable permits initial) {attempts : Nat → Attempt} {before after : List Nat}
    (distinct : ((System.begin attempts initial.records).run (before ++ after)).Distinct
      initial.drawn) :
    Endures ((System.begin attempts initial.records).run before).records
        ((System.begin attempts initial.records).run (before ++ after)).records ∧
      ((System.begin attempts initial.records).run (before ++ after)).Concludes := by
  have start := System.Orderly.begin reached.sound reached.fresh attempts
  rw [System.run_append] at distinct ⊢
  obtain ⟨middle, _⟩ := start.run distinct.of_run
  obtain ⟨last, endures⟩ := middle.run distinct
  exact ⟨endures, last.concludes⟩

/-- Both branches of the article are completed, one of them twice, while another edition is defined
and others ask for the state of the article. -/
def articleCrowd : Nat → Attempt
  | 0 => ⟨.complete (Uuid.ofNat 48) [("grade", .int 1)] "ada", calm 100⟩
  | 1 => ⟨.complete (Uuid.ofNat 49) [("copies", .int 7)] "ada", calm 200⟩
  | 2 => ⟨.complete (Uuid.ofNat 49) [("copies", .int 9)] "ada", calm 300⟩
  | 3 => ⟨.define { article with id := Uuid.ofNat 2, version := "2" }, calm 400⟩
  | _ + 4 => ⟨.status (Uuid.ofNat 32), calm 500⟩

def articleRound : List Nat :=
  (List.range 50).map (· % 5)

def articleThrong (schedule : List Nat) : System articleCrowd :=
  (System.begin articleCrowd (({} : World).after articleForks).records).run schedule

/-- In a first round the review is written and the edition stored. In a second one the print, which
has waited for the lock of the article, completes it. -/
theorem article_throng_endures :
    (articleThrong articleRound).written = [0] ∧
      (articleThrong (articleRound ++ articleRound)).written = [0, 1] ∧
      (articleThrong (articleRound ++ articleRound)).records.instances.map (·.status) =
        [.completed] ∧
      Endures (articleThrong articleRound).records
        (articleThrong (articleRound ++ articleRound)).records ∧
      (articleThrong (articleRound ++ articleRound)).Concludes := by
  have reached : Reachable (fun _ => True) (({} : World).after articleForks) :=
    article_forks fun _ _ => trivial
  have distinct : (articleThrong (articleRound ++ articleRound)).Distinct
      (({} : World).after articleForks).drawn :=
    @System.Distinct.of_busy _ _ _ _ [0, 1, 2, 3, 4] (by decide +kernel) (by decide +kernel)
  exact ⟨by decide +kernel, by decide +kernel, by decide +kernel,
    overlapping_calls_endure reached distinct⟩

end Workflow
