import Mathlib.Logic.Function.Basic
import Workflow.Proofs.Histories

/-! Calls that are under way at once over the same records. Each makes one request at a time, in
any order; what it meets, apart from the records and the locks, is its own. -/

namespace Workflow

namespace LockTable

variable {Client : Type}

def holder? (id : Uuid) (table : LockTable Client) : Option Client :=
  (table.entries.lookup id).bind (·.holder)

variable {table : LockTable Client} {id other : Uuid} {client asking : Client}

theorem holder?_eq_some :
    table.holder? id = some client ↔
      ∃ lock, table.entries.lookup id = some lock ∧ lock.holder = some client :=
  Option.bind_eq_some_iff

private theorem lookup_here {lock present : Lock Client} {rest : List (Uuid × Lock Client)}
    (found : ((id, present) :: rest).lookup id = some lock) : present = lock :=
  Option.some.inj (List.lookup_cons_self.symm.trans found)

private theorem lookup_later {first : Uuid} (different : id ≠ first) (present : Lock Client)
    (rest : List (Uuid × Lock Client)) :
    ((first, present) :: rest).lookup id = rest.lookup id := by
  rw [List.lookup_cons, beq_eq_false_iff_ne.mpr different]

private theorem lookup_put (update : Lock Client → Lock Client)
    {entries : List (Uuid × Lock Client)} {lock : Lock Client}
    (found : entries.lookup id = some lock) :
    (put other update entries).lookup id = some (if other = id then update lock else lock) := by
  induction entries with
  | nil => cases found
  | cons entry rest ih =>
    obtain ⟨first, present⟩ := entry
    by_cases here : id = first
    · subst here
      cases lookup_here found
      by_cases same : id = other
      · subst same
        rw [put, if_pos rfl, List.lookup_cons_self, if_pos rfl]
      · rw [put, if_neg same, List.lookup_cons_self, if_neg (Ne.symm same)]
    · rw [lookup_later here] at found
      by_cases same : first = other
      · subst same
        rw [put, if_pos rfl, lookup_later here, found, if_neg (Ne.symm here)]
      · rw [put, if_neg same, lookup_later here, ih found]

private theorem lookup_map (update : Uuid → Lock Client → Lock Client)
    {entries : List (Uuid × Lock Client)} {lock : Lock Client}
    (found : entries.lookup id = some lock) :
    (entries.map fun entry => (entry.1, update entry.1 entry.2)).lookup id =
      some (update id lock) := by
  induction entries with
  | nil => cases found
  | cons entry rest ih =>
    obtain ⟨first, present⟩ := entry
    by_cases here : id = first
    · subst here
      cases lookup_here found
      rw [List.map_cons, List.lookup_cons_self]
    · rw [lookup_later here] at found
      rw [List.map_cons, lookup_later here, ih found]

private theorem lookup_filter (keeps : Uuid × Lock Client → Bool)
    {entries : List (Uuid × Lock Client)} {lock : Lock Client}
    (found : entries.lookup id = some lock) (kept : keeps (id, lock) = true) :
    (entries.filter keeps).lookup id = some lock := by
  induction entries with
  | nil => cases found
  | cons entry rest ih =>
    obtain ⟨first, present⟩ := entry
    by_cases here : id = first
    · subst here
      cases lookup_here found
      rw [List.filter_cons_of_pos kept, List.lookup_cons_self]
    · rw [lookup_later here] at found
      rw [List.filter_cons]
      split
      · rw [lookup_later here, ih found]
      · exact ih found

theorem holder?_release (held : table.holder? id = some client) :
    (table.release other).holder? id = some client := by
  obtain ⟨lock, found, holds⟩ := holder?_eq_some.mp held
  have kept : (!(decide (id = other) && lock.isFree)) = true := by simp [Lock.isFree, holds]
  exact holder?_eq_some.mpr ⟨lock, lookup_filter _ found kept, holds⟩

theorem holder?_acquire (held : table.holder? id = some client) :
    (table.acquire other asking).holder? id = some client := by
  obtain ⟨lock, found, holds⟩ := holder?_eq_some.mp held
  refine holder?_eq_some.mpr ⟨_, lookup_put _ found, ?_⟩
  split
  · simp only [Lock.acquire, holds]
  · exact holds

variable [DecidableEq Client]

def awaits (id : Uuid) (client : Client) (table : LockTable Client) : Bool :=
  (table.entries.lookup id).any fun lock => lock.waiting.contains client

theorem holder?_leave (held : table.holder? id = some client) (different : asking ≠ client) :
    (table.leave other asking).holder? id = some client := by
  obtain ⟨lock, found, holds⟩ := holder?_eq_some.mp held
  have kept : lock.holder ≠ some asking := by
    rw [holds]
    exact fun same => different (Option.some.inj same).symm
  refine holder?_eq_some.mpr ⟨_, lookup_map (fun key lock =>
    if key = other then lock.leave asking else lock) found, ?_⟩
  split
  · rw [Lock.leave, if_neg kept]
    exact holds
  · exact holds

end LockTable

/-- A call under way: what it still has to do, and what it has asked for, drawn and sent. -/
structure Client (attempt : Attempt) where
  rest : Program (Except Failure attempt.Answer)
  asked : Nat := 0
  drawn : List Uuid := []
  sent : List TaskAssignment := []

namespace Client

variable {attempt : Attempt}

def begin (attempt : Attempt) : Client attempt :=
  { rest := attempt.call.operation.run }

def view (client : Client attempt) (records : MemoryStore) : World :=
  { records, asked := client.asked, drawn := client.drawn, sent := client.sent }

def resume (client : Client attempt) (rest : Program (Except Failure attempt.Answer))
    (view : World) : Client attempt :=
  { client with rest, asked := view.asked, drawn := view.drawn, sent := view.sent }

end Client

namespace Request

def wants? {α : Type} : Request α → Option Uuid
  | acquire target => some target
  | _ => none

def isBlocked {α : Type} (client : Nat) (locks : LockTable Nat) (operation : Request α) : Bool :=
  operation.wants?.any fun target => locks.holder? target ≠ some client

/-- What a request does to the locks. A client queues for a lock once. -/
def changeLocks {α : Type} (client : Nat) (locks : LockTable Nat) : Request α → LockTable Nat
  | acquire target =>
    if locks.holder? target = some client ∨ locks.awaits target client then locks
    else locks.acquire target client
  | leave target => locks.leave target client
  | release target => locks.release target
  | _ => locks

/-- A request of one client takes no lock from another. -/
theorem holder?_changeLocks {α : Type} (operation : Request α) {locks : LockTable Nat}
    {client other : Nat} {target : Uuid} (held : locks.holder? target = some other)
    (different : client ≠ other) : (operation.changeLocks client locks).holder? target = some other := by
  cases operation with
  | acquire wanted =>
    simp only [changeLocks]
    split
    · exact held
    · exact LockTable.holder?_acquire held
  | leave given => exact LockTable.holder?_leave held different
  | release given => exact LockTable.holder?_release held
  | _ => exact held

def writes {α : Type} (moment : Moment) : Request α → Bool
  | store (.commit _) => moment.fault.isNone
  | _ => false

end Request

/-- Calls under way, one for each number. -/
structure System (attempts : Nat → Attempt) where
  records : MemoryStore
  locks : LockTable Nat := {}
  clients : (i : Nat) → Client (attempts i) := fun i => .begin (attempts i)
  /-- The calls that have written their changes, in the order in which they did. -/
  written : List Nat := []

namespace System

variable {attempts : Nat → Attempt}

/-- The next request of one call is answered, unless it has to wait for a lock. -/
def step (system : System attempts) (i : Nat) : System attempts :=
  match (system.clients i).rest with
  | .done _ => system
  | .request operation next =>
    let locks := operation.changeLocks i system.locks
    if operation.isBlocked i system.locks then { system with locks }
    else
      let (answer, view) := ((system.clients i).view system.records).serve (attempts i).moments operation
      { records := view.records
        locks
        clients := Function.update system.clients i ((system.clients i).resume (next answer) view)
        written :=
          if operation.writes ((attempts i).moments (system.clients i).asked) then
            system.written ++ [i]
          else system.written }

theorem step_done {system : System attempts} {i : Nat} {result : Except Failure (attempts i).Answer}
    (rest : (system.clients i).rest = .done result) : system.step i = system := by
  simp only [step, rest]

theorem step_blocked {system : System attempts} {i : Nat} {β : Type} {operation : Request β}
    {next : β → Program (Except Failure (attempts i).Answer)}
    (rest : (system.clients i).rest = .request operation next)
    (blocked : operation.isBlocked i system.locks = true) :
    system.step i = { system with locks := operation.changeLocks i system.locks } := by
  simp only [step, rest, blocked, if_true]

theorem step_served {system : System attempts} {i : Nat} {β : Type} {operation : Request β}
    {next : β → Program (Except Failure (attempts i).Answer)}
    (rest : (system.clients i).rest = .request operation next)
    (free : operation.isBlocked i system.locks = false) {answer : β} {view : World}
    (served : ((system.clients i).view system.records).serve (attempts i).moments operation =
      (answer, view)) :
    system.step i =
      { records := view.records
        locks := operation.changeLocks i system.locks
        clients := Function.update system.clients i ((system.clients i).resume (next answer) view)
        written :=
          if operation.writes ((attempts i).moments (system.clients i).asked) then
            system.written ++ [i]
          else system.written } := by
  simp only [step, rest, free, served]
  rfl

def run (system : System attempts) (schedule : List Nat) : System attempts :=
  schedule.foldl step system

theorem run_append (system : System attempts) (before after : List Nat) :
    system.run (before ++ after) = (system.run before).run after :=
  List.foldl_append

def begin (attempts : Nat → Attempt) (records : MemoryStore) : System attempts := { records }

/-- No identifier is drawn twice, by one call or by two, or was drawn before. -/
structure Distinct (drawn : List Uuid) (system : System attempts) : Prop where
  own : ∀ i, (system.clients i).drawn.Nodup
  new : ∀ i, ∀ id ∈ (system.clients i).drawn, id ∉ drawn
  apart : ∀ i j, i ≠ j → ∀ id ∈ (system.clients i).drawn, id ∉ (system.clients j).drawn

theorem Distinct.nodup_append {drawn known : List Uuid} {system : System attempts}
    (distinct : system.Distinct drawn) (single : known.Nodup) {i : Nat} {others : List Nat}
    (other : i ∉ others)
    (origin : ∀ id ∈ known, id ∈ drawn ∨ ∃ j ∈ others, id ∈ (system.clients j).drawn) :
    ((system.clients i).drawn ++ known).Nodup := by
  refine List.nodup_append.mpr ⟨distinct.own i, single, fun id mine second before equal => ?_⟩
  subst equal
  rcases origin id before with first | ⟨j, member, theirs⟩
  · exact distinct.new i id mine first
  · exact distinct.apart i j (fun same => other (same ▸ member)) id mine theirs

theorem drawn_step (system : System attempts) (i j : Nat) :
    ∃ drawn, ((system.step i).clients j).drawn = drawn ++ (system.clients j).drawn := by
  cases rest : (system.clients i).rest with
  | done result =>
    rw [step_done rest]
    exact ⟨[], rfl⟩
  | request operation next =>
    cases free : operation.isBlocked i system.locks with
    | true =>
      rw [step_blocked rest free]
      exact ⟨[], rfl⟩
    | false =>
      rw [step_served rest free rfl]
      by_cases same : j = i
      · subst same
        simp only [Function.update_self]
        exact World.drawn_serve operation
      · simp only [Function.update_of_ne same]
        exact ⟨[], rfl⟩

theorem clients_step_other (system : System attempts) {i j : Nat} (different : j ≠ i) :
    (system.step i).clients j = system.clients j := by
  cases rest : (system.clients i).rest with
  | done result => rw [step_done rest]
  | request operation next =>
    cases free : operation.isBlocked i system.locks with
    | true => rw [step_blocked rest free]
    | false =>
      rw [step_served rest free rfl]
      exact Function.update_of_ne different _ _

theorem written_step (system : System attempts) (i : Nat) :
    ∃ later, (system.step i).written = system.written ++ later := by
  cases rest : (system.clients i).rest with
  | done result =>
    rw [step_done rest]
    exact ⟨[], (List.append_nil _).symm⟩
  | request operation next =>
    cases free : operation.isBlocked i system.locks with
    | true =>
      rw [step_blocked rest free]
      exact ⟨[], (List.append_nil _).symm⟩
    | false =>
      rw [step_served rest free rfl]
      simp only
      split
      · exact ⟨[i], rfl⟩
      · exact ⟨[], (List.append_nil _).symm⟩

theorem written_run (system : System attempts) (schedule : List Nat) :
    ∃ later, (system.run schedule).written = system.written ++ later := by
  induction schedule generalizing system with
  | nil => exact ⟨[], (List.append_nil _).symm⟩
  | cons i rest ih =>
    obtain ⟨first, start⟩ := system.written_step i
    obtain ⟨later, grown⟩ := ih (system.step i)
    exact ⟨first ++ later, by rw [run, List.foldl_cons, ← run, grown, start, List.append_assoc]⟩

theorem Distinct.of_step {drawn : List Uuid} {system : System attempts} {i : Nat}
    (distinct : (system.step i).Distinct drawn) : system.Distinct drawn where
  own j := by
    obtain ⟨later, grown⟩ := system.drawn_step i j
    have own := distinct.own j
    rw [grown] at own
    exact (List.nodup_append.mp own).2.1
  new j id member := by
    obtain ⟨later, grown⟩ := system.drawn_step i j
    apply distinct.new j id
    rw [grown]
    exact List.mem_append_right _ member
  apart j k different id first second := by
    obtain ⟨later, grown⟩ := system.drawn_step i j
    obtain ⟨last, others⟩ := system.drawn_step i k
    apply distinct.apart j k different id
    · rw [grown]
      exact List.mem_append_right _ first
    · rw [others]
      exact List.mem_append_right _ second

theorem clients_run_other (system : System attempts) {schedule : List Nat} {i : Nat}
    (idle : i ∉ schedule) : (system.run schedule).clients i = system.clients i := by
  induction schedule generalizing system with
  | nil => rfl
  | cons j rest ih =>
    simp only [List.mem_cons, not_or] at idle
    rw [run, List.foldl_cons, ← run, ih _ idle.2, system.clients_step_other idle.1]

theorem Distinct.of_run {drawn : List Uuid} {schedule : List Nat} {system : System attempts}
    (distinct : (system.run schedule).Distinct drawn) : system.Distinct drawn := by
  induction schedule generalizing system with
  | nil => exact distinct
  | cons i rest ih => exact (@ih (system.step i) distinct).of_step

/-- It is enough to look at the calls that take steps. -/
theorem Distinct.of_busy {drawn : List Uuid} {records : MemoryStore} {schedule : List Nat}
    {busy : List Nat} (taken : ∀ i ∈ schedule, i ∈ busy)
    (distinct : ∀ i ∈ busy, (((begin attempts records).run schedule).clients i).drawn.Nodup ∧
      ∀ id ∈ (((begin attempts records).run schedule).clients i).drawn, id ∉ drawn ∧
        ∀ j ∈ busy, i ≠ j → id ∉ (((begin attempts records).run schedule).clients j).drawn) :
    ((begin attempts records).run schedule).Distinct drawn := by
  have idle {i : Nat} (free : i ∉ busy) :
      (((begin attempts records).run schedule).clients i).drawn = [] := by
    rw [clients_run_other _ fun steps => free (taken i steps)]
    rfl
  have mine {i : Nat} {id : Uuid}
      (member : id ∈ (((begin attempts records).run schedule).clients i).drawn) : i ∈ busy :=
    Decidable.of_not_not fun free => nomatch (idle free) ▸ member
  refine ⟨fun i => ?_, ?_, ?_⟩
  · by_cases working : i ∈ busy
    · exact (distinct i working).1
    · rw [idle working]
      exact List.nodup_nil
  · intro i id member
    exact ((distinct i (mine member)).2 id member).1
  · intro i j different id first second
    exact ((distinct i (mine first)).2 id first).2 j (mine second) different second

end System

end Workflow
