import Workflow.Proofs.Mutexes

/-! What the mutexes behind the locks guarantee: one guard for an id at a time, of the mutex that is
in the table now, and no deadlock among clients with one lock each. The table of locks that calls
use shows the mutexes, where a mutex goes to the client that has waited longest. -/

namespace Workflow

namespace LockTable

variable {Client : Type} {id : Uuid} {entries : List (Uuid × Lock Client)}

def changed (id : Uuid) (change : Lock Client → Lock Client)
    (entries : List (Uuid × Lock Client)) : List (Uuid × Lock Client) :=
  entries.map fun entry => (entry.1, if entry.1 = id then change entry.2 else entry.2)

theorem changed_absent (change : Lock Client → Lock Client)
    (absent : id ∉ entries.map Prod.fst) : changed id change entries = entries := by
  refine (List.map_congr_left fun entry member => ?_).trans (List.map_id entries)
  have different : entry.1 ≠ id := fun same => absent (same ▸ List.mem_map_of_mem member)
  rw [if_neg different]
  rfl

theorem put_absent (change : Lock Client → Lock Client) (absent : id ∉ entries.map Prod.fst)
    (rest : List (Uuid × Lock Client)) :
    put id change (entries ++ rest) = entries ++ put id change rest := by
  induction entries with
  | nil => rfl
  | cons entry later ih =>
    simp only [List.map_cons, List.mem_cons, not_or] at absent
    rw [List.cons_append, put, if_neg (Ne.symm absent.1), ih absent.2, List.cons_append]

theorem put_present (change : Lock Client → Lock Client) (single : (entries.map Prod.fst).Nodup)
    (present : id ∈ entries.map Prod.fst) : put id change entries = changed id change entries := by
  induction entries with
  | nil => cases present
  | cons entry rest ih =>
    obtain ⟨name, lock⟩ := entry
    obtain ⟨other, single⟩ := List.nodup_cons.mp single
    have first : changed id change ((name, lock) :: rest) =
        (name, if name = id then change lock else lock) :: changed id change rest := List.map_cons
    rw [put, first]
    by_cases here : name = id
    · subst here
      rw [if_pos rfl, if_pos rfl, changed_absent change other]
    · rw [if_neg here, if_neg here, ih single ((List.mem_cons.mp present).resolve_left (Ne.symm here))]

end LockTable

namespace MutexTable

variable {Client : Type} {table : MutexTable Client} {id : Uuid} {client user : Client}
  {address : Nat}

/-- Nobody refers to the mutexes of two ids. -/
def Single (table : MutexTable Client) : Prop :=
  ∀ client id other, (table.references client id).isSome →
    (table.references client other).isSome → id = other

/-- Some clients, each of which waits for a mutex that another of them holds. -/
structure Deadlocked (stuck : Client → Prop) (table : MutexTable Client) : Prop where
  somebody : ∃ client, stuck client
  waits : ∀ client, stuck client →
    ∃ id holder, table.Waits id client ∧ table.Holds id holder ∧ stuck holder

theorem Tied.holds (tied : table.Tied) (member : (id, address) ∈ table.entries)
    (held : (table.mutexes address).lock.holder = some client) : table.Holds id client := by
  refine ⟨address, ((tied.mutexes id address member).users client).mp ?_, held⟩
  rw [Lock.users, held]
  exact List.mem_cons_self

theorem Tied.exclusive (tied : table.Tied) (first : table.Holds id client)
    (second : table.Holds id user) : client = user := by
  obtain ⟨address, reference, held⟩ := first
  obtain ⟨other, present, owned⟩ := second
  have member := tied.current client id address reference
  cases tied.same_address member (tied.current user id other present)
  exact Option.some.inj (held.symm.trans owned)

/-- A client that uses a mutex came by it through the entry that is in the table now. -/
theorem Tied.refers (tied : table.Tied) (uses : table.Holds id client ∨ table.Waits id client) :
    ∃ address, table.references client id = some address ∧
      table.entries.lookup id = some address := by
  have reference : ∃ address, table.references client id = some address := by
    rcases uses with ⟨address, reference, -⟩ | ⟨address, reference, -⟩
    · exact ⟨address, reference⟩
    · exact ⟨address, reference⟩
  obtain ⟨address, reference⟩ := reference
  exact ⟨address, reference, tied.lookup (tied.current client id address reference)⟩

theorem Tied.uses_of_reference (tied : table.Tied)
    (reference : table.references client id = some address) :
    table.Holds id client ∨ table.Waits id client := by
  have mutex := tied.mutexes id address (tied.current client id address reference)
  rcases mutex.user reference with held | waits
  · exact .inl ⟨address, reference, held⟩
  · exact .inr ⟨address, reference, waits⟩

theorem Tied.not_waits (tied : table.Tied) (holds : table.Holds id client) :
    ¬ table.Waits id client := by
  rintro ⟨other, present, waits⟩
  obtain ⟨address, reference, held⟩ := holds
  cases Option.some.inj (present.symm.trans reference)
  have mutex := tied.mutexes id other (tied.current client id other present)
  exact mutex.not_holder waits held

theorem Tied.not_deadlocked (tied : table.Tied) (single : table.Single) {stuck : Client → Prop} :
    ¬ table.Deadlocked stuck := by
  rintro ⟨⟨client, first⟩, waits⟩
  obtain ⟨id, holder, -, holds, second⟩ := waits client first
  obtain ⟨other, -, awaits, -⟩ := waits holder second
  have uses : (table.references holder id).isSome := by
    obtain ⟨_, reference, -⟩ := holds
    rw [reference, Option.isSome_some]
  have same : (table.references holder other).isSome := by
    obtain ⟨_, reference, -⟩ := awaits
    rw [reference, Option.isSome_some]
  cases single holder id other uses same
  exact tied.not_waits holds awaits

/-- The locks of the mutexes in the table, without their addresses. -/
def view (table : MutexTable Client) : LockTable Client :=
  ⟨table.entries.map fun entry => (entry.1, (table.mutexes entry.2).lock)⟩

def shown (id : Uuid) (lock : Lock Client) (table : MutexTable Client) : LockTable Client :=
  ⟨table.entries.map fun entry =>
    (entry.1, if entry.1 = id then lock else (table.mutexes entry.2).lock)⟩

theorem Tied.view_replace (tied : table.Tied) (member : (id, address) ∈ table.entries)
    (mutex : Mutex Client) (references : Client → Uuid → Option Nat) :
    (table.replace address mutex references).view = table.shown id mutex.lock := by
  refine congrArg LockTable.mk (List.map_congr_left fun entry present => ?_)
  by_cases same : entry.1 = id
  · subst same
    cases tied.same_address member present
    simp only [MutexTable.replace, Function.update_self, if_true]
  · have different : entry.2 ≠ address := by
      rintro rfl
      exact same (tied.same_id present member)
    simp only [MutexTable.replace, Function.update_of_ne different, same, if_false]

theorem Tied.shown_eq (tied : table.Tied) (member : (id, address) ∈ table.entries)
    (change : Lock Client → Lock Client) :
    table.shown id (change (table.mutexes address).lock) =
      ⟨LockTable.changed id change table.view.entries⟩ := by
  rw [LockTable.changed, view, List.map_map]
  refine congrArg LockTable.mk (List.map_congr_left fun entry present => ?_)
  by_cases same : entry.1 = id
  · subst same
    cases tied.same_address member present
    rfl
  · simp only [Function.comp_apply, same, if_false]

theorem names_view : table.view.entries.map Prod.fst = table.entries.map Prod.fst := by
  rw [view, List.map_map]
  rfl

theorem lookup_view : table.view.entries.lookup id =
    (table.entries.lookup id).map fun address => (table.mutexes address).lock := by
  rw [view]
  induction table.entries with
  | nil => rfl
  | cons entry rest ih =>
    rw [List.map_cons, List.lookup_cons, List.lookup_cons, ih]
    split <;> rfl

theorem Tied.holder?_view (tied : table.Tied) :
    table.view.holder? id = some client ↔ table.Holds id client := by
  rw [LockTable.holder?, lookup_view, Option.bind_map, Option.bind_eq_some_iff]
  constructor
  · rintro ⟨address, found, held⟩
    exact tied.holds (lookup_mem found) held
  · rintro ⟨address, reference, held⟩
    exact ⟨address, tied.lookup (tied.current client id address reference), held⟩

theorem Tied.release_view (tied : table.Tied) : (table.release id).view = table.view.release id := by
  have filtered : table.view.release id = ⟨(table.entries.filter fun entry =>
      !(entry.1 = id && (table.mutexes entry.2).lock.isFree)).map fun entry =>
        (entry.1, (table.mutexes entry.2).lock)⟩ := by
    rw [LockTable.release, view, List.filter_map]
    rfl
  rw [MutexTable.release, filtered]
  split
  next address found =>
    have member := lookup_mem found
    have only {entry : Uuid × Nat} (present : entry ∈ table.entries) (same : entry.1 = id) :
        entry.2 = address := by
      subst same
      exact tied.same_address present member
    split
    next last =>
      have free := Lock.isFree_iff.mpr ((tied.unused member).mp last)
      have kept : table.entries.filter (fun entry => entry.1 ≠ id) = table.entries.filter
          fun entry => !(entry.1 = id && (table.mutexes entry.2).lock.isFree) := by
        refine List.filter_congr fun entry present => ?_
        by_cases same : entry.1 = id
        · simp [same, only present same, free]
        · simp [same]
      rw [← kept, view]
      refine congrArg LockTable.mk (List.map_congr_left fun entry inside => ?_)
      obtain ⟨present, different⟩ := List.mem_filter.mp inside
      have elsewhere : entry.2 ≠ address := by
        rintro rfl
        exact of_decide_eq_true different (tied.same_id present member)
      simp only [Function.update_of_ne elsewhere]
    next more =>
      have busy : (table.mutexes address).lock.isFree = false := by
        rw [Bool.eq_false_iff, ne_eq, Lock.isFree_iff]
        exact fun unused => more ((tied.unused member).mpr unused)
      rw [view, List.filter_eq_self.mpr]
      intro entry present
      by_cases same : entry.1 = id
      · simp [same, only present same, busy]
      · simp [same]
  next missing =>
    rw [view, List.filter_eq_self.mpr]
    intro entry present
    have different : entry.1 ≠ id := by
      rintro rfl
      rw [tied.lookup present] at missing
      cases missing
    simp [different]

theorem enter_references : (table.enter id).references = table.references := by
  rw [enter]
  split
  · rfl
  · rfl

theorem enter_entry : ∃ address, (id, address) ∈ (table.enter id).entries := by
  rw [enter]
  split
  next address found => exact ⟨address, lookup_mem found⟩
  next => exact ⟨table.made, List.mem_append_right _ List.mem_cons_self⟩

theorem Tied.enter_acquire (tied : table.Tied) :
    (table.enter id).view.acquire id client = table.view.acquire id client := by
  rw [MutexTable.enter]
  split
  next => rfl
  next missing =>
    have absent : id ∉ table.view.entries.map Prod.fst := by
      rw [names_view]
      intro member
      obtain ⟨entry, present, rfl⟩ := List.mem_map.mp member
      rw [tied.lookup present] at missing
      cases missing
    have others : table.entries.map (fun entry => (entry.1,
        (Function.update table.mutexes table.made Mutex.fresh entry.2).lock)) =
          table.view.entries := by
      refine List.map_congr_left fun entry present => ?_
      have below := Nat.ne_of_lt (tied.made entry.1 entry.2 present)
      rw [Function.update_of_ne below]
    rw [LockTable.acquire, view, List.map_append, others]
    simp only [List.map_cons, List.map_nil, Function.update_self]
    rw [LockTable.put_absent _ absent, LockTable.acquire]
    have new := LockTable.put_absent (Lock.acquire client) absent []
    rw [List.append_nil] at new
    rw [new]
    simp only [LockTable.put, if_true, Mutex.fresh]

variable [DecidableEq Client]

theorem take_eq (reference : table.references client id = some address) :
    table.take client id =
      table.replace address ((table.mutexes address).take client) table.references := by
  simp only [MutexTable.take, reference]

theorem Tied.take_holds (tied : table.Tied) (waits : table.Waits id client)
    (free : ∀ other, other ≠ client → ¬ table.Holds id other) :
    (table.take client id).Holds id client := by
  obtain ⟨address, reference, member⟩ := waits
  have present := tied.current client id address reference
  have mutex := tied.mutexes id address present
  have nobody : (table.mutexes address).lock.holder = none := by
    refine Option.eq_none_iff_forall_ne_some.mpr fun other held => ?_
    refine free other ?_ (tied.holds present held)
    rintro rfl
    exact mutex.not_holder member held
  rw [take_eq reference]
  refine ⟨address, reference, ?_⟩
  rw [replace_mutexes, Mutex.take, if_pos ⟨nobody, member⟩]

theorem drop_eq (reference : table.references client id = some address)
    (held : (table.mutexes address).lock.holder = some client) :
    table.drop client id = table.replace address (table.mutexes address).drop
      (refer client id none table.references) := by
  simp only [MutexTable.drop, reference, held, if_true]

/-- A client that waits has the mutex now, or after its holder has dropped it. -/
theorem Tied.prompt (tied : table.Tied) (waits : table.Waits id client) :
    (table.take client id).Holds id client ∨ ∃ holder, table.Holds id holder ∧
      ((table.drop holder id).take client id).Holds id client := by
  by_cases free : ∃ holder, table.Holds id holder
  · obtain ⟨holder, holds⟩ := free
    refine .inr ⟨holder, holds, tied.drop.take_holds ?_ ?_⟩
    all_goals
      obtain ⟨address, reference, held⟩ := holds
      rw [drop_eq reference held]
    · obtain ⟨other, present, member⟩ := waits
      cases tied.same_address (tied.current holder id address reference)
        (tied.current client id other present)
      have mutex := tied.mutexes id address (tied.current client id address present)
      have different : client ≠ holder := by
        rintro rfl
        exact mutex.not_holder member held
      refine ⟨address, (refer_user different).trans present, ?_⟩
      rw [replace_mutexes]
      exact member
    · rintro user - ⟨other, present, owned⟩
      by_cases same : user = holder
      · subst same
        cases refer_self.symm.trans present
      · have before := (refer_user same).symm.trans present
        cases tied.same_address (tied.current user id other before)
          (tied.current holder id address reference)
        rw [replace_mutexes] at owned
        cases owned
  · exact .inl (tied.take_holds waits fun other _ holds => free ⟨other, holds⟩)

theorem Tied.awaits_view (tied : table.Tied) :
    table.view.awaits id client = true ↔ table.Waits id client := by
  rw [LockTable.awaits, lookup_view, Option.any_map]
  constructor
  · intro awaits
    cases found : table.entries.lookup id with
    | none =>
      rw [found] at awaits
      cases awaits
    | some address =>
      rw [found] at awaits
      have member := List.contains_iff_mem.mp awaits
      have users := (tied.mutexes id address (lookup_mem found)).users client
      exact ⟨address, users.mp (List.mem_append_right _ member), member⟩
  · rintro ⟨address, reference, member⟩
    rw [tied.lookup (tied.current client id address reference)]
    exact List.contains_iff_mem.mpr member

theorem Tied.acquire_present (tied : table.Tied) (member : (id, address) ∈ table.entries)
    (new : table.references client id = none) :
    ((table.connect client id).take client id).view = table.view.acquire id client := by
  have found := tied.lookup member
  have connected : table.connect client id =
      table.replace address ((table.mutexes address).join client)
        (refer client id (some address) table.references) := by
    simp only [MutexTable.connect, new, found]
  have absent : client ∉ (table.mutexes address).lock.waiting := by
    intro waits
    have users := (tied.mutexes id address member).users client
    rw [new] at users
    cases users.mp (List.mem_append_right _ waits)
  have named : id ∈ table.view.entries.map Prod.fst := by
    rw [names_view]
    exact List.mem_map_of_mem member
  have single : (table.view.entries.map Prod.fst).Nodup := by
    rw [names_view]
    exact tied.named
  rw [connected, take_eq refer_self, replace_replace, replace_mutexes, tied.view_replace member,
    Mutex.join_take absent, tied.shown_eq member, LockTable.acquire,
    LockTable.put_present _ single named]

/-- A client that asks for a lock takes it, or waits behind the others. -/
theorem Tied.acquire_view (tied : table.Tied) (new : table.references client id = none) :
    (table.run [.reach client id, .take client id]).view = table.view.acquire id client := by
  have entered : (table.enter id).Tied := tied.enter
  obtain ⟨address, member⟩ : ∃ address, (id, address) ∈ (table.enter id).entries := enter_entry
  rw [← tied.enter_acquire]
  refine entered.acquire_present member ?_
  rw [enter_references]
  exact new

/-- How a client gives its lock back in the order of arrival, or stops waiting for it. -/
def leaving (client : Client) (id : Uuid) (table : MutexTable Client) : List (LockStep Client) :=
  match table.references client id with
  | none => []
  | some address =>
    if (table.mutexes address).lock.holder = some client then
      .drop client id :: ((table.mutexes address).lock.waiting.take 1).map fun first =>
        .take first id
    else [.abandon client id]

theorem Tied.leave_view (tied : table.Tied) :
    (table.run (table.leaving client id)).view = table.view.leave id client := by
  have leave : table.view.leave id client =
      ⟨LockTable.changed id (Lock.leave client) table.view.entries⟩ := rfl
  rw [leave, leaving]
  split
  next missing =>
    change table.view = _
    refine congrArg LockTable.mk (Eq.symm ?_)
    rw [LockTable.changed, view, List.map_map]
    refine List.map_congr_left fun entry present => ?_
    by_cases same : entry.1 = id
    · subst same
      have absent : client ∉ (table.mutexes entry.2).lock.users := by
        rw [(tied.mutexes entry.1 entry.2 present).users, missing]
        exact nofun
      simp only [Function.comp_apply, if_true, Lock.leave_absent absent]
    · simp only [Function.comp_apply, same, if_false]
  next address reference =>
    have member := tied.current client id address reference
    have mutex := tied.mutexes id address member
    split
    next held =>
      cases queue : (table.mutexes address).lock.waiting with
      | nil =>
        change (table.drop client id).view = _
        rw [drop_eq reference held, tied.view_replace member, Mutex.drop_free held queue,
          tied.shown_eq member]
      | cons first rest =>
        change ((table.drop client id).take first id).view = _
        have waits : table.references first id = some address := by
          refine (mutex.users first).mp (List.mem_append_right _ ?_)
          rw [queue]
          exact List.mem_cons_self
        have different : first ≠ client := by
          rintro rfl
          refine mutex.not_holder ?_ held
          rw [queue]
          exact List.mem_cons_self
        rw [drop_eq reference held, take_eq ((refer_user different).trans waits), replace_replace,
          replace_mutexes, tied.view_replace member, Mutex.drop_take held queue,
          tied.shown_eq member]
    next apart =>
      have waits := (mutex.user reference).resolve_left apart
      have abandoned : table.abandon client id =
          table.replace address ((table.mutexes address).abandon client)
            (refer client id none table.references) := by
        simp only [MutexTable.abandon, reference, waits, if_true]
      change (table.abandon client id).view = _
      rw [abandoned, tied.view_replace member, Mutex.abandon_lock apart, tied.shown_eq member]

/-- What the mutexes of a table guarantee to its clients, and that the table of locks shows them:
each of its functions is what some steps at the mutexes do. -/
structure Guarded (table : MutexTable Client) : Prop where
  exclusive : ∀ id first second, table.Holds id first → table.Holds id second → first = second
  refers : ∀ id client, table.Holds id client ∨ table.Waits id client →
    ∃ address, table.references client id = some address ∧
      table.entries.lookup id = some address
  takes : ∀ id client, table.Waits id client →
    (∀ other, other ≠ client → ¬ table.Holds id other) → (table.take client id).Holds id client
  prompt : ∀ id client, table.Waits id client →
    (table.take client id).Holds id client ∨ ∃ holder, table.Holds id holder ∧
      ((table.drop holder id).take client id).Holds id client
  flows : table.Single → ∀ stuck, ¬ table.Deadlocked stuck
  acquires : ∀ id client, table.references client id = none →
    (table.run [.reach client id, .take client id]).view = table.view.acquire id client
  leaves : ∀ id client, (table.run (table.leaving client id)).view = table.view.leave id client
  releases : ∀ id, (table.run [.release id]).view = table.view.release id

theorem Tied.guarded (tied : table.Tied) : table.Guarded where
  exclusive _ _ _ first second := tied.exclusive first second
  refers _ _ uses := tied.refers uses
  takes _ _ waits free := tied.take_holds waits free
  prompt _ _ waits := tied.prompt waits
  flows single _ := tied.not_deadlocked single
  acquires _ _ new := tied.acquire_view new
  leaves _ _ := tied.leave_view
  releases _ := tied.release_view

/-- After any steps of any clients, in any order. -/
theorem mutexes_stay_guarded (schedule : List (LockStep Client)) :
    (({} : MutexTable Client).run schedule).Guarded :=
  (tied_empty.run schedule).guarded

-- An entry stays while its mutex is held, and the client that comes after its removal gets another
-- mutex.
example :
    let first := (({} : MutexTable Nat).run
      [.reach 0 default, .take 0 default, .release default])
    let later := first.run [.drop 0 default, .release default, .reach 1 default]
    first.entries = [(default, 0)] ∧ later.entries = [(default, 1)] := by
  decide

/-- What a request of a call does to the locks is what some steps at the mutexes do. -/
theorem Tied.follows {table : MutexTable Nat} (tied : table.Tied) {α : Type}
    (operation : Request α) (client : Nat) :
    ∃ steps, (table.run steps).view = operation.changeLocks client table.view := by
  cases operation with
  | acquire target =>
    simp only [Request.changeLocks]
    split
    next => exact ⟨[], rfl⟩
    next idle =>
      refine ⟨[.reach client target, .take client target], tied.acquire_view ?_⟩
      refine Option.eq_none_iff_forall_ne_some.mpr fun address reference => idle ?_
      rw [tied.holder?_view, tied.awaits_view]
      exact tied.uses_of_reference reference
  | leave target => exact ⟨table.leaving client target, tied.leave_view⟩
  | release target => exact ⟨[.release target], tied.release_view⟩
  | _ => exact ⟨[], rfl⟩

end MutexTable

namespace System

variable {attempts : Nat → Attempt}

theorem locks_step (system : System attempts) (i : Nat) :
    (system.step i).locks = system.locks ∨ ∃ (α : Type) (operation : Request α),
      (system.step i).locks = operation.changeLocks i system.locks := by
  cases rest : (system.clients i).rest with
  | done result =>
    rw [step_done rest]
    exact .inl rfl
  | request operation next =>
    refine .inr ⟨_, operation, ?_⟩
    cases free : operation.isBlocked i system.locks with
    | true => rw [step_blocked rest free]
    | false => rw [step_served rest free rfl]

/-- The locks of calls under way show mutexes that some steps led to. -/
def Shows (system : System attempts) : Prop :=
  ∃ steps, system.locks = (({} : MutexTable Nat).run steps).view

theorem Shows.step {system : System attempts} (shows : system.Shows) (i : Nat) :
    (system.step i).Shows := by
  obtain ⟨steps, shown⟩ := shows
  rcases system.locks_step i with same | ⟨α, operation, changed⟩
  · exact ⟨steps, same.trans shown⟩
  · obtain ⟨more, follows⟩ := (MutexTable.tied_empty.run steps).follows operation i
    refine ⟨steps ++ more, ?_⟩
    rw [changed, shown, MutexTable.run_append, follows]

theorem locks_guarded (records : MemoryStore) (schedule : List Nat) :
    ((begin attempts records).run schedule).Shows := by
  suffices later : ∀ system : System attempts, system.Shows → (system.run schedule).Shows from
    later _ ⟨[], rfl⟩
  induction schedule with
  | nil => exact fun _ shows => shows
  | cons i rest ih => exact fun system shows => ih (system.step i) (shows.step i)

end System

end Workflow
