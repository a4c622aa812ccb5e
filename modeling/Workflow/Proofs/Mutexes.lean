import Mathlib.Data.List.Nodup
import Workflow.Proofs.Interleaving

/-! The mutexes behind the locks of instances. The table has one reference to the mutex of each of
its entries, and every client that holds a mutex or waits for it has another. An entry is removed
while the table's reference is the only one, and the next client makes a new mutex for it. -/

namespace Workflow

namespace Lock

variable {Client : Type}

def users (lock : Lock Client) : List Client :=
  lock.holder.toList ++ lock.waiting

theorem isFree_iff {lock : Lock Client} : lock.isFree = true ↔ lock.users = [] := by
  obtain ⟨holder, waiting⟩ := lock
  cases holder <;> simp [isFree, users]

theorem leave_absent [DecidableEq Client] {lock : Lock Client} {client : Client}
    (absent : client ∉ lock.users) : lock.leave client = lock := by
  rw [users, List.mem_append, Option.mem_toList, not_or] at absent
  rw [leave, if_neg absent.1, List.erase_of_not_mem absent.2]

end Lock

structure Mutex (Client : Type) where
  lock : Lock Client := ⟨none, []⟩
  references : Nat := 0

namespace Mutex

variable {Client : Type} {refers : Client → Prop} {mutex other : Mutex Client}
  {client : Client}

def fresh : Mutex Client where
  references := 1

def join (client : Client) (mutex : Mutex Client) : Mutex Client :=
  ⟨⟨mutex.lock.holder, mutex.lock.waiting ++ [client]⟩, mutex.references + 1⟩

def drop (mutex : Mutex Client) : Mutex Client :=
  ⟨⟨none, mutex.lock.waiting⟩, mutex.references - 1⟩

/-- The users of a mutex are those who refer to it, each once, and the table has one reference
more. -/
structure Tied (refers : Client → Prop) (mutex : Mutex Client) : Prop where
  users : ∀ client, client ∈ mutex.lock.users ↔ refers client
  single : mutex.lock.users.Nodup
  counted : mutex.references = mutex.lock.users.length + 1

theorem tied_fresh (nobody : ∀ client, ¬ refers client) :
    (fresh : Mutex Client).Tied refers where
  users client := iff_of_false List.not_mem_nil (nobody client)
  single := List.nodup_nil
  counted := rfl

theorem Tied.perm (tied : mutex.Tied refers) (same : other.lock.users.Perm mutex.lock.users)
    (count : other.references = mutex.references) : other.Tied refers where
  users client := same.mem_iff.trans (tied.users client)
  single := same.nodup_iff.mpr tied.single
  counted := by rw [count, tied.counted, same.length_eq]

theorem Tied.join (tied : mutex.Tied refers) (new : ¬ refers client) :
    (mutex.join client).Tied fun user => user = client ∨ refers user := by
  have users : (mutex.join client).lock.users = mutex.lock.users ++ [client] :=
    (List.append_assoc ..).symm
  refine ⟨fun user => ?_, ?_, ?_⟩
  · rw [users, List.mem_append, List.mem_singleton, tied.users, or_comm]
  · rw [users]
    refine List.nodup_append.mpr ⟨tied.single, List.nodup_singleton _, ?_⟩
    intro user before _ last same
    cases List.mem_singleton.mp last
    exact new ((tied.users client).mp (same ▸ before))
  · rw [users, List.length_append, List.length_singleton]
    exact congrArg (· + 1) tied.counted

theorem Tied.user (tied : mutex.Tied refers) (mine : refers client) :
    mutex.lock.holder = some client ∨ client ∈ mutex.lock.waiting := by
  have member := (tied.users client).mpr mine
  rw [Lock.users, List.mem_append, Option.mem_toList] at member
  exact member

theorem Tied.not_holder (tied : mutex.Tied refers) (waits : client ∈ mutex.lock.waiting) :
    mutex.lock.holder ≠ some client := by
  intro held
  have single := tied.single
  rw [Lock.users, held] at single
  exact (List.nodup_cons.mp single).1 waits

variable [DecidableEq Client]

/-- A mutex that nobody holds goes to whoever asks first among those that wait for it. -/
def take (client : Client) (mutex : Mutex Client) : Mutex Client :=
  if mutex.lock.holder = none ∧ client ∈ mutex.lock.waiting then
    ⟨⟨some client, mutex.lock.waiting.erase client⟩, mutex.references⟩
  else mutex

def abandon (client : Client) (mutex : Mutex Client) : Mutex Client :=
  ⟨⟨mutex.lock.holder, mutex.lock.waiting.erase client⟩, mutex.references - 1⟩

theorem Tied.take (tied : mutex.Tied refers) : (mutex.take client).Tied refers := by
  rw [Mutex.take]
  split
  next able =>
    obtain ⟨free, member⟩ := able
    refine tied.perm ?_ rfl
    simp only [Lock.users, free, Option.toList_some, Option.toList_none, List.nil_append,
      List.singleton_append]
    exact (List.perm_cons_erase member).symm
  next => exact tied

theorem Tied.leave (tied : mutex.Tied refers) (member : client ∈ mutex.lock.users)
    (rest : other.lock.users = mutex.lock.users.erase client)
    (count : other.references = mutex.references - 1) :
    other.Tied fun user => user ≠ client ∧ refers user where
  users user := by rw [rest, tied.single.mem_erase_iff, tied.users]
  single := rest ▸ tied.single.erase client
  counted := by
    have length := List.length_erase_of_mem member
    have occupied := List.length_pos_of_mem member
    rw [count, rest, tied.counted, length]
    omega

theorem Tied.drop (tied : mutex.Tied refers) (held : mutex.lock.holder = some client) :
    mutex.drop.Tied fun user => user ≠ client ∧ refers user := by
  apply tied.leave _ _ rfl
  · simp [Lock.users, held]
  · simp [Lock.users, Mutex.drop, held]

theorem Tied.abandon (tied : mutex.Tied refers) (waits : client ∈ mutex.lock.waiting) :
    (mutex.abandon client).Tied fun user => user ≠ client ∧ refers user := by
  have apart := tied.not_holder waits
  apply tied.leave (List.mem_append_right _ waits) _ rfl
  rw [Lock.users, Lock.users, Mutex.abandon, List.erase_append_right]
  simpa using apart

/-- Whoever comes takes a mutex that nobody holds, and waits behind the others otherwise. -/
theorem join_take (absent : client ∉ mutex.lock.waiting) :
    ((mutex.join client).take client).lock = mutex.lock.acquire client := by
  obtain ⟨⟨holder, waiting⟩, references⟩ := mutex
  cases holder with
  | none => simp [join, Mutex.take, Lock.acquire, List.erase_append_right [client] absent]
  | some holder => simp [join, Mutex.take, Lock.acquire]

/-- A mutex that is dropped goes to the first that waits. -/
theorem drop_take {first : Client} {rest : List Client} (held : mutex.lock.holder = some client)
    (queue : mutex.lock.waiting = first :: rest) :
    (mutex.drop.take first).lock = mutex.lock.leave client := by
  simp [Mutex.drop, Mutex.take, Lock.leave, held, queue]

theorem drop_free (held : mutex.lock.holder = some client) (last : mutex.lock.waiting = []) :
    mutex.drop.lock = mutex.lock.leave client := by
  simp [Mutex.drop, Lock.leave, held, last]

theorem abandon_lock (waits : mutex.lock.holder ≠ some client) :
    (mutex.abandon client).lock = mutex.lock.leave client := by
  simp [abandon, Lock.leave, waits]

end Mutex

inductive LockStep (Client : Type)
  | reach (client : Client) (id : Uuid)
  | take (client : Client) (id : Uuid)
  | drop (client : Client) (id : Uuid)
  | abandon (client : Client) (id : Uuid)
  | release (id : Uuid)

/-- The entries of the table with the addresses of their mutexes, and for each client the mutex
that it refers to under an id. The mutexes that were made so far have the addresses below
`made`. -/
structure MutexTable (Client : Type) where
  entries : List (Uuid × Nat) := []
  mutexes : Nat → Mutex Client := fun _ => {}
  made : Nat := 0
  references : Client → Uuid → Option Nat := fun _ _ => none

namespace MutexTable

variable {Client : Type} {table : MutexTable Client} {id key : Uuid} {client user : Client}
  {address : Nat}

def Holds (id : Uuid) (client : Client) (table : MutexTable Client) : Prop :=
  ∃ address, table.references client id = some address ∧
    (table.mutexes address).lock.holder = some client

def Waits (id : Uuid) (client : Client) (table : MutexTable Client) : Prop :=
  ∃ address, table.references client id = some address ∧
    client ∈ (table.mutexes address).lock.waiting

def replace (address : Nat) (mutex : Mutex Client) (references : Client → Uuid → Option Nat)
    (table : MutexTable Client) : MutexTable Client :=
  { table with mutexes := Function.update table.mutexes address mutex, references }

def enter (id : Uuid) (table : MutexTable Client) : MutexTable Client :=
  match table.entries.lookup id with
  | some _ => table
  | none =>
    { table with
      entries := table.entries ++ [(id, table.made)]
      mutexes := Function.update table.mutexes table.made .fresh
      made := table.made + 1 }

def release (id : Uuid) (table : MutexTable Client) : MutexTable Client :=
  match table.entries.lookup id with
  | some address =>
    if (table.mutexes address).references = 1 then
      { table with
        entries := table.entries.filter fun entry => entry.1 ≠ id
        mutexes := Function.update table.mutexes address
          { table.mutexes address with references := 0 } }
    else table
  | none => table

/-- An entry is the only way to its mutex, which is tied to the clients that came by it. -/
structure Tied (table : MutexTable Client) : Prop where
  named : (table.entries.map Prod.fst).Nodup
  apart : (table.entries.map Prod.snd).Nodup
  made : ∀ id address, (id, address) ∈ table.entries → address < table.made
  current : ∀ client id address, table.references client id = some address →
    (id, address) ∈ table.entries
  mutexes : ∀ id address, (id, address) ∈ table.entries →
    (table.mutexes address).Tied fun client => table.references client id = some address

theorem replace_mutexes (address : Nat) (mutex : Mutex Client)
    (references : Client → Uuid → Option Nat) :
    (table.replace address mutex references).mutexes address = mutex :=
  Function.update_self ..

theorem replace_replace (address : Nat) (mutex other : Mutex Client)
    (references further : Client → Uuid → Option Nat) :
    (table.replace address mutex references).replace address other further =
      table.replace address other further := by
  simp only [replace, Function.update_idem]

theorem lookup_mem {entries : List (Uuid × Nat)} (found : entries.lookup id = some address) :
    (id, address) ∈ entries := by
  obtain ⟨before, after, rfl, -⟩ := List.lookup_eq_some_iff.mp found
  exact List.mem_append_right _ List.mem_cons_self

theorem Tied.lookup (tied : table.Tied) (member : (id, address) ∈ table.entries) :
    table.entries.lookup id = some address := by
  obtain ⟨before, after, split⟩ := List.append_of_mem member
  have named := tied.named
  rw [split, List.map_append, List.nodup_append] at named
  refine List.lookup_eq_some_iff.mpr ⟨before, after, split, fun entry first => ?_⟩
  have different := named.2.2 entry.1 (List.mem_map_of_mem first) id List.mem_cons_self
  exact bne_iff_ne.mpr different.symm

theorem Tied.same_address (tied : table.Tied) {other : Nat}
    (first : (id, address) ∈ table.entries) (second : (id, other) ∈ table.entries) :
    address = other :=
  Option.some.inj ((tied.lookup first).symm.trans (tied.lookup second))

theorem Tied.same_id (tied : table.Tied) (first : (id, address) ∈ table.entries)
    (second : (key, address) ∈ table.entries) : id = key :=
  congrArg Prod.fst (List.inj_on_of_nodup_map tied.apart first second rfl)

theorem Tied.absent (tied : table.Tied) (missing : table.entries.lookup id = none) :
    table.references client id = none := by
  cases reference : table.references client id with
  | none => rfl
  | some address =>
    rw [tied.lookup (tied.current client id address reference)] at missing
    cases missing

theorem tied_empty : ({} : MutexTable Client).Tied where
  named := List.nodup_nil
  apart := List.nodup_nil
  made _ _ member := nomatch member
  current _ _ _ reference := nomatch reference
  mutexes _ _ member := nomatch member

/-- What is done to the mutex of one entry does not touch the others. -/
theorem Tied.replace (tied : table.Tied) (member : (id, address) ∈ table.entries)
    {mutex : Mutex Client} {references : Client → Uuid → Option Nat}
    (others : ∀ user key, key ≠ id → references user key = table.references user key)
    (own : ∀ user other, references user id = some other → other = address)
    (still : mutex.Tied fun user => references user id = some address) :
    (table.replace address mutex references).Tied where
  named := tied.named
  apart := tied.apart
  made := tied.made
  current user key other reference := by
    by_cases same : key = id
    · subst same
      cases own user other reference
      exact member
    · exact tied.current user key other ((others user key same) ▸ reference)
  mutexes key other present := by
    by_cases same : key = id
    · subst same
      cases tied.same_address member present
      simpa only [MutexTable.replace, Function.update_self] using still
    · have different : other ≠ address := by
        rintro rfl
        exact same (tied.same_id present member)
      simp only [MutexTable.replace, Function.update_of_ne different, others _ _ same]
      exact tied.mutexes key other present

theorem Tied.enter (tied : table.Tied) : (table.enter id).Tied := by
  rw [MutexTable.enter]
  split
  next => exact tied
  next missing =>
    have unnamed : id ∉ table.entries.map Prod.fst := by
      intro member
      obtain ⟨⟨_, address⟩, present, rfl⟩ := List.mem_map.mp member
      rw [tied.lookup present] at missing
      cases missing
    have below {key : Uuid} {other : Nat} (present : (key, other) ∈ table.entries) :
        other ≠ table.made :=
      Nat.ne_of_lt (tied.made key other present)
    refine ⟨?_, ?_, ?_, ?_, ?_⟩
    · rw [List.map_append]
      refine List.nodup_append.mpr ⟨tied.named, List.nodup_singleton _, ?_⟩
      intro key present _ last same
      cases List.mem_singleton.mp last
      subst same
      exact unnamed present
    · rw [List.map_append]
      refine List.nodup_append.mpr ⟨tied.apart, List.nodup_singleton _, ?_⟩
      intro other present _ last same
      cases List.mem_singleton.mp last
      obtain ⟨entry, member, rfl⟩ := List.mem_map.mp present
      exact below member same
    · intro key other present
      rcases List.mem_append.mp present with present | last
      · exact Nat.lt_succ_of_lt (tied.made key other present)
      · cases List.mem_singleton.mp last
        exact Nat.lt_succ_self _
    · intro user key other reference
      exact List.mem_append_left _ (tied.current user key other reference)
    · intro key other present
      rcases List.mem_append.mp present with present | last
      · simp only [Function.update_of_ne (below present)]
        exact tied.mutexes key other present
      · cases List.mem_singleton.mp last
        simp only [Function.update_self]
        apply Mutex.tied_fresh
        intro user reference
        rw [tied.absent missing] at reference
        cases reference

/-- The table's reference to a mutex is the only one while nobody uses it. -/
theorem Tied.unused (tied : table.Tied) (member : (id, address) ∈ table.entries) :
    (table.mutexes address).references = 1 ↔ (table.mutexes address).lock.users = [] := by
  rw [(tied.mutexes id address member).counted, Nat.add_eq_right, List.length_eq_zero_iff]

theorem Tied.release (tied : table.Tied) : (table.release id).Tied := by
  rw [MutexTable.release]
  split
  next address found =>
    split
    next only =>
      have member := lookup_mem found
      have unused := (tied.unused member).mp only
      have still {key : Uuid} {other : Nat}
          (present : (key, other) ∈ table.entries.filter fun entry => entry.1 ≠ id) :
          (key, other) ∈ table.entries ∧ key ≠ id := by
        simpa only [List.mem_filter, decide_eq_true_eq] using present
      refine ⟨tied.named.sublist (List.filter_sublist.map _),
        tied.apart.sublist (List.filter_sublist.map _), ?_, ?_, ?_⟩
      · intro key other present
        exact tied.made key other (still present).1
      · intro user key other reference
        have present := tied.current user key other reference
        refine List.mem_filter.mpr ⟨present, decide_eq_true_eq.mpr ?_⟩
        -- Whoever refers to the mutex uses it, and nobody does.
        rintro rfl
        cases tied.same_address member present
        have busy := ((tied.mutexes key address present).users user).mpr reference
        rw [unused] at busy
        cases busy
      · intro key other inside
        obtain ⟨present, different⟩ := still inside
        have elsewhere : other ≠ address := by
          rintro rfl
          exact different (tied.same_id present member)
        simp only [Function.update_of_ne elsewhere]
        exact tied.mutexes key other present
    next => exact tied
  next => exact tied

variable [DecidableEq Client]

def refer (client : Client) (id : Uuid) (reference : Option Nat)
    (references : Client → Uuid → Option Nat) : Client → Uuid → Option Nat :=
  fun user key => if user = client ∧ key = id then reference else references user key

/-- Takes a reference to the mutex of an entry. A client has one for each id at a time. -/
def connect (client : Client) (id : Uuid) (table : MutexTable Client) : MutexTable Client :=
  match table.references client id, table.entries.lookup id with
  | none, some address =>
    table.replace address ((table.mutexes address).join client)
      (refer client id (some address) table.references)
  | _, _ => table

def reach (client : Client) (id : Uuid) (table : MutexTable Client) : MutexTable Client :=
  (table.enter id).connect client id

def take (client : Client) (id : Uuid) (table : MutexTable Client) : MutexTable Client :=
  match table.references client id with
  | some address =>
    table.replace address ((table.mutexes address).take client) table.references
  | none => table

def drop (client : Client) (id : Uuid) (table : MutexTable Client) : MutexTable Client :=
  match table.references client id with
  | some address =>
    if (table.mutexes address).lock.holder = some client then
      table.replace address (table.mutexes address).drop (refer client id none table.references)
    else table
  | none => table

def abandon (client : Client) (id : Uuid) (table : MutexTable Client) : MutexTable Client :=
  match table.references client id with
  | some address =>
    if client ∈ (table.mutexes address).lock.waiting then
      table.replace address ((table.mutexes address).abandon client)
        (refer client id none table.references)
    else table
  | none => table

/-- A step that a client is not in a position to take does nothing. -/
def step (table : MutexTable Client) : LockStep Client → MutexTable Client
  | .reach client id => table.reach client id
  | .take client id => table.take client id
  | .drop client id => table.drop client id
  | .abandon client id => table.abandon client id
  | .release id => table.release id

def run (table : MutexTable Client) (schedule : List (LockStep Client)) : MutexTable Client :=
  schedule.foldl step table

theorem run_append (table : MutexTable Client) (before after : List (LockStep Client)) :
    table.run (before ++ after) = (table.run before).run after :=
  List.foldl_append

theorem refer_other {reference : Option Nat} {references : Client → Uuid → Option Nat}
    (different : key ≠ id) : refer client id reference references user key = references user key :=
  if_neg fun both => different both.2

theorem refer_self {reference : Option Nat} {references : Client → Uuid → Option Nat} :
    refer client id reference references client id = reference :=
  if_pos ⟨rfl, rfl⟩

theorem refer_user {reference : Option Nat} {references : Client → Uuid → Option Nat}
    (different : user ≠ client) :
    refer client id reference references user key = references user key :=
  if_neg fun both => different both.1

theorem Tied.connect (tied : table.Tied) : (table.connect client id).Tied := by
  rw [MutexTable.connect]
  split
  next address new found =>
    have member := lookup_mem found
    refine tied.replace member (fun _ _ => refer_other) ?_ ?_
    · intro user other reference
      by_cases same : user = client
      · subst same
        rw [refer_self] at reference
        exact (Option.some.inj reference).symm
      · rw [refer_user same] at reference
        exact tied.same_address (tied.current user id other reference) member
    · have absent : ¬ table.references client id = some address := by
        rw [new]
        exact nofun
      have joined := (tied.mutexes id address member).join absent
      refine ⟨fun user => (joined.users user).trans ?_, joined.single, joined.counted⟩
      by_cases same : user = client
      · subst same
        simp only [refer_self, true_or]
      · simp only [refer_user same, same, false_or]
  next => exact tied

theorem Tied.take (tied : table.Tied) : (table.take client id).Tied := by
  rw [MutexTable.take]
  split
  next address reference =>
    have member := tied.current client id address reference
    refine tied.replace member (fun _ _ _ => rfl) ?_ (tied.mutexes id address member).take
    intro user other present
    exact tied.same_address (tied.current user id other present) member
  next => exact tied

theorem Tied.forget (tied : table.Tied) (reference : table.references client id = some address)
    {mutex : Mutex Client}
    (left : mutex.Tied fun user => user ≠ client ∧ table.references user id = some address) :
    (table.replace address mutex (refer client id none table.references)).Tied := by
  have member := tied.current client id address reference
  refine tied.replace member (fun _ _ => refer_other) ?_ ?_
  · intro user other present
    by_cases same : user = client
    · subst same
      rw [refer_self] at present
      cases present
    · rw [refer_user same] at present
      exact tied.same_address (tied.current user id other present) member
  · refine ⟨fun user => (left.users user).trans ?_, left.single, left.counted⟩
    by_cases same : user = client
    · subst same
      simp only [refer_self, ne_eq, not_true_eq_false, false_and, reduceCtorEq]
    · simp only [refer_user same, ne_eq, same, not_false_eq_true, true_and]

theorem Tied.drop (tied : table.Tied) : (table.drop client id).Tied := by
  rw [MutexTable.drop]
  split
  next address reference =>
    have mutex := tied.mutexes id address (tied.current client id address reference)
    split
    next held => exact tied.forget reference (mutex.drop held)
    next => exact tied
  next => exact tied

theorem Tied.abandon (tied : table.Tied) : (table.abandon client id).Tied := by
  rw [MutexTable.abandon]
  split
  next address reference =>
    have mutex := tied.mutexes id address (tied.current client id address reference)
    split
    next waits => exact tied.forget reference (mutex.abandon waits)
    next => exact tied
  next => exact tied

theorem Tied.step (tied : table.Tied) (step : LockStep Client) : (table.step step).Tied := by
  cases step with
  | reach client id => exact tied.enter.connect
  | take client id => exact tied.take
  | drop client id => exact tied.drop
  | abandon client id => exact tied.abandon
  | release id => exact tied.release

theorem Tied.run (tied : table.Tied) (schedule : List (LockStep Client)) :
    (table.run schedule).Tied := by
  induction schedule generalizing table with
  | nil => exact tied
  | cons first rest ih => exact ih (tied.step first)

end MutexTable

end Workflow
