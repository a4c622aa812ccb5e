import Workflow.Proofs.Guards

/-! Who uses which entry of a table of locks, as holder or in the queue, before and after a step of a
client. -/

namespace Workflow

namespace Lock

variable {Client : Type} {lock : Lock Client} {client user : Client}

theorem users_acquire (uses : user ∈ (lock.acquire client).users) :
    user = client ∨ user ∈ lock.users := by
  obtain ⟨holder, waiting⟩ := lock
  cases holder with
  | none => simpa [acquire, users] using uses
  | some holder =>
    simp only [acquire, users, Option.toList_some, List.mem_append, List.mem_singleton] at uses ⊢
    exact uses.elim (fun held => .inr (.inl held)) fun waits => waits.symm.imp_right .inr

theorem users_leave [DecidableEq Client] (single : lock.users.Nodup)
    (uses : user ∈ (lock.leave client).users) : user ∈ lock.users ∧ user ≠ client := by
  obtain ⟨holder, waiting⟩ := lock
  rw [leave] at uses
  split at uses
  next held =>
    cases held
    have waits : user ∈ waiting := by
      cases waiting with
      | nil => cases uses
      | cons first rest => exact uses
    refine ⟨List.mem_cons_of_mem _ waits, ?_⟩
    rintro rfl
    exact (List.nodup_cons.mp single).1 waits
  next other =>
    obtain ⟨_, single, _⟩ := List.nodup_append.mp single
    rcases List.mem_append.mp uses with held | waits
    · refine ⟨List.mem_append_left _ held, ?_⟩
      rintro rfl
      exact other (Option.mem_toList.mp held)
    · obtain ⟨different, before⟩ := single.mem_erase_iff.mp waits
      exact ⟨List.mem_append_right _ before, different⟩

end Lock

namespace LockTable

variable {Client : Type} {locks : LockTable Client} {id key : Uuid} {client user : Client}

def Has (id : Uuid) (locks : LockTable Client) : Prop :=
  ∃ lock, (id, lock) ∈ locks.entries

def Uses (id : Uuid) (client : Client) (locks : LockTable Client) : Prop :=
  ∃ lock, (id, lock) ∈ locks.entries ∧ client ∈ lock.users

def Single (locks : LockTable Client) : Prop :=
  ∀ id lock, (id, lock) ∈ locks.entries → lock.users.Nodup

theorem uses_holder (held : locks.holder? id = some client) : locks.Uses id client := by
  obtain ⟨lock, found, holds⟩ := holder?_eq_some.mp held
  obtain ⟨before, after, split, -⟩ := List.lookup_eq_some_iff.mp found
  refine ⟨lock, ?_, ?_⟩
  · rw [split]
    exact List.mem_append_right _ List.mem_cons_self
  · rw [Lock.users, holds]
    exact List.mem_cons_self

theorem mem_put {change : Lock Client → Lock Client} {entries : List (Uuid × Lock Client)}
    {lock : Lock Client} (member : (key, lock) ∈ put id change entries) :
    (key, lock) ∈ entries ∨ key = id ∧ ∃ old, lock = change old ∧
      ((id, old) ∈ entries ∨ old = ⟨none, []⟩) := by
  induction entries with
  | nil =>
    cases List.mem_singleton.mp member
    exact .inr ⟨rfl, _, rfl, .inr rfl⟩
  | cons entry rest ih =>
    obtain ⟨first, present⟩ := entry
    rw [put] at member
    split at member
    next here =>
      subst here
      rcases List.mem_cons.mp member with same | later
      · cases same
        exact .inr ⟨rfl, present, rfl, .inl List.mem_cons_self⟩
      · exact .inl (List.mem_cons_of_mem _ later)
    next =>
      rcases List.mem_cons.mp member with same | later
      · exact .inl (same ▸ List.mem_cons_self)
      · rcases ih later with before | ⟨same, old, changed, origin⟩
        · exact .inl (List.mem_cons_of_mem _ before)
        · exact .inr ⟨same, old, changed, origin.imp_left (List.mem_cons_of_mem _)⟩

theorem mem_leave [DecidableEq Client] {lock : Lock Client}
    (member : (key, lock) ∈ (locks.leave id client).entries) :
    ∃ old, (key, old) ∈ locks.entries ∧ lock = if key = id then old.leave client else old := by
  obtain ⟨⟨other, old⟩, present, same⟩ := List.mem_map.mp member
  cases same
  exact ⟨old, present, rfl⟩

theorem mem_release {lock : Lock Client} (member : (key, lock) ∈ (locks.release id).entries) :
    (key, lock) ∈ locks.entries ∧ (key = id → lock.users ≠ []) := by
  obtain ⟨present, kept⟩ := List.mem_filter.mp member
  refine ⟨present, fun same free => ?_⟩
  simp [same, Lock.isFree_iff.mpr free] at kept

theorem has_acquire (has : (locks.acquire id client).Has key) : key = id ∨ locks.Has key := by
  obtain ⟨lock, member⟩ := has
  rcases mem_put member with before | ⟨same, _⟩
  · exact .inr ⟨lock, before⟩
  · exact .inl same

theorem uses_acquire (uses : (locks.acquire id client).Uses key user) :
    key = id ∧ user = client ∨ locks.Uses key user := by
  obtain ⟨lock, member, inside⟩ := uses
  rcases mem_put member with before | ⟨rfl, old, rfl, origin⟩
  · exact .inr ⟨lock, before, inside⟩
  · rcases Lock.users_acquire inside with same | used
    · exact .inl ⟨rfl, same⟩
    · rcases origin with before | rfl
      · exact .inr ⟨old, before, used⟩
      · cases used

theorem has_release (has : (locks.release id).Has key) :
    locks.Has key ∧ (key = id → ∃ user, locks.Uses id user) := by
  obtain ⟨lock, member⟩ := has
  obtain ⟨present, busy⟩ := mem_release member
  refine ⟨⟨lock, present⟩, fun same => ?_⟩
  subst same
  obtain ⟨user, inside⟩ := List.exists_mem_of_ne_nil _ (busy rfl)
  exact ⟨user, lock, present, inside⟩

theorem uses_release (uses : (locks.release id).Uses key user) : locks.Uses key user := by
  obtain ⟨lock, member, inside⟩ := uses
  exact ⟨lock, (mem_release member).1, inside⟩

variable [DecidableEq Client]

theorem has_leave (has : (locks.leave id client).Has key) : locks.Has key := by
  obtain ⟨lock, member⟩ := has
  obtain ⟨old, present, _⟩ := mem_leave member
  exact ⟨old, present⟩

theorem uses_leave (single : locks.Single) (uses : (locks.leave id client).Uses key user) :
    locks.Uses key user ∧ ¬ (key = id ∧ user = client) := by
  obtain ⟨lock, member, inside⟩ := uses
  obtain ⟨old, present, rfl⟩ := mem_leave member
  by_cases here : key = id
  · rw [if_pos here] at inside
    obtain ⟨used, other⟩ := Lock.users_leave (single key old present) inside
    exact ⟨⟨old, present, used⟩, fun same => other same.2⟩
  · rw [if_neg here] at inside
    exact ⟨⟨old, present, inside⟩, fun same => here same.1⟩

end LockTable

theorem MutexTable.Tied.view_single {table : MutexTable Nat} (tied : table.Tied) :
    table.view.Single := by
  intro id lock member
  obtain ⟨⟨other, address⟩, present, same⟩ := List.mem_map.mp member
  cases same
  exact (tied.mutexes other address present).single

end Workflow
