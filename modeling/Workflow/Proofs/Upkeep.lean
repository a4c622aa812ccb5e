import Workflow.Proofs.Overlap
import Workflow.Proofs.Registration
import Workflow.Proofs.Stances
import Workflow.Proofs.Usage

/-! What is left in the table of locks. Every entry is that of a running instance, or a completion
under way is going to release it. -/

namespace Workflow

def MemoryStore.Runs (records : MemoryStore) (id : Uuid) : Prop :=
  ∃ target, records.instance? id = some target ∧ target.status = .running

namespace MemoryStore

variable {records : MemoryStore} {id : Uuid} {changes : ChangeSet}

theorem Runs.of_eq {after : MemoryStore} (runs : records.Runs id)
    (same : after.instances = records.instances) : after.Runs id := by
  rw [Runs, instance?, same]
  exact runs

theorem Runs.commit (runs : records.Runs id) (other : changes.target.id ≠ id) :
    (records.commit changes).Runs id := by
  rw [Runs, instance?_commit, if_neg other]
  exact runs

theorem runs_commit (running : changes.target.status = .running) :
    (records.commit changes).Runs changes.target.id := by
  rw [Runs, instance?_commit, if_pos rfl]
  exact ⟨_, rfl, running⟩

end MemoryStore

namespace Request

variable {α : Type} {operation : Request α}

theorem IsUnlocked.changeLocks (unlocked : operation.IsUnlocked) (client : Nat)
    (locks : LockTable Nat) : operation.changeLocks client locks = locks := by
  cases operation with
  | acquire _ | leave _ | release _ => exact unlocked.elim
  | _ => rfl

theorem IsUnlocked.wants (unlocked : operation.IsUnlocked) : operation.wants? = none := by
  cases operation with
  | acquire _ => exact unlocked.elim
  | _ => rfl

end Request

namespace Stance

def Uses {α : Type} (stance : Stance) (rest : Program α) (id : Uuid) : Prop :=
  stance = .inside id ∨ stance = .kept id ∨ rest.wants? = some id

def Owes {α : Type} (stance : Stance) (rest : Program α) (id : Uuid) : Prop :=
  stance = .inside id ∨ stance = .releasing id ∨ rest.wants? = some id

end Stance

/-- A client with some number keeps to what its stance says about the locks and the records. -/
structure Client.Minds {attempt : Attempt} (client : Client attempt) (number : Nat)
    (stance : Stance) (locks : LockTable Nat) (records : MemoryStore) : Prop where
  tidy : client.rest.Tidy (attempt.call.task?.isSome = true) stance
  locked : stance ≠ .outside → attempt.call.task?.isSome = true
  begun : stance ≠ .outside ∨ client.rest.wants?.isSome = true → 0 < client.asked
  uses : ∀ id, locks.Uses id number → stance.Uses client.rest id
  held : ∀ id, stance = .inside id ∨ stance = .kept id → locks.holder? id = some number
  kept : ∀ id, stance = .kept id → records.Runs id

/-- What others do to the locks and the records does not matter to a client that keeps what it
uses. -/
theorem Client.Minds.frame {attempt : Attempt} {client : Client attempt} {number : Nat}
    {stance : Stance} {locks later : LockTable Nat} {records after : MemoryStore}
    (minds : client.Minds number stance locks records)
    (uses : ∀ id, later.Uses id number → locks.Uses id number)
    (held : ∀ id, locks.holder? id = some number → later.holder? id = some number)
    (still : ∀ id, stance = .kept id → after.Runs id) :
    client.Minds number stance later after where
  tidy := minds.tidy
  locked := minds.locked
  begun := minds.begun
  uses id inside := minds.uses id (uses id inside)
  held id holds := held id (minds.held id holds)
  kept := still

namespace System

variable {attempts : Nat → Attempt} {drawn : List Uuid} {system : System attempts}
  {stances : Nat → Stance}

structure Tended (stances : Nat → Stance) (system : System attempts) : Prop where
  minds : ∀ i, (system.clients i).Minds i (stances i) system.locks system.records
  owed : ∀ id, system.locks.Has id →
    system.records.Runs id ∨ ∃ i, (stances i).Owes (system.clients i).rest id

theorem Tended.begin (records : MemoryStore) :
    (begin attempts records).Tended fun _ => .outside where
  minds i := by
    have idle : (Client.begin (attempts i)).rest.wants? = none := call_wants (attempts i).call
    refine ⟨call_tidy (attempts i).call, fun inside => (inside rfl).elim, ?_, ?_, ?_, nofun⟩
    · rintro (inside | wants)
      · exact (inside rfl).elim
      · cases idle ▸ wants
    · rintro _ ⟨_, member, _⟩
      cases member
    · rintro _ (inside | kept)
      · cases inside
      · cases kept
  owed _ has := by
    obtain ⟨_, member⟩ := has
    cases member

/-- One call goes on and may change its stance, while the others keep what they use. -/
theorem Tended.update (tended : system.Tended stances) {i : Nat} {stance : Stance}
    {client : Client (attempts i)} {records : MemoryStore} {locks : LockTable Nat}
    {written : List Nat} (minds : client.Minds i stance locks records)
    (uses : ∀ id j, j ≠ i → locks.Uses id j → system.locks.Uses id j)
    (held : ∀ j, j ≠ i → ∀ id, system.locks.holder? id = some j → locks.holder? id = some j)
    (still : ∀ j, j ≠ i → ∀ id, stances j = .kept id → records.Runs id)
    (owed : ∀ id, locks.Has id → records.Runs id ∨ stance.Owes client.rest id ∨
      ∃ j, j ≠ i ∧ (stances j).Owes (system.clients j).rest id) :
    ({ records, locks, clients := Function.update system.clients i client, written } :
      System attempts).Tended (Function.update stances i stance) where
  minds j := by
    by_cases same : j = i
    · subst same
      simpa only [Function.update_self] using minds
    · simp only [Function.update_of_ne same]
      exact (tended.minds j).frame (fun id => uses id j same) (held j same) (still j same)
  owed id has := by
    rcases owed id has with runs | mine | ⟨j, different, owes⟩
    · exact .inl runs
    · refine .inr ⟨i, ?_⟩
      simpa only [Function.update_self] using mine
    · refine .inr ⟨j, ?_⟩
      simpa only [Function.update_of_ne different] using owes

theorem Tended.waits (tended : system.Tended stances) {i : Nat} {β : Type} {operation : Request β}
    {next : β → Program (Except Failure (attempts i).Answer)}
    (rest : (system.clients i).rest = .request operation next)
    (blocked : operation.isBlocked i system.locks = true) :
    { system with locks := operation.changeLocks i system.locks }.Tended stances := by
  cases operation with
  | acquire target =>
    have wants : (system.clients i).rest.wants? = some target := by
      rw [rest]
      rfl
    simp only [Request.changeLocks]
    split
    · exact tended
    refine ⟨fun j => ?_, fun id has => ?_⟩
    · have minds := tended.minds j
      refine ⟨minds.tidy, minds.locked, minds.begun, fun id uses => ?_, fun id holds => ?_,
        minds.kept⟩
      · rcases LockTable.uses_acquire uses with ⟨rfl, rfl⟩ | before
        · exact .inr (.inr wants)
        · exact minds.uses id before
      · exact LockTable.holder?_acquire (minds.held id holds)
    · rcases LockTable.has_acquire has with rfl | before
      · exact .inr ⟨i, .inr (.inr wants)⟩
      · exact tended.owed id before
  | _ => cases blocked

section Served

variable {i : Nat} {β : Type} {operation : Request β}
  {next : β → Program (Except Failure (attempts i).Answer)}

theorem Tended.goes_on (tended : system.Tended stances)
    (rest : (system.clients i).rest = .request operation next)
    (unlocked : operation.IsUnlocked) {client : Client (attempts i)} {records : MemoryStore}
    {written : List Nat}
    (tidy : client.rest.Tidy ((attempts i).call.task?.isSome = true) (stances i))
    (asked : 0 < client.asked)
    (runs : ∀ id, system.records.Runs id → records.Runs id) :
    System.Tended (Function.update stances i (stances i))
      { records
        locks := operation.changeLocks i system.locks
        clients := Function.update system.clients i client
        written } := by
  have minds := tended.minds i
  have wants : (system.clients i).rest.wants? = none := by
    rw [rest]
    exact unlocked.wants
  rw [unlocked.changeLocks]
  refine tended.update ⟨tidy, minds.locked, fun _ => asked, ?_, minds.held, ?_⟩
    (fun _ _ _ uses => uses) (fun _ _ _ held => held) ?_ ?_
  · intro id uses
    rcases minds.uses id uses with inside | kept | wanted
    · exact .inl inside
    · exact .inr (.inl kept)
    · cases wants.symm.trans wanted
  · intro id kept
    exact runs id (minds.kept id kept)
  · intro j _ id kept
    exact runs id ((tended.minds j).kept id kept)
  · intro id has
    rcases tended.owed id has with running | ⟨j, owes⟩
    · exact .inl (runs id running)
    · by_cases same : j = i
      · subst same
        rcases owes with inside | releasing | wanted
        · exact .inr (.inl (.inl inside))
        · exact .inr (.inl (.inr (.inl releasing)))
        · cases wants.symm.trans wanted
      · exact .inr (.inr ⟨j, same, owes⟩)

end Served

section Locked

variable {i : Nat} {target : Uuid} {written : List Nat}

theorem Tended.content (tended : system.Tended stances) (stance : stances i ≠ .outside) (id : Uuid) :
    (system.clients i).rest.wants? ≠ some id :=
  fun wants => stance ((tended.minds i).tidy.asks wants).1

theorem Tended.enters (tended : system.Tended stances) {rest : Program (Except Failure (attempts i).Answer)}
    {world : World}
    (wants : (system.clients i).rest.wants? = some target)
    (held : system.locks.holder? target = some i)
    (tidy : rest.Tidy ((attempts i).call.task?.isSome = true) (.inside target))
    (asked : 0 < world.asked) :
    System.Tended (Function.update stances i (.inside target))
      { system with
        clients := Function.update system.clients i ((system.clients i).resume rest world)
        written } := by
  have minds := tended.minds i
  obtain ⟨outside, locked⟩ := minds.tidy.asks wants
  have same {id : Uuid} (wanted : (system.clients i).rest.wants? = some id) : target = id :=
    Option.some.inj (wants.symm.trans wanted)
  refine tended.update ⟨tidy, fun _ => locked, fun _ => asked, ?_, ?_, nofun⟩
    (fun _ _ _ uses => uses) (fun _ _ _ held => held) (fun j _ => (tended.minds j).kept) ?_
  · intro id uses
    rcases minds.uses id uses with inside | kept | wanted
    · cases outside.symm.trans inside
    · cases outside.symm.trans kept
    · exact .inl (congrArg Stance.inside (same wanted))
  · rintro id (inside | kept)
    · cases inside
      exact held
    · cases kept
  · intro id has
    rcases tended.owed id has with runs | ⟨j, owes⟩
    · exact .inl runs
    · by_cases mine : j = i
      · subst mine
        rcases owes with inside | releasing | wanted
        · cases outside.symm.trans inside
        · cases outside.symm.trans releasing
        · exact .inr (.inl (.inl (congrArg Stance.inside (same wanted))))
      · exact .inr (.inr ⟨j, mine, owes⟩)

/-- A call gives its lock back. If it has not left the instance running, it releases the lock
next. -/
theorem Tended.leaves (tended : system.Tended stances) (single : system.locks.Single)
    {stance : Stance} {rest : Program (Except Failure (attempts i).Answer)} {world : World}
    (busy : stances i ≠ .outside)
    (only : ∀ id, stances i = .inside id ∨ stances i = .kept id → id = target)
    (idle : ∀ id, ¬ (stance = .inside id ∨ stance = .kept id))
    (next : ∀ id, stances i = .inside id ∨ stances i = .releasing id → stance = .releasing id)
    (tidy : rest.Tidy ((attempts i).call.task?.isSome = true) stance) (asked : 0 < world.asked) :
    System.Tended (Function.update stances i stance)
      { system with
        locks := system.locks.leave target i
        clients := Function.update system.clients i ((system.clients i).resume rest world)
        written } := by
  have minds := tended.minds i
  refine tended.update ⟨tidy, fun _ => minds.locked busy, fun _ => asked, ?_,
    fun id holds => (idle id holds).elim, fun id kept => (idle id (.inr kept)).elim⟩
    (fun _ _ _ uses => (LockTable.uses_leave single uses).1)
    (fun _ different _ held => LockTable.holder?_leave held (Ne.symm different))
    (fun j _ => (tended.minds j).kept) ?_
  · intro id uses
    obtain ⟨used, gone⟩ := LockTable.uses_leave single uses
    refine (gone ⟨?_, rfl⟩).elim
    rcases minds.uses id used with inside | kept | wants
    · exact only id (.inl inside)
    · exact only id (.inr kept)
    · exact (tended.content busy id wants).elim
  · intro id has
    rcases tended.owed id (LockTable.has_leave has) with runs | ⟨j, owes⟩
    · exact .inl runs
    · by_cases mine : j = i
      · subst mine
        rcases owes with inside | releasing | wants
        · exact .inr (.inl (.inr (.inl (next id (.inl inside)))))
        · exact .inr (.inl (.inr (.inl (next id (.inr releasing)))))
        · exact (tended.content busy id wants).elim
      · exact .inr (.inr ⟨j, mine, owes⟩)

/-- A call releases a lock. The entry stays where somebody uses it, who has left the instance
running or releases it later. -/
theorem Tended.releases (tended : system.Tended stances) (stance : stances i = .releasing target)
    {rest : Program (Except Failure (attempts i).Answer)} {world : World}
    (tidy : rest.Tidy ((attempts i).call.task?.isSome = true) .outside) (asked : 0 < world.asked) :
    System.Tended (Function.update stances i .outside)
      { system with
        locks := system.locks.release target
        clients := Function.update system.clients i ((system.clients i).resume rest world)
        written } := by
  have busy : stances i ≠ .outside := by simp [stance]
  have unused : ∀ id, ¬ system.locks.Uses id i := by
    intro id uses
    rcases (tended.minds i).uses id uses with inside | kept | wants
    · cases stance.symm.trans inside
    · cases stance.symm.trans kept
    · exact tended.content busy id wants
  refine tended.update ⟨tidy, fun inside => (inside rfl).elim, fun _ => asked, ?_, ?_, nofun⟩
    (fun _ _ _ => LockTable.uses_release) (fun _ _ _ => LockTable.holder?_release)
    (fun j _ => (tended.minds j).kept) ?_
  · intro id uses
    exact (unused id (LockTable.uses_release uses)).elim
  · rintro id (inside | kept)
    · cases inside
    · cases kept
  · intro id has
    obtain ⟨before, used⟩ := LockTable.has_release has
    rcases tended.owed id before with runs | ⟨j, owes⟩
    · exact .inl runs
    by_cases mine : j = i
    · subst mine
      have same : id = target := by
        rcases owes with inside | releasing | wants
        · cases stance.symm.trans inside
        · exact Stance.releasing.inj (releasing.symm.trans stance)
        · exact (tended.content busy id wants).elim
      obtain ⟨user, uses⟩ := used same
      have other : user ≠ j := by
        rintro rfl
        exact unused target uses
      subst same
      rcases (tended.minds user).uses id uses with inside | kept | wants
      · exact .inr (.inr ⟨user, other, .inl inside⟩)
      · exact .inl ((tended.minds user).kept id kept)
      · exact .inr (.inr ⟨user, other, .inr (.inr wants)⟩)
    · exact .inr (.inr ⟨j, mine, owes⟩)

/-- A call that writes an instance under its lock completes it, or it leaves it running. -/
theorem Tended.writes (tended : system.Tended stances) (stance : stances i = .inside target)
    {changes : ChangeSet} (same : changes.target.id = target)
    {rest : Program (Except Failure (attempts i).Answer)} {world : World}
    (tidy : rest.Tidy ((attempts i).call.task?.isSome = true) (.written target changes))
    (asked : 0 < world.asked) :
    System.Tended (Function.update stances i (.written target changes))
      { system with
        records := system.records.commit changes
        clients := Function.update system.clients i ((system.clients i).resume rest world)
        written } := by
  subst same
  have busy : stances i ≠ .outside := by simp [stance]
  have minds := tended.minds i
  have held := minds.held _ (.inl stance)
  have only {id : Uuid} (uses : system.locks.Uses id i) : changes.target.id = id := by
    rcases minds.uses id uses with inside | kept | wants
    · exact Stance.inside.inj (stance.symm.trans inside)
    · cases stance.symm.trans kept
    · exact (tended.content busy id wants).elim
  have done : Stance.written changes.target.id changes = .inside changes.target.id ∨
      Stance.written changes.target.id changes = .kept changes.target.id ∧
        changes.target.status = .running := by
    rw [Stance.written, Instance.isCompleted]
    cases changes.target.status with
    | running => exact .inr ⟨rfl, rfl⟩
    | completed => exact .inl rfl
  refine tended.update ⟨tidy, fun _ => minds.locked busy, fun _ => asked, ?_, ?_, ?_⟩
    (fun _ _ _ uses => uses) (fun _ _ _ held => held) ?_ ?_
  · intro id uses
    cases only uses
    exact done.imp_right fun kept => .inl kept.1
  · intro id holds
    have here : changes.target.id = id := by
      rcases done with inside | ⟨kept, _⟩
      · rw [inside] at holds
        rcases holds with same | impossible
        · exact Stance.inside.inj same
        · cases impossible
      · rw [kept] at holds
        rcases holds with impossible | same
        · cases impossible
        · exact Stance.kept.inj same
    exact here ▸ held
  · intro id kept
    rcases done with inside | ⟨here, running⟩
    · cases inside.symm.trans kept
    · cases here.symm.trans kept
      exact MemoryStore.runs_commit running
  · intro j different id kept
    refine ((tended.minds j).kept id kept).commit ?_
    rintro rfl
    have theirs := (tended.minds j).held _ (.inr kept)
    exact different (Option.some.inj (theirs.symm.trans held))
  · intro id has
    have here : changes.target.id = id → (system.records.commit changes).Runs id ∨
        (Stance.written changes.target.id changes).Owes rest id := by
      rintro rfl
      rcases done with inside | ⟨_, running⟩
      · exact .inr (.inl inside)
      · exact .inl (MemoryStore.runs_commit running)
    by_cases same : changes.target.id = id
    · exact (here same).imp_right .inl
    rcases tended.owed id has with runs | ⟨j, owes⟩
    · exact .inl (runs.commit same)
    · by_cases mine : j = i
      · subst mine
        rcases owes with inside | releasing | wants
        · exact (same (Stance.inside.inj (stance.symm.trans inside))).elim
        · cases stance.symm.trans releasing
        · exact (tended.content busy id wants).elim
      · exact .inr (.inr ⟨j, mine, owes⟩)

end Locked

/-- A call that is about to write an instance has its lock, whatever others do, so that it is the
instance of the lock. -/
theorem Tended.commits (tended : system.Tended stances) (orderly : system.Orderly drawn)
    (distinct : system.Distinct drawn) {i : Nat} {target : Uuid}
    (stance : stances i = .inside target) {changes : ChangeSet}
    {next : Except Failure Unit → Program (Except Failure (attempts i).Answer)}
    (rest : (system.clients i).rest = .request (.store (.commit changes)) next) :
    changes.target.id = target := by
  have minds := tended.minds i
  have busy : stances i ≠ .outside := by simp [stance]
  obtain ⟨early, frame, definitions, value, relies, current, writes⟩ :=
    (orderly.courses i).commits rest
  rcases orderly.place distinct early relies current writes with ⟨_, _, _, held⟩ | ⟨other, _⟩
  · rcases minds.uses _ (LockTable.uses_holder held) with inside | kept | wants
    · exact Stance.inside.inj (inside.symm.trans stance)
    · cases stance.symm.trans kept
    · exact (tended.content busy _ wants).elim
  · have completes := minds.locked busy
    rw [other] at completes
    cases completes

theorem Tended.spares (tended : system.Tended stances) (orderly : system.Orderly drawn)
    (distinct : system.Distinct drawn) {i : Nat} (outside : stances i = .outside)
    (idle : (system.clients i).rest.wants? = none) {id : Uuid} (runs : system.records.Runs id) :
    (system.step i).records.Runs id := by
  rcases orderly.stores distinct i with ⟨instances, _⟩ | ⟨changes, wrote⟩
  · exact runs.of_eq instances
  rw [wrote.records]
  refine runs.commit fun same => ?_
  rcases wrote.place with ⟨_, _, _, held⟩ | ⟨_, new⟩
  · rcases (tended.minds i).uses _ (LockTable.uses_holder held) with inside | kept | wants
    · cases outside.symm.trans inside
    · cases outside.symm.trans kept
    · cases idle.symm.trans wants
  · obtain ⟨target, found, _⟩ := runs
    rw [← same, new] at found
    cases found

theorem Tended.step (tended : system.Tended stances) (orderly : system.Orderly drawn)
    (distinct : system.Distinct drawn) (single : system.locks.Single) (i : Nat) :
    ∃ stances, (system.step i).Tended stances := by
  cases rest : (system.clients i).rest with
  | done result =>
    rw [step_done rest]
    exact ⟨stances, tended⟩
  | request operation next =>
    cases free : operation.isBlocked i system.locks with
    | true =>
      rw [step_blocked rest free]
      exact ⟨stances, tended.waits rest free⟩
    | false =>
      generalize served :
        ((system.clients i).view system.records).serve (attempts i).moments operation = reply
      obtain ⟨answer, view⟩ := reply
      have asked : 0 < view.asked := by
        have grown : view.asked = (system.clients i).asked + 1 :=
          (congrArg (fun reply => reply.2.asked) served).symm.trans (World.asked_serve operation)
        rw [grown]
        exact Nat.succ_pos _
      have tidy := (tended.minds i).tidy
      rw [rest] at tidy
      have spares := @Tended.spares _ _ _ _ tended orderly distinct i
      rw [step_served rest free served] at spares ⊢
      generalize stance : stances i = before at tidy
      cases tidy with
      | outside unlocked resume =>
        refine ⟨_, tended.goes_on rest unlocked (stance ▸ resume answer) asked fun id runs => ?_⟩
        refine spares stance ?_ runs
        rw [rest]
        exact unlocked.wants
      | inside looks resume =>
        obtain ⟨instances, _⟩ := looks.plain.aside.keeps (attempts i).moments
          ((system.clients i).view system.records)
        rw [served] at instances
        refine ⟨_, tended.goes_on rest looks.unlocked (stance ▸ resume answer) asked fun id runs => ?_⟩
        exact runs.of_eq instances
      | @acquire target _ may resume =>
        have held : system.locks.holder? target = some i := by
          simpa [Request.isBlocked, Request.wants?] using free
        have wants : (system.clients i).rest.wants? = some target := by
          rw [rest]
          rfl
        simp only [Request.changeLocks, held, true_or, if_true]
        cases served
        exact ⟨_, tended.enters wants held resume asked⟩
      | @commit target changes _ failed written =>
        rw [Client.serve_store] at served
        cases fault : ((attempts i).moments (system.clients i).asked).fault with
        | some failure =>
          rw [fault] at served
          cases served
          exact ⟨_, tended.goes_on rest trivial (stance ▸ failed failure) asked fun _ runs => runs⟩
        | none =>
          rw [fault] at served
          cases served
          exact ⟨_, tended.writes stance (tended.commits orderly distinct stance rest) written asked⟩
      | leave resume =>
        cases served
        refine ⟨_, tended.leaves single (by simp [stance]) ?_ (fun id => by simp) ?_ resume asked⟩
        · rintro id (inside | kept)
          · exact Stance.inside.inj (inside.symm.trans stance)
          · cases stance.symm.trans kept
        · rintro id (inside | releasing)
          · exact congrArg Stance.releasing (Stance.inside.inj (stance.symm.trans inside))
          · cases stance.symm.trans releasing
      | keep resume =>
        cases served
        refine ⟨_, tended.leaves single (by simp [stance]) ?_ (fun id => by simp) ?_ resume asked⟩
        · rintro id (inside | kept)
          · cases stance.symm.trans inside
          · exact Stance.kept.inj (kept.symm.trans stance)
        · rintro id (inside | releasing)
          · cases stance.symm.trans inside
          · cases stance.symm.trans releasing
      | release resume =>
        cases served
        exact ⟨_, tended.releases stance resume asked⟩

theorem Tended.run (tended : system.Tended stances) (orderly : system.Orderly drawn)
    (shows : system.Shows) {schedule : List Nat}
    (distinct : (system.run schedule).Distinct drawn) :
    ∃ stances, (system.run schedule).Tended stances := by
  induction schedule generalizing system stances with
  | nil => exact ⟨stances, tended⟩
  | cons i rest ih =>
    have later : ((system.step i).run rest).Distinct drawn := distinct
    have now : system.Distinct drawn := later.of_run.of_step
    obtain ⟨steps, shown⟩ := shows
    have single : system.locks.Single := by
      rw [shown]
      exact (MutexTable.tied_empty.run steps).view_single
    obtain ⟨_, next⟩ := tended.step orderly now single i
    have shows : system.Shows := ⟨steps, shown⟩
    exact ih next (orderly.step now i).1 (shows.step i) later

def Completing (system : System attempts) (i : Nat) : Prop :=
  (attempts i).call.task?.isSome = true ∧ (system.clients i).isBusy = true

/-- A lock that a call owes is owed by a completion under way. -/
theorem Tended.completing (tended : system.Tended stances) {i : Nat} {id : Uuid}
    (owes : (stances i).Owes (system.clients i).rest id) : system.Completing i := by
  have minds := tended.minds i
  have engaged : stances i ≠ .outside ∨ (system.clients i).rest.wants?.isSome = true := by
    rcases owes with inside | releasing | wants
    · exact .inl (by simp [inside])
    · exact .inl (by simp [releasing])
    · exact .inr (wants ▸ rfl)
  have going : (system.clients i).rest.isDone = false := by
    have tidy := minds.tidy
    generalize (system.clients i).rest = rest at owes tidy
    cases rest with
    | request operation next => rfl
    | done result =>
      generalize stances i = stance at owes tidy
      cases tidy
      rcases owes with inside | releasing | wants
      · cases inside
      · cases releasing
      · cases wants
  refine ⟨?_, by simp [Client.isBusy, minds.begun engaged, going]⟩
  rcases engaged with inside | wants
  · exact minds.locked inside
  · obtain ⟨target, wants⟩ := Option.isSome_iff_exists.mp wants
    exact (minds.tidy.asks wants).2

end System

/-- Whatever calls are made, one after another or at once, and in whatever order their steps are taken:
while no completion is under way, every entry in the table of locks is that of a stored instance that
is running. -/
theorem idle_locks_run {permits : Moment → Prop} {initial : World}
    (reached : Reachable permits initial) {attempts : Nat → Attempt} {schedule : List Nat}
    (distinct : ((System.begin attempts initial.records).run schedule).Distinct initial.drawn)
    (idle : ∀ i, ¬ ((System.begin attempts initial.records).run schedule).Completing i) (id : Uuid)
    (has : ((System.begin attempts initial.records).run schedule).locks.Has id) :
    ((System.begin attempts initial.records).run schedule).records.Runs id := by
  have orderly := System.Orderly.begin reached.sound reached.fresh attempts
  obtain ⟨stances, tended⟩ := (System.Tended.begin initial.records).run orderly ⟨[], rfl⟩ distinct
  refine (tended.owed id has).resolve_right ?_
  rintro ⟨i, owes⟩
  exact idle i (tended.completing owes)

/-- A stranger and the editor complete the review of the article, another article begins, and the
others ask for its state. -/
def articleVisitors : Nat → Attempt
  | 0 => ⟨.complete (Uuid.ofNat 48) [] "eve", calm 100⟩
  | 1 => ⟨.complete (Uuid.ofNat 48) [("grade", .int 1)] "ada", calm 200⟩
  | 2 => ⟨.start article.id [] "ada", calm 300⟩
  | _ + 3 => ⟨.status (Uuid.ofNat 32), calm 400⟩

def articleVisited : System articleVisitors :=
  (System.begin articleVisitors (({} : World).after articleForks).records).run
    ((List.range 80).map (· % 4))

/-- The stranger is refused while the editor waits, so that the entry stays for the editor, who leaves
the article running. -/
theorem article_locks_run :
    articleVisited.written = [2, 1] ∧
      articleVisited.locks.entries.map Prod.fst = [Uuid.ofNat 32] ∧
      articleVisited.records.Runs (Uuid.ofNat 32) := by
  have reached : Reachable (fun _ => True) (({} : World).after articleForks) :=
    article_forks fun _ _ => trivial
  have distinct : articleVisited.Distinct (({} : World).after articleForks).drawn :=
    @System.Distinct.of_busy _ _ _ _ [0, 1, 2, 3] (by decide +kernel) (by decide +kernel)
  have idle : ∀ i, ¬ articleVisited.Completing i
    | 0 => fun completing => absurd completing.2 (by decide +kernel)
    | 1 => fun completing => absurd completing.2 (by decide +kernel)
    | 2 => fun completing => nomatch completing.1
    | _ + 3 => fun completing => nomatch completing.1
  have entries : articleVisited.locks.entries.map Prod.fst = [Uuid.ofNat 32] := by decide +kernel
  have has : articleVisited.locks.Has (Uuid.ofNat 32) := by
    have named : Uuid.ofNat 32 ∈ articleVisited.locks.entries.map Prod.fst := by
      rw [entries]
      exact List.mem_cons_self
    obtain ⟨⟨_, lock⟩, member, rfl⟩ := List.mem_map.mp named
    exact ⟨lock, member⟩
  exact ⟨by decide +kernel, entries, idle_locks_run reached distinct idle _ has⟩

end Workflow
