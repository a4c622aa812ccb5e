import Mathlib.Logic.Function.Basic
import Workflow.Proofs.Drafts
import Workflow.Proofs.Portability

/-! Calls that make one draft active, under way at once over a store of either kind. Each reads the
draft, finds it without errors and moves it only if it is a draft still, so that the first to do so
wins and everybody else is refused: early by what is read, or late by what is not moved. -/

namespace Workflow

namespace Engine

/-- What is left of an activation when it has found a draft without errors. -/
def switch (id : Uuid) : Operation Unit := do
  if !(← Operation.store (.transition id .draft .active)) then throw (.activatedConcurrently id)

theorem switch_run (id : Uuid) :
    ∃ next, (switch id).run = .request (.store (.transition id .draft .active)) next ∧
      next (.ok true) = .done (.ok ()) ∧
      next (.ok false) = .done (.error (.activatedConcurrently id)) :=
  ⟨_, rfl, rfl, rfl⟩

theorem activate_run (id : Uuid) :
    ∃ next, (activate id).run = .request (.store (.loadDefinition id)) next ∧
      ∀ definition : Definition, definition.validate.isOk = true →
        next (.ok (some definition)) =
          if definition.isActive = true then .done (.error (.alreadyActive id))
          else (switch id).run := by
  refine ⟨_, rfl, fun definition valid => ?_⟩
  change (if definition.isActive = true then _ else
    if (!definition.validate.isOk) = true then _ else _ : Operation Unit).run = _
  rw [valid]
  cases definition.isActive with
  | true => rfl
  | false => rfl

end Engine

namespace Program

variable {α : Type}

inductive EndsWithin : Nat → Program α → Prop where
  | done (count : Nat) (result : α) : EndsWithin count (.done result)
  | request {β : Type} {count : Nat} (operation : Request β) {next : β → Program α}
      (rest : ∀ answer, EndsWithin count (next answer)) :
      EndsWithin (count + 1) (.request operation next)

theorem EndsWithin.isDone {program : Program α} (ends : program.EndsWithin 0) :
    program.isDone = true := by
  cases ends with
  | done count result => rfl

/-- A program goes on with what is answered to its next request over a store. -/
def turn (moment : Moment) (store : Store) : Program α → Program α × Store
  | .done result => (.done result, store)
  | .request operation next =>
    let (answer, host) := ({ store } : Host).answer moment operation
    (next answer, host.store)

theorem EndsWithin.turn {count : Nat} {program : Program α} (ends : program.EndsWithin count)
    (moment : Moment) (store : Store) : (program.turn moment store).1.EndsWithin (count - 1) := by
  cases ends with
  | done count result => exact .done _ result
  | request operation rest => exact rest _

theorem turn_store {β : Type} {call : StoreCall β} {next : Except Failure β → Program α}
    {moment : Moment} (healthy : moment.fault = none) (store : Store) :
    (request (.store call) next).turn moment store =
      (next (store.answer moment.now call).1, (store.answer moment.now call).2) := by
  simp only [turn, Host.answer, Host.callStore, healthy]

end Program

theorem Engine.activate_endsWithin (id : Uuid) : (activate id).run.EndsWithin 2 := by
  have switches : (switch id).run.EndsWithin 1 := by
    refine .request (.store (.transition id .draft .active)) fun switched => ?_
    cases switched with
    | error failure => exact .done 0 _
    | ok moved =>
      cases moved with
      | true => exact .done 0 _
      | false => exact .done 0 _
  refine .request (.store (.loadDefinition id)) fun read => ?_
  cases read with
  | error failure => exact .done 1 _
  | ok found =>
    cases found with
    | none => exact .done 1 _
    | some definition =>
      change Program.EndsWithin 1 (if definition.isActive = true then _ else
        if (!definition.validate.isOk) = true then _ else _ : Operation Unit).run
      split
      · exact .done 1 _
      · split
        · exact .done 1 _
        · exact switches

/-- A call that is to make a definition active and has not been answered whether it did. -/
inductive Contends (id : Uuid) : Program (Except Failure Unit) → Prop where
  | begun : Contends id (Engine.activate id).run
  | checked : Contends id (Engine.switch id).run

/-- A call that has failed because of the state of what it is about. -/
inductive Refused {α : Type} : Program (Except Failure α) → Prop where
  | failed {failure : Failure} (state : failure.kind = .invalidState) :
      Refused (.done (.error failure))

theorem Refused.isDone {α : Type} {program : Program (Except Failure α)}
    (refused : Refused program) : program.isDone = true := by
  cases refused with
  | failed state => rfl

namespace Contends

variable {definition : Definition} {program : Program (Except Failure Unit)} {store : Store}
  {moment : Moment}

theorem not_isDone {id : Uuid} (contends : Contends id program) : ¬ program.isDone = true := by
  cases contends with
  | begun => exact Bool.false_ne_true
  | checked => exact Bool.false_ne_true

/-- As long as a definition is a draft, a call goes on, or it makes it active and succeeds. -/
theorem turn_draft (contends : Contends definition.id program) (holds : store.Holds definition)
    (draft : definition.status = .draft) (valid : definition.validate.isOk = true)
    (healthy : moment.fault = none) :
    ((program.turn moment store).2.Holds definition ∧
        Contends definition.id (program.turn moment store).1) ∨
      ((program.turn moment store).2.Holds { definition with status := .active } ∧
        (program.turn moment store).1 = .done (.ok ())) := by
  cases contends with
  | begun =>
    obtain ⟨next, begins, reads⟩ := Engine.activate_run definition.id
    have passive : ¬ definition.isActive = true := by simp [Definition.isActive, draft]
    left
    rw [begins, Program.turn_store healthy, holds.load, reads definition valid, if_neg passive]
    exact ⟨holds, .checked⟩
  | checked =>
    obtain ⟨next, switches, moved, _⟩ := Engine.switch_run definition.id
    obtain ⟨told, after⟩ := holds.transition .draft .active moment.now
    rw [decide_eq_true draft] at told
    rw [if_pos draft] at after
    right
    rw [switches, Program.turn_store healthy, told, moved]
    exact ⟨after, rfl⟩

/-- Once the definition is active, a call is refused. -/
theorem turn_active (contends : Contends definition.id program) (holds : store.Holds definition)
    (active : definition.status = .active) (valid : definition.validate.isOk = true)
    (healthy : moment.fault = none) :
    (program.turn moment store).2.Holds definition ∧ Refused (program.turn moment store).1 := by
  cases contends with
  | begun =>
    obtain ⟨next, begins, reads⟩ := Engine.activate_run definition.id
    have late : definition.isActive = true := by simp [Definition.isActive, active]
    rw [begins, Program.turn_store healthy, holds.load, reads definition valid, if_pos late]
    exact ⟨holds, .failed rfl⟩
  | checked =>
    obtain ⟨next, switches, _, stayed⟩ := Engine.switch_run definition.id
    obtain ⟨told, after⟩ := holds.transition .draft .active moment.now
    have different : definition.status ≠ .draft := by
      rw [active]
      decide
    rw [decide_eq_false different] at told
    rw [if_neg different] at after
    rw [switches, Program.turn_store healthy, told, stayed]
    exact ⟨after, .failed rfl⟩

end Contends

/-- What happens in a race: a request of one call is answered, or somebody else does something to
the store. -/
inductive Turn (Caller : Type) where
  | answers (caller : Caller) (moment : Moment)
  | others (change : Store → Store)

/-- A turn in which the store is well, and which spares a definition if it is not that of a call. -/
def Turn.Spares {Caller : Type} (id : Uuid) : Turn Caller → Prop
  | answers _ moment => moment.fault = none
  | others change => ∀ store : Store, store.Spares id (change store)

def Turn.isOf {Caller : Type} [DecidableEq Caller] (caller : Caller) : Turn Caller → Bool
  | answers other _ => other = caller
  | others _ => false

structure Race (Caller : Type) where
  store : Store
  calls : Caller → Program (Except Failure Unit)

namespace Race

variable {Caller : Type}

def begin (id : Uuid) (store : Store) : Race Caller :=
  { store, calls := fun _ => (EngineCall.activate id).operation.run }

def IsOver (race : Race Caller) : Prop :=
  ∀ caller, (race.calls caller).isDone = true

/-- A race for a draft that nobody has won yet, or one caller has. -/
inductive Stands (draft : Definition) (race : Race Caller) : Prop where
  | undecided (stored : race.store.Holds draft)
      (contend : ∀ caller, Contends draft.id (race.calls caller))
  | decided (winner : Caller) (stored : race.store.Holds { draft with status := .active })
      (won : race.calls winner = .done (.ok ()))
      (others : ∀ other, other ≠ winner →
        Contends draft.id (race.calls other) ∨ Refused (race.calls other))

/-- One call has succeeded and made the draft active, which is all that has changed of it, and every
other call has failed because of its state. -/
structure Elects (draft : Definition) (winner : Caller) (race : Race Caller) : Prop where
  won : race.calls winner = .done (.ok ())
  refused : ∀ other, other ≠ winner →
    ∃ failure, race.calls other = .done (.error failure) ∧ failure.kind = .invalidState
  stored : ∀ now, (race.store.answer now (.loadDefinition draft.id)).1 =
    .ok (some { draft with status := .active })

variable {draft : Definition} {race : Race Caller}

theorem Stands.elects (stands : race.Stands draft) (ended : race.IsOver) [Nonempty Caller] :
    ∃ winner, race.Elects draft winner := by
  cases stands with
  | undecided stored contend =>
    let caller := Classical.arbitrary Caller
    exact absurd (ended caller) (contend caller).not_isDone
  | decided winner stored won others =>
    refine ⟨winner, won, fun other different => ?_, fun now => ?_⟩
    · have refused := (others other different).resolve_left fun contends =>
        contends.not_isDone (ended other)
      generalize race.calls other = program at refused
      cases refused with
      | failed state => exact ⟨_, rfl, state⟩
    · exact congrArg Prod.fst (stored.load now)

variable [DecidableEq Caller]

def turn (race : Race Caller) : Turn Caller → Race Caller
  | .answers caller moment =>
    let (rest, store) := (race.calls caller).turn moment race.store
    { store, calls := Function.update race.calls caller rest }
  | .others change => { race with store := change race.store }

def run (race : Race Caller) (turns : List (Turn Caller)) : Race Caller :=
  turns.foldl turn race

theorem turn_ended {caller : Caller} (ended : (race.calls caller).isDone = true) (moment : Moment) :
    race.turn (.answers caller moment) = race := by
  have still : (race.calls caller).turn moment race.store = (race.calls caller, race.store) := by
    cases program : race.calls caller with
    | done result => rfl
    | request operation next =>
      rw [program] at ended
      cases ended
  simp only [turn, still, Function.update_eq_self]

theorem Stands.turn (stands : race.Stands draft) (drafted : draft.status = .draft)
    (valid : draft.validate.isOk = true) {turn : Turn Caller} (spares : turn.Spares draft.id) :
    (race.turn turn).Stands draft := by
  cases turn with
  | others change =>
    cases stands with
    | undecided stored contend => exact .undecided (stored.spares (spares _)) contend
    | decided winner stored won others =>
      exact .decided winner (stored.spares (spares _)) won others
  | answers caller moment =>
    cases stands with
    | undecided stored contend =>
      -- Either the draft is only read, or this turn decides the race.
      rcases (contend caller).turn_draft stored drafted valid spares with
        ⟨kept, contends⟩ | ⟨moved, succeeds⟩
      · refine .undecided kept ((Function.forall_update_iff _ _).mpr ⟨contends, ?_⟩)
        exact fun other _ => contend other
      · refine .decided caller moved ((Function.update_self _ _ _).trans succeeds) ?_
        intro other different
        simp only [Race.turn]
        rw [Function.update_of_ne different]
        exact .inl (contend other)
    | decided winner stored won others =>
      -- The winner has ended, so that whoever still goes on meets an active definition.
      by_cases ended : (race.calls caller).isDone = true
      · rw [turn_ended ended]
        exact .decided winner stored won others
      have late : caller ≠ winner := by
        rintro rfl
        rw [won] at ended
        exact ended rfl
      have contends := (others caller late).resolve_right fun refused => ended refused.isDone
      obtain ⟨kept, refused⟩ : _ ∧ Refused ((race.calls caller).turn moment race.store).1 :=
        @Contends.turn_active { draft with status := .active } _ _ _ contends stored rfl valid spares
      refine .decided winner kept ((Function.update_of_ne (Ne.symm late) _ _).trans won) ?_
      refine (Function.forall_update_iff _ fun other call =>
        other ≠ winner → Contends draft.id call ∨ Refused call).mpr ⟨fun _ => .inr refused, ?_⟩
      exact fun other _ => others other

theorem Stands.run (stands : race.Stands draft) (drafted : draft.status = .draft)
    (valid : draft.validate.isOk = true) {turns : List (Turn Caller)}
    (spares : ∀ turn ∈ turns, turn.Spares draft.id) : (race.run turns).Stands draft := by
  induction turns generalizing race with
  | nil => exact stands
  | cons turn rest ih =>
    have next := stands.turn drafted valid (spares turn List.mem_cons_self)
    exact ih next fun later member => spares later (List.mem_cons_of_mem _ member)

theorem turn_endsWithin {caller : Caller} {count : Nat}
    (ends : (race.calls caller).EndsWithin count) (turn : Turn Caller) :
    ((race.turn turn).calls caller).EndsWithin (count - if turn.isOf caller then 1 else 0) := by
  cases turn with
  | others change => exact ends
  | answers other moment =>
    simp only [Race.turn, Turn.isOf, decide_eq_true_eq]
    by_cases own : other = caller
    · subst own
      rw [if_pos rfl, Function.update_self]
      exact ends.turn moment race.store
    · rw [if_neg own, Function.update_of_ne (Ne.symm own)]
      exact ends

/-- A call ends by its turns, whatever happens in between. -/
theorem run_endsWithin {caller : Caller} {count : Nat}
    (ends : (race.calls caller).EndsWithin count) (turns : List (Turn Caller)) :
    ((race.run turns).calls caller).EndsWithin (count - turns.countP (·.isOf caller)) := by
  induction turns generalizing race count with
  | nil => exact ends
  | cons turn rest ih =>
    have next := ih (turn_endsWithin ends turn)
    rw [List.countP_cons, Nat.add_comm, ← Nat.sub_sub]
    exact next

end Race

/-- Of calls that make a definition active that has been stored as a draft, however many there are,
whatever the order in which their requests are answered and whatever others do to the rest of the
store in between, each ends by its second request, and when all have ended, exactly one of them has
succeeded. The definition is as it was stored except that it is active. -/
theorem activations_elect {Caller : Type} [DecidableEq Caller] [Nonempty Caller]
    {before stored : Host} {definition : Definition} {moments : Moments}
    (defined : before.perform ⟨.define definition, moments⟩ = (.ok definition.id, stored))
    (healthy : stored.store.Healthy definition) :
    ∃ draft : Definition,
      draft = { definition with status := .draft, createdAt := draft.createdAt } ∧
      (∀ now, (stored.store.answer now (.loadDefinition definition.id)).1 = .ok (some draft)) ∧
      ∀ turns : List (Turn Caller), (∀ turn ∈ turns, turn.Spares definition.id) →
        (∀ caller, 2 ≤ turns.countP (·.isOf caller) →
          (((Race.begin definition.id stored.store).run turns).calls caller).isDone = true) ∧
        (((Race.begin definition.id stored.store).run turns).IsOver →
          ∃ winner, ((Race.begin definition.id stored.store).run turns).Elects draft winner) := by
  obtain ⟨valid, date, holds⟩ := Host.define_holds defined healthy
  let draft : Definition := { definition with status := .draft, createdAt := date }
  have begins : (Race.begin definition.id stored.store : Race Caller).Stands draft :=
    .undecided holds fun _ => .begun
  refine ⟨draft, rfl, fun now => congrArg Prod.fst (holds.load now), ?_⟩
  intro turns spares
  refine ⟨fun caller turned => ?_, fun ended => ?_⟩
  · have first : ((Race.begin definition.id stored.store : Race Caller).calls caller).EndsWithin 2 :=
      Engine.activate_endsWithin definition.id
    have ends := Race.run_endsWithin first turns
    rw [Nat.sub_eq_zero_of_le turned] at ends
    exact ends.isDone
  · exact (begins.run rfl valid spares).elects ended

def articleDraft (store : Store) : Host :=
  (({ store } : Host).perform ⟨.define article, calm 10⟩).2

def articleReport : StoreCall Unit :=
  .saveDefinition { article with id := Uuid.ofNat 2, name := "report" }

/-- Two callers read the draft before one of them makes it active, while somebody else stores another
definition; a third one comes late. -/
def articleElectionTurns : List (Turn (Fin 3)) := [
  .answers 0 (calm 20 0), .answers 1 (calm 20 1),
  .others fun store => (store.answer .epoch articleReport).2,
  .answers 1 (calm 20 2), .answers 0 (calm 20 3), .answers 2 (calm 20 4), .answers 2 (calm 20 5)]

def articleElection (store : Store) : Race (Fin 3) :=
  (Race.begin article.id (articleDraft store).store).run articleElectionTurns

/-- One of the three makes the article active, in a store of either kind. -/
theorem article_race_elects :
    (∃ draft winner, (articleElection (.memory {})).Elects draft winner) ∧
      ∃ draft winner, (articleElection (.relational {})).Elects draft winner := by
  have spares : ∀ turn ∈ articleElectionTurns, turn.Spares article.id := by
    simp only [articleElectionTurns, List.forall_mem_cons]
    have other : ¬ articleReport.Concerns article.id :=
      show ¬ Uuid.ofNat 2 = article.id by decide
    exact ⟨rfl, rfl, Store.answer_spares other .epoch, rfl, rfl, rfl, rfl, List.forall_mem_nil _⟩
  have turned : ∀ caller : Fin 3, 2 ≤ articleElectionTurns.countP (·.isOf caller) := by decide
  constructor
  · have defined : ({ store := .memory {} } : Host).perform ⟨.define article, calm 10⟩ =
        (.ok article.id, articleDraft (.memory {})) := Prod.ext rfl rfl
    obtain ⟨draft, _, _, elects⟩ := @activations_elect (Fin 3) _ _ _ _ _ _ defined trivial
    obtain ⟨ended, elects⟩ := elects articleElectionTurns spares
    exact ⟨draft, elects fun caller => ended caller (turned caller)⟩
  · have defined : ({ store := .relational {} } : Host).perform ⟨.define article, calm 10⟩ =
        (.ok article.id, articleDraft (.relational {})) := Prod.ext rfl rfl
    have healthy : (articleDraft (.relational {})).store.Healthy article := ⟨rfl, article_readsBack⟩
    obtain ⟨draft, _, _, elects⟩ := @activations_elect (Fin 3) _ _ _ _ _ _ defined healthy
    obtain ⟨ended, elects⟩ := elects articleElectionTurns spares
    exact ⟨draft, elects fun caller => ended caller (turned caller)⟩

end Workflow
