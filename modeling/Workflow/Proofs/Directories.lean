import Workflow.Proofs.Branching
import Workflow.Proofs.CompletionOutcome

/-! A directory that never fails and gives the same answers whenever it is asked. Its answers settle
to whom a task is assigned and who may complete it, whatever is asked in between and in whatever
order. -/

namespace Workflow

open World

section Least

variable {texts others : List String} {text : String}

private theorem foldl_least (texts : List String) (best : String) :
    ∃ text, texts.foldl (fun best text => match best with
        | some best => some (if text < best then text else best)
        | none => some text) (some best) = some text ∧
      text ∈ best :: texts ∧ ∀ other ∈ best :: texts, text ≤ other := by
  induction texts generalizing best with
  | nil => exact ⟨best, rfl, List.mem_cons_self, by simp⟩
  | cons next rest ih =>
    obtain ⟨text, found, member, bound⟩ := ih (if next < best then next else best)
    refine ⟨text, found, ?_, ?_⟩
    · split at member
      · exact List.mem_cons_of_mem _ member
      · rcases List.mem_cons.mp member with rfl | later
        · exact List.mem_cons_self
        · exact List.mem_cons_of_mem _ (List.mem_cons_of_mem _ later)
    · obtain ⟨first, later⟩ := List.forall_mem_cons.mp bound
      -- The better one of the two is not above either of them.
      have both : text ≤ best ∧ text ≤ next := by
        split at first
        next less => exact ⟨String.le_trans first (Std.le_of_lt less), first⟩
        next least => exact ⟨first, String.le_trans first (String.not_lt.mp least)⟩
      exact List.forall_mem_cons.mpr ⟨both.1, List.forall_mem_cons.mpr ⟨both.2, later⟩⟩

theorem least_eq_none : least texts = none ↔ texts = [] := by
  cases texts with
  | nil => exact ⟨fun _ => rfl, fun _ => rfl⟩
  | cons first rest =>
    obtain ⟨text, found, _⟩ := foldl_least rest first
    refine ⟨fun none => ?_, nofun⟩
    cases found.symm.trans none

theorem least_eq_some : least texts = some text ↔ text ∈ texts ∧ ∀ other ∈ texts, text ≤ other := by
  cases texts with
  | nil => exact ⟨nofun, fun ⟨member, _⟩ => nomatch member⟩
  | cons first rest =>
    obtain ⟨best, found, member, bound⟩ := foldl_least rest first
    have same : least (first :: rest) = some best := found
    rw [same]
    constructor
    · rintro ⟨⟩
      exact ⟨member, bound⟩
    · rintro ⟨here, below⟩
      exact congrArg some (String.le_antisymm (bound _ here) (below _ member))

/-- The order of texts and their repetitions have no part in which one is the least. -/
theorem least_congr (same : ∀ text, text ∈ texts ↔ text ∈ others) : least texts = least others := by
  refine Option.ext fun text => ?_
  simp only [least_eq_some, same]

end Least

/-- A moment at which a directory gives the answers that it always gives. -/
structure Served (roster : String → List String) (holds : String → String → Bool)
    (moment : Moment) : Prop where
  holders : ∀ role, moment.holders role = .ok (roster role)
  hasRole : ∀ principal role, moment.hasRole principal role = .ok (holds principal role)

def AssignmentRule.assignment (roster : String → List String) (rule : Option AssignmentRule)
    (data : Json.Members) (acting : String) : Assignment :=
  match rule with
  | none => { principal := some acting }
  | some rule =>
    match rule.direct? data, rule.role.bind nonEmpty with
    | some principal, _ => { principal := some principal }
    | none, some role => { principal := least (roster role), role := some role }
    | none, none => { principal := some acting }

variable {roster : String → List String} {holds : String → String → Bool}

theorem Served.lists {moment : Moment} (served : Served roster holds moment) : moment.Lists :=
  fun role => ⟨_, served.holders role⟩

theorem Resolves.eq_assignment {rule : Option AssignmentRule} {data : Json.Members}
    {acting : String} {assignment : Assignment}
    (resolves : Resolves (Served roster holds) data acting rule assignment) :
    assignment = AssignmentRule.assignment roster rule data acting := by
  cases resolves with
  | unruled => rfl
  | direct named => simp only [AssignmentRule.assignment, named]
  | role unnamed named served listed =>
    cases listed.symm.trans (served.holders _)
    simp only [AssignmentRule.assignment, unnamed, named]
  | acting unnamed noRole => simp only [AssignmentRule.assignment, unnamed, noRole]

/-- A principal may complete a task as its assignee or as a holder of its role, and everybody may if
it has neither. -/
def Authorized (holds : String → String → Bool) (task : Task) (principal : String) : Prop :=
  Entitled holds task principal ∨ task.assignee = none ∧ task.assignedRole = none

section Runs

variable {moments : Moments} {world : World}

theorem createTask_served (served : ∀ n, Served roster holds (moments n)) (target : Instance)
    (step : Step) (acting : String) (now : Timestamp) :
    ∃ id, (run moments (Engine.createTask target step acting now).run world).1 =
      .ok (Task.make id target step
        (AssignmentRule.assignment roster step.assign target.data acting) now) := by
  obtain ⟨_, _, task, made⟩ := @Operation.Consults.ends _ _ _ _ moments world
    (createTask_succeeds target step acting now) fun n => (served n).lists
  obtain ⟨_, _, told⟩ := @Operation.Consults.ends _ _ _ _ moments world
    (createTask_consults target step acting now) served
  rw [made] at told
  obtain ⟨_, assignment, resolves, same⟩ := told
  exact ⟨task.id, by rw [made, ← resolves.eq_assignment, ← same]⟩

theorem authorize_served (served : ∀ n, Served roster holds (moments n)) (task : Task)
    (principal : String) : Ends moments (Engine.authorize task principal) world fun result _ =>
      (Authorized holds task principal ∧ result = .ok ()) ∨
        (¬ Authorized holds task principal ∧ result = .error (.notAllowed principal task.id)) := by
  unfold Engine.authorize
  by_cases own : task.assignee = some principal
  · rw [if_pos own]
    exact Ends.pure (Or.inl ⟨Or.inl (Or.inl own), rfl⟩)
  rw [if_neg own]
  cases assigned : task.assignedRole with
  | none =>
    cases owned : task.assignee with
    | none => exact Ends.pure (Or.inl ⟨Or.inr ⟨owned, assigned⟩, rfl⟩)
    | some owner =>
      refine Ends.throw (Or.inr ⟨?_, rfl⟩)
      simpa [Authorized, Entitled, assigned, owned] using own
  | some role =>
    have asked : Ends moments (Operation.attempt (.hasRole principal role)) world
        fun result _ => result = .ok (holds principal role) :=
      Ends.attempt ((served _).hasRole principal role)
    apply asked.bind
    · intro failure _ impossible
      cases impossible
    intro held _ told
    cases told
    cases holder : holds principal role with
    | true => exact Ends.pure (Or.inl ⟨Or.inl (Or.inr ⟨role, assigned, holder⟩), rfl⟩)
    | false =>
      refine Ends.throw (Or.inr ⟨?_, rfl⟩)
      simp [Authorized, Entitled, own, assigned, holder]

end Runs

end Workflow
