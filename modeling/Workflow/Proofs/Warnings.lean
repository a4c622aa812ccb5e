import Workflow.Proofs.Effort
import Workflow.Proofs.Histories
import Workflow.Proofs.Reachability

/-! Which steps are reported to be out of reach. The search from the start finds what chains of
declared transitions arrive at, those of steps that end a branch among them, although nothing ever
leaves such a step. So no step is reported wrongly, but a step may go unreported to which only
transitions lead that are never followed. -/

namespace Workflow

def Issue.unreached? (issue : Issue) : Option String :=
  if issue.message = Finding.unreachable.message then issue.step else none

theorem Issue.unreached?_about (id : String) :
    (Issue.about id .unreachable).unreached? = some id :=
  if_pos rfl

/-- The steps that are reported to be out of reach, in the order of the warnings. -/
def Report.unreached (report : Report) : List String :=
  report.warnings.filterMap Issue.unreached?

namespace Definition

/-- A transition is declared from a step to a target, whether it is ever followed or not. -/
def Joins (definition : Definition) (source target : String) : Prop :=
  ∃ step, definition.step? source = some step ∧
    ∃ transition ∈ step.transitions, transition.target = target

/-- A chain of transitions from the start arrives at a step, and leaves no step that ends a branch. -/
def Arrives (definition : Definition) (id : String) : Prop :=
  Relation.ReflTransGen definition.Leads definition.start id

/-- A chain of declared transitions from the start arrives at a step. -/
def Linked (definition : Definition) (id : String) : Prop :=
  Relation.ReflTransGen definition.Joins definition.start id

variable {definition : Definition}

theorem Leads.joins {source target : String} (leads : definition.Leads source target) :
    definition.Joins source target := by
  obtain ⟨step, found, _, declared⟩ := leads
  exact ⟨step, found, declared⟩

theorem Arrives.linked {id : String} (arrives : definition.Arrives id) : definition.Linked id :=
  Relation.ReflTransGen.mono (fun _ _ => Leads.joins) _ _ arrives

/-- Whatever the search finds is found along a chain from where it began. -/
theorem chain_of_mem_reach {rounds : Nat} {seen : List String} {id : String}
    (found : id ∈ definition.reach rounds seen) :
    ∃ origin ∈ seen,
      Relation.ReflTransGen (fun source target => target ∈ definition.successors source) origin id := by
  induction rounds generalizing seen with
  | zero => exact ⟨id, found, .refl⟩
  | succ rounds ih =>
    simp only [reach] at found
    split at found
    · exact ⟨id, found, .refl⟩
    obtain ⟨origin, member, chain⟩ := ih found
    rcases List.mem_append.mp member with old | new
    · exact ⟨origin, old, chain⟩
    · obtain ⟨source, here, leads⟩ :=
        List.mem_flatMap.mp (List.mem_filter.mp (List.mem_eraseDups.mp new)).1
      exact ⟨source, here, .head leads chain⟩

theorem WellFormed.mem_successors (formed : definition.WellFormed) {source target : String} :
    target ∈ definition.successors source ↔ definition.Joins source target := by
  have same : definition.lastStep? source = definition.step? source := by
    cases found : definition.step? source with
    | some step =>
      rw [← step?_id found]
      exact formed.lastStep?_eq (mem_of_step? found)
    | none =>
      have absent := List.find?_eq_none.mp found
      exact List.find?_eq_none.mpr fun step member => absent step (List.mem_reverse.mp member)
  unfold successors Joins
  rw [same]
  cases found : definition.step? source with
  | none => simp
  | some step =>
    have known : ∀ transition ∈ step.transitions,
        (definition.step? transition.target).isSome = true :=
      formed.targets step (mem_of_step? found)
    simp only [List.mem_filter, List.mem_map, Option.some.injEq, exists_eq_left', and_iff_left_iff_imp]
    rintro ⟨transition, declared, rfl⟩
    exact known transition declared

/-- The search finds exactly what is linked to the start. -/
theorem WellFormed.mem_reachable (formed : definition.WellFormed) {id : String} :
    id ∈ definition.reachable ↔ definition.Linked id := by
  constructor
  · intro found
    obtain ⟨origin, single, chain⟩ := chain_of_mem_reach found
    rw [List.mem_singleton.mp single] at chain
    exact Relation.ReflTransGen.mono (fun _ _ => formed.mem_successors.mp) _ _ chain
  · intro linked
    induction linked with
    | refl => exact definition.start_reachable
    | tail _ joins ih =>
      exact definition.reachable_closed _ ih _ (formed.mem_successors.mpr joins)

theorem validate_unreached (inhabited : definition.steps ≠ []) :
    definition.validate.unreached = definition.unreachable := by
  have others : (definition.steps.flatMap stepWarnings).filterMap Issue.unreached? = [] := by
    refine List.filterMap_eq_nil_iff.mpr fun issue member => if_neg ?_
    obtain ⟨_, _, warned⟩ := List.mem_flatMap.mp member
    exact message_of_mem_stepWarnings warned
  have own : (Issue.unreached? ∘ fun id => .about id .unreachable) = some := by
    funext id
    exact Issue.unreached?_about id
  rw [Report.unreached, validate, if_neg (by simpa using inhabited), warnings,
    List.filterMap_append, others, List.nil_append, List.filterMap_map,
    own, List.filterMap_some]

/-- Chains stay among steps that lead only to each other. -/
theorem Arrives.within {ids : List String} (start : definition.start ∈ ids)
    (closed : ∀ step ∈ definition.steps, step.id ∈ ids → step.kind ≠ .finish →
      ∀ transition ∈ step.transitions, transition.target ∈ ids)
    {id : String} (arrives : definition.Arrives id) : id ∈ ids := by
  induction arrives with
  | refl => exact start
  | tail _ leads ih =>
    obtain ⟨step, found, goesOn, transition, declared, same⟩ := leads
    rw [← step?_id found] at ih
    exact same ▸ closed step (mem_of_step? found) ih goesOn transition declared

theorem Linked.arrives (complete : ∀ step ∈ definition.steps, step.kind = .finish →
      definition.Arrives step.id →
        ∀ transition ∈ step.transitions, definition.Arrives transition.target)
    {id : String} (linked : definition.Linked id) : definition.Arrives id := by
  induction linked with
  | refl => exact .refl
  | tail _ joins ih =>
    obtain ⟨step, found, transition, declared, same⟩ := joins
    by_cases ends : step.kind = .finish
    · rw [← step?_id found] at ih
      exact same ▸ complete step (mem_of_step? found) ends ih transition declared
    · exact .tail ih ⟨step, found, ends, transition, declared, same⟩

open Classical in
/-- The steps that are reported are those that no chain of declared transitions arrives at. They are
all that are out of reach exactly if a chain that leaves no end arrives as well wherever the
transitions of an end lead. The transitions of an end never fire, and are reported to be ignored. -/
theorem unreached_are_not_linked (valid : definition.validate.isOk = true) :
    definition.validate.unreached =
        (definition.steps.filter fun step => ¬ definition.Linked step.id).map (·.id) ∧
      (definition.validate.unreached =
          (definition.steps.filter fun step => ¬ definition.Arrives step.id).map (·.id) ↔
        ∀ step ∈ definition.steps, step.kind = .finish → definition.Arrives step.id →
          ∀ transition ∈ step.transitions, definition.Arrives transition.target) ∧
      ∀ step ∈ definition.steps, step.kind = .finish →
        (∀ data, step.fired data = []) ∧
          (step.transitions ≠ [] →
            .about step.id .endHasTransitions ∈ definition.validate.warnings) := by
  have formed := wellFormed_of_isOk valid
  obtain ⟨start, placed, _⟩ := formed.started
  have inhabited : definition.steps ≠ [] := List.ne_nil_of_mem (mem_of_step? placed)
  have listed : definition.validate.unreached =
      (definition.steps.filter fun step => ¬ definition.Linked step.id).map (·.id) := by
    rw [validate_unreached inhabited, unreachable, if_pos (by rw [placed]; rfl), List.filter_map]
    congr 1
    exact List.filter_congr fun step _ => by simp [formed.mem_reachable]
  refine ⟨listed, ⟨?_, ?_⟩, ?_⟩
  · intro same step member ends here transition declared
    by_contra missed
    obtain ⟨target, found⟩ :=
      Option.isSome_iff_exists.mp (formed.targets step member transition declared)
    have reported : transition.target ∈ definition.validate.unreached := by
      rw [same, ← step?_id found]
      refine List.mem_map.mpr ⟨target, List.mem_filter.mpr ⟨mem_of_step? found, ?_⟩, rfl⟩
      rw [step?_id found]
      exact decide_eq_true missed
    rw [listed] at reported
    obtain ⟨other, unlinked, met⟩ := List.mem_map.mp reported
    have linked : definition.Linked transition.target :=
      .tail here.linked ⟨step, find?_of_mem formed.distinct member, transition, declared, rfl⟩
    exact of_decide_eq_true (List.mem_filter.mp unlinked).2 (met ▸ linked)
  · intro complete
    rw [listed]
    congr 1
    refine List.filter_congr fun step _ => ?_
    simp only [decide_eq_decide, not_iff_not]
    exact ⟨Linked.arrives complete, Arrives.linked⟩
  · intro step member ends
    refine ⟨fun data => if_pos ends, fun declares => ?_⟩
    have own : .about step.id .endHasTransitions ∈ stepWarnings step := by
      rw [stepWarnings, whenever, if_pos ⟨ends, declares⟩]
      exact List.mem_cons_self
    rw [validate, if_neg (by simpa using inhabited), warnings]
    exact List.mem_append_left _ (List.mem_flatMap.mpr ⟨step, member, own⟩)

end Definition

/-- An article that is written, and then is to be archived after its end. -/
def archivedArticle : Definition :=
  .make (Uuid.ofNat 1) "article" "1" "write" [
    { id := "write", kind := .task, transitions := [.always "end"] },
    { id := "end", kind := .finish, transitions := [.always "archive"] },
    { id := "archive", kind := .task }]

open Classical in
/-- Nobody is warned that the archive is out of reach, although no chain arrives at it. -/
theorem archive_is_not_reported :
    archivedArticle.validate.isOk = true ∧ archivedArticle.validate.unreached = [] ∧
      (archivedArticle.steps.filter fun step => ¬ archivedArticle.Arrives step.id).map (·.id) ≠
        archivedArticle.validate.unreached := by
  have none : archivedArticle.validate.unreached = [] := by decide
  refine ⟨by decide, none, fun same => ?_⟩
  have missed : ¬ archivedArticle.Arrives "archive" := by
    intro arrives
    have within := @Definition.Arrives.within _ ["write", "end"] (by decide) (by decide) _ arrives
    revert within
    decide
  have reported : "archive" ∈ archivedArticle.validate.unreached := by
    rw [← same]
    refine List.mem_map.mpr ⟨{ id := "archive", kind := .task }, List.mem_filter.mpr ⟨?_, ?_⟩, rfl⟩
    · exact .tail _ (.tail _ (.head _))
    · exact decide_eq_true missed
  rw [none] at reported
  cases reported

/-- An article whose end leads back to where it began, and whose archive is out of reach. -/
def reopenedArticle : Definition :=
  .make (Uuid.ofNat 1) "article" "1" "write" [
    { id := "archive", kind := .task, transitions := [.always "archive", .always "write"] },
    { id := "write", kind := .task, transitions := [.always "end", .ifNoneFires "write"] },
    { id := "end", kind := .finish, transitions := [.always "write"] }]

open Classical in
/-- The archive is all that is out of reach, and is reported. -/
theorem reopened_article_is_reported :
    reopenedArticle.validate.isOk = true ∧ reopenedArticle.validate.unreached = ["archive"] ∧
      reopenedArticle.validate.unreached =
        (reopenedArticle.steps.filter fun step => ¬ reopenedArticle.Arrives step.id).map (·.id) := by
  have valid : reopenedArticle.validate.isOk = true := by decide
  refine ⟨valid, by decide, ?_⟩
  have back : ∀ step ∈ reopenedArticle.steps, step.kind = .finish →
      ∀ transition ∈ step.transitions, transition.target = reopenedArticle.start := by decide
  refine (Definition.unreached_are_not_linked valid).2.1.mpr ?_
  intro step member ends _ transition declared
  rw [back step member ends transition declared]
  exact .refl

end Workflow
