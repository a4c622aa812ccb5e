import Workflow.Proofs.Histories
import Workflow.Proofs.Routes

/-! Every route makes a task. With a directory that answers, what leaves a step makes one pending
task for each route from it, for the step at the end of the route, and no other; the tasks are made
in the order of the routes. -/

namespace Workflow

open World

variable {definition : Definition} {moments : Moments}

/-- A pending task made at the end of a route, for whom the rule of the step there resolves to. -/
structure MadeFor (moments : Moments) (target : Instance) (acting : String) (now : Timestamp)
    (route : List Nat × Step) (task : Task) : Prop where
  pending : task.isPending = true
  located : task.instanceId = target.id
  placed : task.stepId = route.2.id
  made : ∃ assignment, Resolves (fun moment => ∃ n, moments n = moment) target.data acting
    route.2.assign assignment ∧ task = Task.make task.id target route.2 assignment now

/-- A moment at which the directory says who holds a role, whichever role it is asked for. -/
def Moment.Lists (moment : Moment) : Prop :=
  ∀ role, ∃ principals, moment.holders role = .ok principals

namespace Operation

/-- An operation that consults the directory, and does not fail as long as the directory answers. -/
def Succeeds {α : Type} (drawn : List Uuid) (operation : Operation α) : Prop :=
  operation.Consults Moment.Lists drawn fun _ result => ∃ value, result = .ok value

variable {α β : Type} {drawn : List Uuid}

theorem Succeeds.pure (value : α) : Succeeds drawn (Pure.pure value) :=
  Consults.pure ⟨value, rfl⟩

theorem Succeeds.bind {operation : Operation α} {next : α → Operation β}
    (succeeds : Succeeds drawn operation) (resume : ∀ ids value, Succeeds ids (next value)) :
    Succeeds drawn (operation >>= next) := by
  refine Consults.bind succeeds ?_ fun ids value _ => resume ids value
  intro _ _ failed
  obtain ⟨_, impossible⟩ := failed
  cases impossible

theorem holders_succeeds (role : String) :
    Succeeds drawn (Operation.attempt (.holders role)) :=
  Consults.holders fun _ lists => lists role

theorem freshId_succeeds : Succeeds drawn (Operation.ask .freshId) :=
  Consults.freshId fun id => ⟨id, rfl⟩

end Operation

theorem resolve_succeeds {drawn : List Uuid} (rule : Option AssignmentRule) (data : Json.Members)
    (acting : String) : Operation.Succeeds drawn (AssignmentRule.resolve rule data acting) := by
  cases rule with
  | none => exact .pure _
  | some rule =>
    simp only [AssignmentRule.resolve]
    cases rule.direct? data with
    | some principal => exact .pure _
    | none =>
      cases rule.role.bind nonEmpty with
      | none => exact .pure _
      | some role => exact (Operation.holders_succeeds role).bind fun _ _ => .pure _

theorem createTask_succeeds {drawn : List Uuid} (target : Instance) (step : Step) (acting : String)
    (now : Timestamp) : Operation.Succeeds drawn (Engine.createTask target step acting now) :=
  (resolve_succeeds step.assign target.data acting).bind fun _ _ =>
    Operation.freshId_succeeds.bind fun _ _ => .pure _

theorem createTasks_succeeds {drawn : List Uuid} (target : Instance) (acting : String)
    (now : Timestamp) (routes : List (List Nat × Step)) :
    Operation.Succeeds drawn
      (Engine.createTasks target acting now (routes.map Arrival.ofRoute)) := by
  induction routes generalizing drawn with
  | nil => exact .pure _
  | cons route rest ih =>
    exact (createTask_succeeds target route.2 acting now).bind fun _ _ => ih.bind fun _ _ => .pure _

theorem Creates.madeFor {target : Instance} {acting : String} {now : Timestamp}
    {routes : List (List Nat × Step)} {tasks : List Task}
    (creates : Creates (fun moment => ∃ n, moments n = moment) target acting now
      (routes.map Arrival.ofRoute) tasks) :
    List.Forall₂ (MadeFor moments target acting now) routes tasks := by
  induction routes generalizing tasks with
  | nil =>
    cases creates with
    | nil => exact .nil
  | cons route rest ih =>
    cases creates with
    | cons resolved later => exact .cons ⟨rfl, rfl, rfl, _, resolved, rfl⟩ (ih later)

/-- What leaves a step for which tasks are made makes one pending task for each route from there,
in the order of the routes, and nothing else. The transitions of which routes consist are those that
fire, in their order. -/
theorem routes_make_tasks (valid : definition.validate.isOk = true) {source : Step}
    (placed : source ∈ definition.steps) (makes : source.kind.createsTask = true)
    (target : Instance) (acting : String) (now : Timestamp) (lists : ∀ n, (moments n).Lists)
    (world : World) :
    (∀ step : Step, step.kind ≠ .finish → step.fired target.data =
        step.transitions.filter fun transition => step.Due target.data transition) ∧
      ∃ routes tasks, definition.Routes target.data source routes ∧
        (run moments (Engine.createTasks target acting now
          (definition.arrivals target.data source)).run world).1 = .ok tasks ∧
        List.Forall₂ (MadeFor moments target acting now) routes tasks := by
  have formed := Definition.wellFormed_of_isOk valid
  have leaves := (StepKind.createsTask_iff.mp makes).1
  refine ⟨fun step leaves => by simp [step.fired_eq, leaves],
    definition.routes target.data source, ?_⟩
  rw [formed.arrivals_routes placed]
  obtain ⟨_, _, tasks, succeeded⟩ := @Operation.Consults.ends _ _ _ _ moments world
    (createTasks_succeeds target acting now (definition.routes target.data source)) lists
  obtain ⟨_, _, told⟩ := @Operation.Consults.ends (fun moment => ∃ n, moments n = moment) _ _ _
    moments world (createTasks_consults target acting now _) fun n => ⟨n, rfl⟩
  rw [succeeded] at told
  exact ⟨tasks, Definition.routes_complete leaves, succeeded, told.2.madeFor⟩

/-- An article that passes two desks, in whatever order: each of them sends it on to the other, and
the second one has it reviewed if it has a high grade. -/
def circulatedArticle : Definition :=
  .make (Uuid.ofNat 1) "article" "1" "write" [
    { id := "write", kind := .task, transitions := [
        .always "fork",
        .onlyWhen "desk" { field := "grade", op := .greaterThan, value := .int 1 }] },
    { id := "fork", kind := .gateway, transitions := [.always "desk", .always "review"] },
    { id := "desk", kind := .gateway, transitions := [
        .always "fork", .ifNoneFires "end", .always "print",
        .onlyWhen "review" { field := "grade", op := .greaterThan, value := .int 3 }] },
    { id := "review", kind := .approval, assign := some { role := some "editor" },
      transitions := [.always "end"] },
    { id := "print", kind := .task, transitions := [.always "end"] },
    { id := "end", kind := .finish }]

def circulated : Instance :=
  Instance.begin (Uuid.ofNat 32) circulatedArticle [("grade", .int 2)] "ada" .epoch

/-- Both desks are shared by two routes, and neither is entered twice on one of them. The grade is
too low for a review by the second desk. -/
theorem circulated_article_branches :
    (circulatedArticle.startStep?.toList.flatMap fun source =>
        (circulatedArticle.routes circulated.data source).map fun route =>
          (route.1, route.2.id)) =
      [([0, 1], "review"), ([1, 2], "print"), ([0, 0, 2], "print"), ([1, 0, 1], "review")] ∧
    ∃ source routes tasks, circulatedArticle.startStep? = some source ∧
      circulatedArticle.Routes circulated.data source routes ∧
      (run (calm 40) (Engine.createTasks circulated "ada" .epoch
        (circulatedArticle.arrivals circulated.data source)).run {}).1 = .ok tasks ∧
      List.Forall₂ (MadeFor (calm 40) circulated "ada" .epoch) routes tasks := by
  obtain ⟨-, routes, tasks, routed, made, own⟩ := @routes_make_tasks circulatedArticle (calm 40)
    (by decide) _ (.head _) rfl circulated "ada" .epoch (fun _ _ => ⟨_, rfl⟩) {}
  exact ⟨by decide +kernel, _, routes, tasks, rfl, routed, made, own⟩

end Workflow
