import Workflow.Proofs.World

/-! Operations that consult the directory and the source of identifiers, and ask for nothing else.
What such an operation concludes is proved once, for every answer; that it changes nothing, whoever
answers, follows from its form. -/

namespace Workflow

def Request.IsConsulting {α : Type} : Request α → Prop
  | holders _ | hasRole .. | freshId => True
  | _ => False

/-- A moment at which no role has a holder. -/
def Moment.deserted : Moment where
  holders _ := .ok []
  hasRole _ _ := .ok false
  now := .epoch
  freshId := Uuid.ofNat 0

namespace Program

/-- A program that makes certain requests only, whatever it is told. -/
def Uses (allowed : {β : Type} → Request β → Prop) {α : Type} : Program α → Prop
  | .done _ => True
  | .request operation next => allowed operation ∧ ∀ answer, (next answer).Uses allowed

theorem Uses.mono {allowed wider : {β : Type} → Request β → Prop} {α : Type} {program : Program α}
    (uses : program.Uses allowed)
    (implies : ∀ {β : Type} (operation : Request β), allowed operation → wider operation) :
    program.Uses wider := by
  induction program with
  | done result => trivial
  | request operation next ih =>
    exact ⟨implies operation uses.1, fun answer => ih answer (uses.2 answer)⟩

theorem Uses.bind {allowed : {β : Type} → Request β → Prop} {α β : Type} {program : Program α}
    {next : α → Program β} (uses : program.Uses allowed)
    (resume : ∀ result, (next result).Uses allowed) : (program.bind next).Uses allowed := by
  induction program with
  | done result => exact resume result
  | request operation rest ih => exact ⟨uses.1, fun answer => ih answer (uses.2 answer)⟩

/-- What a program ends with, whatever it is told. -/
inductive Yields {α : Type} (post : α → Prop) : Program α → Prop where
  | done {result : α} (holds : post result) : Yields post (.done result)
  | request {β : Type} {operation : Request β} {next : β → Program α}
      (resume : ∀ answer, Yields post (next answer)) : Yields post (.request operation next)

section Yields

variable {α β : Type} {program : Program α} {first : α → Prop}

theorem Yields.bind {post : β → Prop} {next : α → Program β} (yields : program.Yields first)
    (resume : ∀ result, first result → (next result).Yields post) :
    (program >>= next).Yields post := by
  induction yields with
  | done holds => exact resume _ holds
  | request _ ih => exact .request ih

theorem Yields.mono {post : α → Prop} (yields : program.Yields first)
    (implies : ∀ result, first result → post result) : program.Yields post := by
  induction yields with
  | done holds => exact .done (implies _ holds)
  | request _ ih => exact .request ih

theorem yields_true (program : Program α) : program.Yields fun _ => True := by
  induction program with
  | done _ => exact .done trivial
  | request _ _ ih => exact .request ih

theorem Yields.bind_congr {next other : α → Program β} (yields : program.Yields first)
    (same : ∀ result, first result → next result = other result) :
    program >>= next = program >>= other := by
  induction yields with
  | done holds => exact same _ holds
  | request _ ih => exact congrArg (Program.request _) (funext ih)

end Yields

/-- A program that only consults, at permitted moments, with what holds of its result and of the
identifiers drawn by then, the last one first. -/
inductive Consults {α : Type} (permits : Moment → Prop) (post : List Uuid → α → Prop) :
    List Uuid → Program α → Prop where
  | done {drawn : List Uuid} {result : α} (holds : post drawn result) :
      Consults permits post drawn (.done result)
  | holders {drawn : List Uuid} {role : String} {next : Except Failure (List String) → Program α}
      (resume : ∀ moment, permits moment → Consults permits post drawn (next (moment.holders role))) :
      Consults permits post drawn (.request (.holders role) next)
  | hasRole {drawn : List Uuid} {principal role : String} {next : Except Failure Bool → Program α}
      (resume : ∀ moment, permits moment →
        Consults permits post drawn (next (moment.hasRole principal role))) :
      Consults permits post drawn (.request (.hasRole principal role) next)
  | freshId {drawn : List Uuid} {next : Uuid → Program α}
      (resume : ∀ moment, permits moment →
        Consults permits post (moment.freshId :: drawn) (next moment.freshId)) :
      Consults permits post drawn (.request .freshId next)

variable {permits : Moment → Prop} {α β : Type} {drawn : List Uuid}

theorem Consults.bind {program : Program α} {next : α → Program β}
    {first : List Uuid → α → Prop} {post : List Uuid → β → Prop}
    (consults : Consults permits first drawn program)
    (resume : ∀ ids result, first ids result → Consults permits post ids (next result)) :
    Consults permits post drawn (program.bind next) := by
  induction consults with
  | done holds => exact resume _ _ holds
  | holders _ ih => exact .holders ih
  | hasRole _ ih => exact .hasRole ih
  | freshId _ ih => exact .freshId ih

theorem Consults.run {program : Program α} {post : List Uuid → α → Prop} {moments : Moments}
    {world : World} (consults : Consults permits post drawn program)
    (within : ∀ n, permits (moments n)) (same : world.drawn = drawn) :
    (World.run moments program world).2.records = world.records ∧
      (World.run moments program world).2.sent = world.sent ∧
      post (World.run moments program world).2.drawn (World.run moments program world).1 := by
  induction consults generalizing world with
  | done holds => exact ⟨rfl, rfl, same ▸ holds⟩
  | holders _ ih => exact ih _ (within _) same
  | hasRole _ ih => exact ih _ (within _) same
  | freshId _ ih => exact ih _ (within _) (congrArg (_ :: ·) same)

/-- What holds of a program at all moments holds whatever it is told. -/
theorem Consults.uses_yields {program : Program α} {post : List Uuid → α → Prop}
    (consults : Consults (fun _ => True) post drawn program) :
    program.Uses Request.IsConsulting ∧ program.Yields fun result => ∃ ids, post ids result := by
  induction consults with
  | done holds => exact ⟨trivial, .done ⟨_, holds⟩⟩
  | holders _ ih =>
    have each answer := ih { Moment.deserted with holders := fun _ => answer } trivial
    exact ⟨⟨trivial, fun answer => (each answer).1⟩, .request fun answer => (each answer).2⟩
  | hasRole _ ih =>
    have each answer := ih { Moment.deserted with hasRole := fun _ _ => answer } trivial
    exact ⟨⟨trivial, fun answer => (each answer).1⟩, .request fun answer => (each answer).2⟩
  | freshId _ ih =>
    have each answer := ih { Moment.deserted with freshId := answer } trivial
    exact ⟨⟨trivial, fun answer => (each answer).1⟩, .request fun answer => (each answer).2⟩

theorem Consults.uses {program : Program α} {post : List Uuid → α → Prop}
    (consults : Consults (fun _ => True) post drawn program) :
    program.Uses Request.IsConsulting :=
  consults.uses_yields.1

theorem Consults.yields {program : Program α} {post : List Uuid → α → Prop}
    (consults : Consults (fun _ => True) post drawn program) :
    program.Yields fun result => ∃ ids, post ids result :=
  consults.uses_yields.2

end Program

namespace Operation

def Consults {α : Type} (permits : Moment → Prop) (drawn : List Uuid) (operation : Operation α)
    (post : List Uuid → Except Failure α → Prop) : Prop :=
  Program.Consults permits post drawn operation.run

namespace Consults

variable {permits : Moment → Prop} {α β : Type} {drawn : List Uuid}
  {post : List Uuid → Except Failure β → Prop}

theorem pure {value : β} (holds : post drawn (.ok value)) :
    Consults permits drawn (Pure.pure value) post :=
  .done holds

theorem throw {failure : Failure} (holds : post drawn (.error failure)) :
    Consults permits drawn (throw failure : Operation β) post :=
  .done holds

theorem bind {operation : Operation α} {next : α → Operation β}
    {first : List Uuid → Except Failure α → Prop}
    (consults : Consults permits drawn operation first)
    (failed : ∀ ids failure, first ids (.error failure) → post ids (.error failure))
    (resume : ∀ ids value, first ids (.ok value) → Consults permits ids (next value) post) :
    Consults permits drawn (operation >>= next) post := by
  refine Program.Consults.bind consults fun ids result holds => ?_
  cases result with
  | error failure => exact throw (failed ids failure holds)
  | ok value => exact resume ids value holds

theorem holders {role : String} {post : List Uuid → Except Failure (List String) → Prop}
    (told : ∀ moment, permits moment → post drawn (moment.holders role)) :
    Consults permits drawn (Operation.attempt (.holders role)) post := by
  refine Program.Consults.holders fun moment permitted => ?_
  have answered := told moment permitted
  generalize moment.holders role = answer at answered ⊢
  cases answer with
  | ok listed => exact .done answered
  | error failure => exact .done answered

theorem hasRole {principal role : String} {post : List Uuid → Except Failure Bool → Prop}
    (told : ∀ moment, permits moment → post drawn (moment.hasRole principal role)) :
    Consults permits drawn (Operation.attempt (.hasRole principal role)) post := by
  refine Program.Consults.hasRole fun moment permitted => ?_
  have answered := told moment permitted
  generalize moment.hasRole principal role = answer at answered ⊢
  cases answer with
  | ok held => exact .done answered
  | error failure => exact .done answered

theorem freshId {post : List Uuid → Except Failure Uuid → Prop}
    (told : ∀ id, post (id :: drawn) (.ok id)) :
    Consults permits drawn (Operation.ask .freshId) post :=
  Program.Consults.freshId fun moment _ => .done (told moment.freshId)

theorem ends {operation : Operation β} {moments : Moments} {world : World}
    (consults : Consults permits world.drawn operation post) (within : ∀ n, permits (moments n)) :
    World.Ends moments operation world fun result after =>
      after.records = world.records ∧ after.sent = world.sent ∧ post after.drawn result :=
  Program.Consults.run consults within rfl

end Consults

end Operation

end Workflow
