import Workflow.Proofs.Registration
import Workflow.Proofs.Retention

/-! What the records refer to. The store writes whatever it is given, so that nothing but the calls
sees to it that definitions are those which were submitted, that they stay, and that instances and
tasks belong to definitions. The invariants are kept by every effect of a call; where a definition
comes from is followed through the history. -/

namespace Workflow

namespace Definition

def drafted (definition : Definition) (now : Timestamp) : Definition :=
  { definition with status := .draft, createdAt := some now }

/-- A definition has stayed as it was, or it was a draft and is active now. -/
def Becomes (old new : Definition) : Prop :=
  new = old ∨ old.status = .draft ∧ new = { old with status := .active }

theorem Becomes.refl (definition : Definition) : definition.Becomes definition :=
  Or.inl rfl

theorem Becomes.trans {old middle new : Definition} (early : old.Becomes middle)
    (late : middle.Becomes new) : old.Becomes new := by
  rcases early with same | ⟨draft, moved⟩
  · exact same ▸ late
  · rcases late with same | ⟨impossible, _⟩
    · exact Or.inr ⟨draft, same.trans moved⟩
    · rw [moved] at impossible
      cases impossible

end Definition

def EngineCall.Submits {α : Type} : EngineCall α → α → Definition → Prop
  | define definition, id, submitted => definition = submitted ∧ id = submitted.id
  | _, _, _ => False

variable {permits : Moment → Prop} {records after : MemoryStore} {α : Type} {call : EngineCall α}
  {value : α} {drawn : List Uuid}

theorem Effect.keeps_definition (effect : Effect permits records call value drawn after) {id : Uuid}
    {old : Definition} (found : records.definition? id = some old) :
    ∃ new, after.definition? id = some new ∧ old.Becomes new := by
  cases effect with
  | read _ => exact ⟨old, found, .refl old⟩
  | @defined definition _ _ _ unused =>
    refine ⟨old, ?_, .refl old⟩
    rw [MemoryStore.definition?_saveDefinition, if_neg, found]
    intro same
    have taken : records.definition? definition.id = some old := same ▸ found
    cases unused.symm.trans taken
  | @activated other definition known draft =>
    have named := MemoryStore.definition?_id known
    rw [MemoryStore.definition?_saveDefinition]
    by_cases same : definition.id = id
    · rw [← named, same, found] at known
      cases known
      exact ⟨_, if_pos same, Or.inr ⟨draft, rfl⟩⟩
    · exact ⟨old, (if_neg same).trans found, .refl old⟩
  | begun _ | completed _ => exact ⟨old, (MemoryStore.definition?_commit _ _).trans found, .refl old⟩

/-- A definition that is stored behind a call was stored before it, or the call has submitted it. -/
theorem Effect.definition_comes (effect : Effect permits records call value drawn after) {id : Uuid}
    {new : Definition} (found : after.definition? id = some new) :
    (∃ old, records.definition? id = some old ∧ old.Becomes new) ∨
      ∃ definition now, call.Submits value definition ∧ new = definition.drafted now := by
  cases effect with
  | read _ => exact Or.inl ⟨new, found, .refl new⟩
  | @defined definition now _ _ _ =>
    rw [MemoryStore.definition?_saveDefinition] at found
    split at found
    · cases found
      exact Or.inr ⟨definition, now, ⟨rfl, rfl⟩, rfl⟩
    · exact Or.inl ⟨new, found, .refl new⟩
  | @activated other definition known draft =>
    have named := MemoryStore.definition?_id known
    rw [MemoryStore.definition?_saveDefinition] at found
    split at found
    next same =>
      cases found
      refine Or.inl ⟨definition, ?_, Or.inr ⟨draft, rfl⟩⟩
      rw [← known, ← named]
      exact congrArg records.definition? same.symm
    next => exact Or.inl ⟨new, found, .refl new⟩
  | begun _ | completed _ =>
    exact Or.inl ⟨new, (MemoryStore.definition?_commit _ _).symm.trans found, .refl new⟩

/-- What one call does to the definitions is what one request can do to them. -/
theorem Effect.apart (effect : Effect permits records call value drawn after)
    (apart : records.Apart) : after.Apart := by
  cases effect with
  | read _ => exact apart
  | @defined definition now _ unnamed unused =>
    have adds : records.Registers (some (definition.drafted now))
        (records.saveDefinition (definition.drafted now)) :=
      .adds (MemoryStore.named?_eq_none.mp unnamed) (MemoryStore.definition?_eq_none.mp unused)
    exact adds.apart apart
  | @activated id definition found draft =>
    have moves : (records.transition id .draft .active).2 =
        records.saveDefinition { definition with status := .active } := by
      simp only [MemoryStore.transition, found, draft, if_true]
    exact moves ▸ (MemoryStore.Registers.activates id).apart apart
  | begun _ | completed _ =>
    refine ⟨?_, ?_⟩
    · rw [MemoryStore.names, MemoryStore.commit_definitions]
      exact apart.names
    · rw [MemoryStore.ids, MemoryStore.commit_definitions]
      exact apart.ids

def Versioned (records : MemoryStore) : Prop :=
  ∀ target ∈ records.instances, ∀ definition,
    records.definition? target.definitionId = some definition →
      target.definitionVersion = definition.version

namespace Versioned

theorem saveDefinition (versioned : Versioned records) {definition : Definition}
    (kept : ∀ target ∈ records.instances, definition.id = target.definitionId →
      target.definitionVersion = definition.version) :
    Versioned (records.saveDefinition definition) := by
  intro target member other defined
  rw [MemoryStore.definition?_saveDefinition] at defined
  split at defined
  next same =>
    cases defined
    exact kept target member same
  next => exact versioned target member other defined

theorem commit (versioned : Versioned records) {changes : ChangeSet}
    (written : ∀ definition, records.definition? changes.target.definitionId = some definition →
      changes.target.definitionVersion = definition.version) :
    Versioned (records.commit changes) := by
  intro target member definition defined
  rw [MemoryStore.definition?_commit] at defined
  rw [MemoryStore.commit_instances] at member
  rcases mem_upsert member with same | old
  · cases same
    exact written definition defined
  · exact versioned target old definition defined

end Versioned

@[simp] theorem Instance.withPending_definitionVersion {target : Instance} {steps : List String}
    {now : Timestamp} :
    (target.withPending steps now).definitionVersion = target.definitionVersion := by
  unfold withPending
  split <;> rfl

theorem Effect.versioned (effect : Effect permits records call value drawn after)
    (sound : Sound permits records) (versioned : Versioned records) : Versioned after := by
  cases effect with
  | read _ => exact versioned
  | @defined definition _ _ _ unused =>
    refine versioned.saveDefinition fun target member same => ?_
    obtain ⟨old, known, _⟩ := sound.governed target member
    have unknown : records.definition? target.definitionId = none := same ▸ unused
    cases unknown.symm.trans known
  | @activated id definition found draft =>
    refine versioned.saveDefinition fun target member same => ?_
    refine versioned target member definition ?_
    rw [← same, MemoryStore.definition?_id found, found]
  | begun begun =>
    refine versioned.commit fun definition defined => ?_
    cases begun.defined.symm.trans defined
    rfl
  | completed done =>
    refine versioned.commit fun definition defined => ?_
    rw [done.changes_definitionId] at defined
    exact Instance.withPending_definitionVersion.trans
      (versioned done.target (MemoryStore.mem_of_instance? done.housed) definition defined)

/-- A definition comes from a successful call of a history that has submitted it, and is as it was
submitted but for the time of the call and for its status. -/
inductive Submitted (attempts : List Attempt) (definition : Definition) : Prop where
  | intro (before after : List Attempt) (submitted : Definition) (moments : Moments)
      (now : Timestamp) (split : attempts = before ++ ⟨.define submitted, moments⟩ :: after)
      (succeeded : ((({} : World).after before).perform ⟨.define submitted, moments⟩).1 =
        .ok submitted.id)
      (becomes : (submitted.drafted now).Becomes definition)

theorem Submitted.later {attempts : List Attempt} {old new : Definition}
    (submitted : Submitted attempts old) (becomes : old.Becomes new) (more : List Attempt) :
    Submitted (attempts ++ more) new := by
  obtain ⟨before, after, definition, moments, now, split, succeeded, early⟩ := submitted
  refine ⟨before, after ++ more, definition, moments, now, ?_, succeeded, early.trans becomes⟩
  rw [split, List.append_assoc, List.cons_append]

/-- Every definition that a history leaves was submitted in it. -/
theorem World.submitted (attempts : List Attempt) {id : Uuid} {definition : Definition}
    (found : (({} : World).after attempts).records.definition? id = some definition) :
    Submitted attempts definition := by
  induction attempts using List.reverseRecOn generalizing definition with
  | nil => cases found
  | append_singleton before attempt ih =>
    rw [World.after_append] at found
    change ((({} : World).after before).perform attempt).2.records.definition? id = _ at found
    have within : attempt.Within fun _ => True := fun _ => trivial
    have serves := (({} : World).after before).perform_serves attempt within
    cases result : ((({} : World).after before).perform attempt).1 with
    | error failure =>
      rw [result] at serves
      have same : ((({} : World).after before).perform attempt).2.records =
          (({} : World).after before).records := serves
      rw [same] at found
      exact (ih found).later (.refl definition) [attempt]
    | ok value =>
      rw [result] at serves
      obtain ⟨drawn, _, effect⟩ := serves
      rcases effect.definition_comes found with ⟨old, known, becomes⟩ | ⟨submitted, now, own, here⟩
      · exact (ih known).later becomes [attempt]
      · obtain ⟨call, moments⟩ := attempt
        cases call with
        | define other =>
          obtain ⟨rfl, rfl⟩ := own
          exact .intro before [] other moments now rfl result (here ▸ .refl _)
        | _ => exact own.elim

/-- A task is for a step of the definition of its instance that somebody works on. -/
inductive Belongs (records : MemoryStore) (task : Task) : Prop where
  | intro (target : Instance) (definition : Definition) (step : Step)
      (housed : records.instance? task.instanceId = some target)
      (defined : records.definition? target.definitionId = some definition)
      (found : definition.step? task.stepId = some step) (goes_on : step.kind ≠ .finish)
      (works : step.kind ≠ .gateway)

theorem Placed.belongs {task : Task} (placed : Placed permits records task) :
    Belongs records task := by
  obtain ⟨target, definition, step, _, _, housed, defined, found, makes, _⟩ := placed
  refine ⟨target, definition, step, housed, defined, found, fun same => ?_, fun same => ?_⟩
  · simp [same, StepKind.createsTask] at makes
  · simp [same, StepKind.createsTask] at makes

/-- The records that a history leaves refer to each other as they should. -/
structure Coherent (attempts : List Attempt) (records : MemoryStore) : Prop where
  valid : ∀ definition ∈ records.definitions, definition.validate.isOk = true
  submitted : ∀ definition ∈ records.definitions, Submitted attempts definition
  stays : ∀ before after, attempts = before ++ after → ∀ id old,
    (({} : World).after before).records.definition? id = some old →
      ∃ new, records.definition? id = some new ∧ old.Becomes new
  apart : records.Apart
  governed : ∀ target ∈ records.instances, ∃ definition,
    records.definition? target.definitionId = some definition ∧ definition.status = .active ∧
      target.definitionVersion = definition.version
  belongs : ∀ task ∈ records.tasks, Belongs records task

/-- Whatever calls are made one after another, as long as new identifiers are new. -/
theorem histories_coherent (attempts : List Attempt)
    (fresh : (({} : World).after attempts).drawn.Nodup) :
    Coherent attempts (({} : World).after attempts).records := by
  have any (attempt : Attempt) : attempt.Within fun _ => True := fun _ => trivial
  have reached : Reachable (fun _ => True) (({} : World).after attempts) :=
    Reachable.empty.after attempts (fun attempt _ => any attempt) fresh
  have sound := reached.sound.records
  refine ⟨sound.valid, ?_, ?_, ?_, ?_, fun task member => (sound.placed task member).belongs⟩
  · intro definition member
    exact World.submitted attempts (find?_of_mem sound.definitions member)
  · intro before after split id old found
    subst split
    have early := Reachable.empty.after before (fun attempt _ => any attempt)
      (World.fresh_append fresh)
    rw [World.after_append] at fresh ⊢
    refine early.keeps (fun records => ∃ new, records.definition? id = some new ∧ old.Becomes new)
      (fun attempt _ => any attempt) fresh ?_ ⟨old, found, .refl old⟩
    rintro records attempt value drawn later effect _ ⟨middle, known, becomes⟩
    obtain ⟨new, kept, late⟩ := effect.keeps_definition known
    exact ⟨new, kept, becomes.trans late⟩
  · exact reached.invariant MemoryStore.Apart ⟨List.nodup_nil, List.nodup_nil⟩
      fun _ _ _ _ _ _ effect _ apart => effect.apart apart
  · intro target member
    obtain ⟨definition, defined, active⟩ := sound.governed target member
    have versioned := reached.invariant Versioned (fun _ member => nomatch member)
      fun _ _ _ _ _ sound effect _ versioned => effect.versioned sound versioned
    exact ⟨definition, defined, active, versioned target member definition defined⟩

/-- An article, another edition with its name, another definition with its identifier, and a report;
of the article an instance is begun and moved on, of the report none can be begun. -/
def articleShelf : List Attempt := [
  ⟨.define article, calm 10⟩,
  ⟨.define { article with id := Uuid.ofNat 2 }, calm 10⟩,
  ⟨.define { article with name := "note" }, calm 10⟩,
  ⟨.define { article with id := Uuid.ofNat 3, name := "report" }, calm 10⟩,
  ⟨.activate article.id, calm 20⟩,
  ⟨.activate article.id, calm 20⟩,
  ⟨.start (Uuid.ofNat 3) [] "ada", calm 20⟩,
  ⟨.start article.id [] "ada", calm 30⟩,
  ⟨.complete (Uuid.ofNat 33) [] "ada", calm 40⟩]

theorem article_shelf_coherent :
    (({} : World).after articleShelf).records.definitions.map (fun definition =>
        (definition.id, definition.name, definition.status)) =
        [(article.id, "article", .active), (Uuid.ofNat 3, "report", .draft)] ∧
      (({} : World).after articleShelf).records.tasks.map (·.stepId) = ["write", "review", "print"] ∧
      Coherent articleShelf (({} : World).after articleShelf).records :=
  ⟨by decide +kernel, by decide +kernel, histories_coherent articleShelf (by decide +kernel)⟩

end Workflow
