import Workflow.Proofs.Acceptance
import Workflow.Proofs.Indifference

/-! Records are read back from what is written for them, as long as no more nests in them than a
document may nest. What has been read from a document never nests more. -/

namespace Workflow

open Document Json

theorem Json.fits_root {value : Json} : value.Fits [] ↔ value.depth < nestingLimit := by
  rw [Fits, List.length_nil, Nat.zero_add]

theorem Definition.ofMarkup_render {definition : Definition} (regular : definition.IsRegular)
    (fits : definition.toJson.Fits []) {document : Json}
    (reorders : document.Reorders definition.toJson) (faithful : document.Faithful) (fresh : Uuid) :
    Definition.ofMarkup .json fresh document.render = .ok definition :=
  readDocument_render reorders faithful fun _ shown =>
    Definition.read_shown regular fresh shown fits

theorem Definition.ofMarkup_eq_ok {definition : Definition} {fresh : Uuid} {text : String}
    (read : Definition.ofMarkup .json fresh text = .ok definition) :
    (∀ step ∈ definition.steps, step.IsRegular) ∧ definition.toJson.Fits [] := by
  obtain ⟨record, read, last⟩ := bind_eq_ok read
  have same : record = definition := by
    split at last
    · cases last
    · exact Except.ok.inj last
  exact Definition.read_eq_ok (same ▸ read)

/-- Every record is read back from its document, in whatever order the members of its objects come,
unless more nests in it than may nest in a document. In a definition that was read from a text it
never does. -/
theorem records_read_back :
    (∀ definition : Definition, definition.IsRegular → definition.toJson.depth < nestingLimit →
      ∀ document : Json, document.Reorders definition.toJson → document.Faithful → ∀ fresh,
        Definition.ofMarkup .json fresh document.render = .ok definition) ∧
      (∀ target : Instance, target.IsRegular → target.toJson.depth < nestingLimit →
        ∀ document : Json, document.Reorders target.toJson → document.Faithful →
          Json.readDocument Instance.read document.render = .ok target) ∧
      (∀ task : Task, task.IsRegular → task.toJson.depth < nestingLimit →
        ∀ document : Json, document.Reorders task.toJson → document.Faithful →
          Json.readDocument Task.read document.render = .ok task) ∧
      ∀ fresh text definition, Definition.ofMarkup .json fresh text = .ok definition →
        (∀ time, definition.createdAt = some time → time.ReadsBack) →
          ∀ document : Json, document.Reorders definition.toJson → document.Faithful → ∀ other,
            Definition.ofMarkup .json other document.render = .ok definition := by
  refine ⟨fun definition regular shallow document reorders faithful => ?_,
    fun target regular shallow document reorders faithful => ?_,
    fun task regular shallow document reorders faithful => ?_,
    fun fresh text definition read created document reorders faithful => ?_⟩
  · exact definition.ofMarkup_render regular (fits_root.mpr shallow) reorders faithful
  · exact readDocument_render reorders faithful fun _ shown =>
      Instance.read_shown regular shown (fits_root.mpr shallow)
  · exact readDocument_render reorders faithful fun _ shown =>
      Task.read_shown regular shown (fits_root.mpr shallow)
  · obtain ⟨steps, fits⟩ := Definition.ofMarkup_eq_ok read
    exact definition.ofMarkup_render ⟨steps, created⟩ fits reorders faithful

theorem Definition.isRegular_of_recognized {definition : Definition}
    (unset : definition.createdAt = none)
    (recognized : ∀ step ∈ definition.steps, step.kind ∈ StepKind.recognizedKinds)
    (undated : ∀ step ∈ definition.steps, step.dueInSeconds = none)
    (sorted : ∀ step ∈ definition.steps, ∀ transition ∈ step.transitions, ∀ condition,
      transition.guard = some condition → condition.value.Sorted) : definition.IsRegular where
  steps := fun step member =>
    { kind := StepKind.isParsed_of_mem (recognized step member)
      due := by simp [undated step member]
      guards := sorted step member }
  created := by simp [unset]

def gradedInstance : Instance :=
  { id := Uuid.ofNat 32, definitionId := gradedArticle.id, definitionVersion := "1", status := .running
    data := [("editor", .string "bob"), ("grade", .int 5)], pendingSteps := ["write"], startedBy := "ada"
    startedAt := .epoch }

def gradedTask : Task :=
  { id := Uuid.ofNat 33, instanceId := gradedInstance.id, stepId := "write", status := .completed
    assignee := some "ada", assignedRole := none, priority := .normal, dueAt := none
    data := gradedInstance.data, completedBy := some "ada", completedAt := some .epoch
    createdAt := .epoch }

theorem epoch_readsBack : Timestamp.epoch.ReadsBack := by
  unfold Timestamp.ReadsBack
  decide +kernel

theorem Json.int_sorted (value : Int) : (Json.int value).Sorted := by
  unfold Json.int
  split <;> trivial

theorem graded_data_sorted : (Json.object gradedInstance.data).Sorted :=
  ⟨by decide, trivial, Json.int_sorted 5, trivial⟩

theorem gradedArticle_isRegular : gradedArticle.IsRegular := by
  refine Definition.isRegular_of_recognized rfl (by decide) (by decide) ?_
  simp [gradedArticle, Definition.make, Transition.onlyWhen, Transition.ifNoneFires, Transition.always,
    Json.int_sorted]

/-- A document of the graded article as somebody may have written it: operators and kinds have
other spellings, fields are left out or null, and one is unknown. -/
def spelledArticle : Json :=
  .object [("id", writeId gradedArticle.id), ("name", .string "article"), ("version", .string "1"),
    ("notes", .array []), ("description", .null), ("start", .string "write"), ("steps", .array [
      .object [("kind", .string "TASK"), ("id", .string "write"), ("due_in_seconds", .null),
        ("transitions", .array [
          .object [("when", .object [("op", .string "gt"), ("field", .string "grade"),
              ("value", .int 3)]), ("to", .string "review")],
          .object [("to", .string "end"), ("otherwise", .bool true)]])],
      .object [("id", .string "review"), ("kind", .string "Approval"),
        ("assign", .object [("field", .string "editor")]),
        ("transitions", .array [.object [("to", .string "end")]])],
      .object [("id", .string "end"), ("kind", .string "end")]])]

theorem spelled_article_read (fresh : Uuid) :
    Definition.ofMarkup .json fresh spelledArticle.render = .ok gradedArticle := by
  have faithful : spelledArticle.Faithful := by decide +kernel
  have read : Definition.read fresh Json.format [] spelledArticle.draft = .ok gradedArticle := rfl
  simp only [Definition.ofMarkup, Json.readDocument, Draft.ofText_render faithful, read, bind,
    Except.bind]
  rfl

/-- The graded article, an instance of it whose document has its fields in another order, a task of
the instance, and the graded article again as it was read from the other spelling. -/
theorem graded_article_read_back :
    Definition.ofMarkup .json (Uuid.ofNat 7) gradedArticle.toJson.render = .ok gradedArticle ∧
      Json.readDocument Instance.read (Json.object [
        ("id", writeId gradedInstance.id), ("definition_id", writeId gradedArticle.id),
        ("definition_version", .string "1"), ("status", .string "running"),
        ("data", .object gradedInstance.data), ("pending_steps", .ofStrings ["write"]),
        ("started_by", .string "ada"), ("started_at", writeTime .epoch)]).render =
          .ok gradedInstance ∧
      Json.readDocument Task.read gradedTask.toJson.render = .ok gradedTask ∧
      Definition.ofMarkup .json (Uuid.ofNat 7) spelledArticle.render = .ok gradedArticle ∧
      Definition.ofMarkup .json (Uuid.ofNat 8) gradedArticle.toJson.render = .ok gradedArticle := by
  obtain ⟨definitions, instances, tasks, again⟩ := records_read_back
  have spelled := spelled_article_read (Uuid.ofNat 7)
  refine ⟨?_, ?_, ?_, spelled, ?_⟩
  · exact definitions gradedArticle gradedArticle_isRegular (by decide +kernel) _ (.refl _)
      (by decide +kernel) (Uuid.ofNat 7)
  · refine instances gradedInstance
      ⟨graded_data_sorted, epoch_readsBack, by simp [gradedInstance]⟩ (by decide +kernel) _
      (.of_perm ?_) (by decide +kernel)
    exact (Members.ofList_perm (by decide)).symm
  · refine tasks gradedTask ⟨graded_data_sorted, by simp [gradedTask], ?_, epoch_readsBack⟩
      (by decide +kernel) _ (.refl _) (by decide +kernel)
    intro _ set
    cases set
    exact epoch_readsBack
  · exact again (Uuid.ofNat 7) _ gradedArticle spelled gradedArticle_isRegular.created _ (.refl _)
      (by decide +kernel) (Uuid.ofNat 8)

def Json.nested : Nat → Json
  | 0 => .null
  | levels + 1 => .array [nested levels]

theorem Json.nested_sorted (levels : Nat) : (nested levels).Sorted := by
  induction levels with
  | zero => trivial
  | succ levels ih => exact ⟨ih, trivial⟩

def annotatedArticle (levels : Nat) : Definition :=
  .make (Uuid.ofNat 1) "article" "1" "write" [
    { id := "write", kind := .task, transitions := [
        .onlyWhen "end" { field := "notes", op := .equals, value := .nested levels }] },
    { id := "end", kind := .finish }]

theorem annotatedArticle_isRegular (levels : Nat) : (annotatedArticle levels).IsRegular := by
  refine Definition.isRegular_of_recognized rfl ?_ ?_ ?_
  all_goals simp [annotatedArticle, Definition.make, Transition.onlyWhen, StepKind.recognizedKinds,
    Json.nested_sorted]

/-- An article whose document nests one level more than a document may is not read from any text,
that of its own document included. -/
theorem annotated_article_lost :
    (annotatedArticle 122).IsRegular ∧ (annotatedArticle 122).toJson.Faithful ∧
      ∀ fresh text, Definition.ofMarkup .json fresh text ≠ .ok (annotatedArticle 122) := by
  refine ⟨annotatedArticle_isRegular 122, by decide +kernel, fun fresh text read => ?_⟩
  have shallow := fits_root.mp (Definition.ofMarkup_eq_ok read).2
  have deep : ¬ (annotatedArticle 122).toJson.depth < nestingLimit := by decide +kernel
  exact deep shallow

end Workflow
