import Workflow.Proofs.Contents
import Workflow.Definition.Markup
import Workflow.Instance.Record

/-! Records are read from what is written for them, one lemma for each kind of record. A record that
is written has every field that reading asks for, and a field that is left out is one whose default
is the value that was there. -/

namespace Workflow

open Document Json

/-- A kind that reading can give: a name that is none of the recognized ones in any case. -/
def StepKind.IsParsed (kind : StepKind) : Prop :=
  ∀ name, kind = .other name → ∀ known ∈ recognizedKinds, known.name ≠ Text.lower name

def Timestamp.ReadsBack (time : Timestamp) : Prop :=
  ofText? time.text = some time

/-- A step as documents can say it: its kind is one that reading gives, and its numbers and values
are those of the types. -/
structure Step.IsRegular (step : Step) : Prop where
  kind : step.kind.IsParsed
  due : ∀ seconds, step.dueInSeconds = some seconds → seconds < 0x10000000000000000
  guards : ∀ transition ∈ step.transitions, ∀ condition, transition.guard = some condition →
    condition.value.Sorted

structure Definition.IsRegular (definition : Definition) : Prop where
  steps : ∀ step ∈ definition.steps, step.IsRegular
  created : ∀ time, definition.createdAt = some time → time.ReadsBack

structure Instance.IsRegular (target : Instance) : Prop where
  data : (Json.object target.data).Sorted
  started : target.startedAt.ReadsBack
  completed : ∀ time, target.completedAt = some time → time.ReadsBack

structure Task.IsRegular (task : Task) : Prop where
  data : (Json.object task.data).Sorted
  due : ∀ time, task.dueAt = some time → time.ReadsBack
  completed : ∀ time, task.completedAt = some time → time.ReadsBack
  created : task.createdAt.ReadsBack

theorem Priority.named?_name (priority : Priority) :
    Named.named? (Named.name priority) = some priority := by
  cases priority <;> rfl

theorem DefinitionStatus.named?_name (status : DefinitionStatus) :
    Named.named? (Named.name status) = some status := by
  cases status <;> rfl

theorem InstanceStatus.named?_name (status : InstanceStatus) :
    Named.named? (Named.name status) = some status := by
  cases status <;> rfl

theorem TaskStatus.named?_name (status : TaskStatus) :
    Named.named? (Named.name status) = some status := by
  cases status <;> rfl

theorem StepKind.ofText_name {kind : StepKind} (parsed : kind.IsParsed) : ofText kind.name = kind := by
  cases kind with
  | other name =>
    have none : recognizedKinds.find? (fun kind => kind.name = Text.lower name) = none := by
      refine List.find?_eq_none.mpr fun known member => ?_
      exact decide_eq_true_iff.not.mpr (parsed name rfl known member)
    rw [ofText, StepKind.name, none]
    rfl
  | _ => rfl

variable {place : Place} {draft : Draft}

theorem StepKind.read_shown {kind : StepKind} (parsed : kind.IsParsed)
    (shown : kind.toJson.Shown draft) : StepKind.read Json.format place draft = .ok kind := by
  have text := @readText_shown place draft kind.name shown
  simp only [StepKind.read, text, bind, Except.bind, StepKind.ofText_name parsed]
  rfl

theorem Operator.read_shown (op : Operator) (shown : op.toJson.Shown draft) :
    Operator.read Json.format place draft = .ok op := by
  cases shown
  cases op <;> rfl

theorem AssignmentRule.read_shown (rule : AssignmentRule) (shown : rule.toJson.Shown draft)
    (fits : rule.toJson.Fits place) : AssignmentRule.read Json.format place draft = .ok rule := by
  refine @readRecord_shown _ _ _ AssignmentRule.fields (by decide) rfl _ _ shown fits _ _
    fun source here lists => ?_
  have principal := lists.optionalText "principal" rule.principal (by simp)
  have field := lists.optionalText "field" rule.field (by simp)
  have role := lists.optionalText "role" rule.role (by simp)
  simp only [principal, field, role, Slot.problem?_ofOption, Slot.orDefault_ofOption, bind, Except.bind]
  rw [lists.check (by simp)]
  rfl

theorem Condition.read_shown {condition : Condition} (sorted : condition.value.Sorted)
    (shown : condition.toJson.Shown draft) (fits : condition.toJson.Fits place) :
    Condition.read Json.format place draft = .ok condition := by
  refine @readRecord_shown _ _ _ Condition.fields (by decide) rfl _ _ shown fits _ _
    fun source here lists => ?_
  have field := lists.text "field" condition.field (by simp)
  have op : source.field "op" (Operator.read Json.format) = some (.ok condition.op) :=
    lists.found (by simp) fun _ shown _ => condition.op.read_shown shown
  have value : source.field "value" Json.format.value = some (.ok condition.value) :=
    lists.found (by simp) fun _ shown fits => value_shown shown sorted fits
  simp only [field, op, value, Slot.problem?_ok, Source.required_ok, Slot.orDefault_ok, bind,
    Except.bind]
  rw [lists.check (by simp)]
  rfl

theorem Transition.read_shown {transition : Transition}
    (sorted : ∀ condition, transition.guard = some condition → condition.value.Sorted)
    (shown : transition.toJson.Shown draft) (fits : transition.toJson.Fits place) :
    Transition.read Json.format place draft = .ok transition := by
  refine @readRecord_shown _ _ _ Transition.fields (by decide) rfl _ _ shown fits _ _
    fun source here lists => ?_
  have target := lists.text "to" transition.target (by simp)
  have guard : source.optional "when" (Condition.read Json.format) =
      Slot.ofOption transition.guard :=
    lists.optional "when" Condition.toJson (by simp) (fun _ _ => nofun)
      fun condition guarded _ shown fits =>
        Condition.read_shown (sorted condition guarded) shown fits
  -- The flag is written only where it is set.
  cases set : transition.otherwise with
  | false =>
    have otherwise : source.field "otherwise" Json.format.flag = none :=
      lists.absent (by simp [set])
    simp only [target, guard, otherwise, Slot.problem?_ok, Slot.problem?_ofOption,
      Source.required_ok, Slot.orDefault_ofOption, bind, Except.bind]
    rw [lists.check (by simp [Slot.problem?])]
    cases transition
    cases set
    rfl
  | true =>
    have otherwise : source.field "otherwise" Json.format.flag = some (.ok true) :=
      lists.found (by simp [set]) fun _ shown _ => flag_shown shown
    simp only [target, guard, otherwise, Slot.problem?_ok, Slot.problem?_ofOption,
      Source.required_ok, Slot.orDefault_ofOption, Slot.orDefault_ok, bind, Except.bind]
    rw [lists.check (by simp)]
    cases transition
    cases set
    rfl

theorem Step.read_shown {step : Step} (regular : step.IsRegular) (shown : step.toJson.Shown draft)
    (fits : step.toJson.Fits place) : Step.read Json.format place draft = .ok step := by
  refine @readRecord_shown _ _ _ Step.fields (by decide) rfl _ _ shown fits _ _
    fun source here lists => ?_
  have id := lists.text "id" step.id (by simp)
  have label := lists.optionalText "name" step.label (by simp)
  have kind : source.field "kind" (StepKind.read Json.format) = some (.ok step.kind) :=
    lists.found (by simp) fun _ shown _ => StepKind.read_shown regular.kind shown
  have assign : source.optional "assign" (AssignmentRule.read Json.format) =
      Slot.ofOption step.assign :=
    lists.optional "assign" AssignmentRule.toJson (by simp) (fun _ _ => nofun)
      fun rule _ _ => rule.read_shown
  have dueInSeconds := lists.optionalWord "due_in_seconds" regular.due (by simp)
  have priority := lists.named "priority" step.priority.named?_name (by simp)
  have transitions : source.field "transitions"
      (Json.format.readSequence (Transition.read Json.format)) = some (.ok step.transitions) :=
    lists.found (by simp) fun _ shown fits => readSequence_shown shown fits
      fun transition member _ _ => Transition.read_shown (regular.guards transition member)
  simp only [id, label, kind, assign, dueInSeconds, priority, transitions, Slot.problem?_ok,
    Slot.problem?_ofOption, Source.required_ok, Slot.orDefault_ofOption, Slot.orDefault_ok, bind,
    Except.bind]
  rw [lists.check (by simp)]
  rfl

theorem Definition.read_shown {definition : Definition} (regular : definition.IsRegular)
    (fresh : Uuid) (shown : definition.toJson.Shown draft) (fits : definition.toJson.Fits place) :
    Definition.read fresh Json.format place draft = .ok definition := by
  refine @readRecord_shown _ _ _ Definition.fields (by decide) rfl _ _ shown fits _ _
    fun source here lists => ?_
  have id := lists.uuid "id" definition.id (by simp)
  have version := lists.text "version" definition.version (by simp)
  have name := lists.text "name" definition.name (by simp)
  have description := lists.optionalText "description" definition.description (by simp)
  have start := lists.text "start" definition.start (by simp)
  have steps : source.field "steps" (Json.format.readSequence (Step.read Json.format)) =
      some (.ok definition.steps) :=
    lists.found (by simp) fun _ shown fits => readSequence_shown shown fits
      fun step member _ _ => Step.read_shown (regular.steps step member)
  have status := lists.named "status" definition.status.named?_name (by simp)
  have createdAt := lists.optionalTime "created_at" regular.created (by simp)
  simp only [id, version, name, description, start, steps, status, createdAt, Slot.problem?_ok,
    Slot.problem?_ofOption, Source.required_ok, Slot.orDefault_ofOption, Slot.orDefault_ok, bind,
    Except.bind]
  rw [lists.check (by simp)]
  rfl

theorem strings_shown {texts : List String} (shown : (Json.ofStrings texts).Shown draft)
    (fits : (Json.ofStrings texts).Fits place) :
    Json.format.readSequence (readText Json.format) place draft = .ok texts :=
  readSequence_shown shown fits fun _ _ _ _ shown _ => readText_shown shown

theorem Instance.read_shown {target : Instance} (regular : target.IsRegular)
    (shown : target.toJson.Shown draft) (fits : target.toJson.Fits place) :
    Instance.read Json.format place draft = .ok target := by
  refine @readRecord_shown _ _ _ Instance.fields (by decide) rfl _ _ shown fits _ _
    fun source here lists => ?_
  have id := lists.uuid "id" target.id (by simp)
  have definitionId := lists.uuid "definition_id" target.definitionId (by simp)
  have definitionVersion := lists.text "definition_version" target.definitionVersion (by simp)
  have status := lists.named "status" target.status.named?_name (by simp)
  have data := lists.object "data" regular.data (by simp)
  have pendingSteps : source.field "pending_steps"
      (Json.format.readSequence (readText Json.format)) = some (.ok target.pendingSteps) :=
    lists.found (by simp) fun _ => strings_shown
  have startedBy := lists.text "started_by" target.startedBy (by simp)
  have startedAt := lists.time "started_at" regular.started (by simp)
  have completedAt := lists.optionalTime "completed_at" regular.completed (by simp)
  simp only [id, definitionId, definitionVersion, status, data, pendingSteps, startedBy, startedAt,
    completedAt, Slot.problem?_ok, Slot.problem?_ofOption, Source.required_ok, bind, Except.bind,
    lists.unsetUnlessListed]
  rw [lists.check (by simp)]
  rfl

theorem Task.read_shown {task : Task} (regular : task.IsRegular) (shown : task.toJson.Shown draft)
    (fits : task.toJson.Fits place) : Task.read Json.format place draft = .ok task := by
  refine @readRecord_shown _ _ _ Task.fields (by decide) rfl _ _ shown fits _ _
    fun source here lists => ?_
  have id := lists.uuid "id" task.id (by simp)
  have instanceId := lists.uuid "instance_id" task.instanceId (by simp)
  have stepId := lists.text "step_id" task.stepId (by simp)
  have status := lists.named "status" task.status.named?_name (by simp)
  have assignee := lists.optionalText "assignee" task.assignee (by simp)
  have assignedRole := lists.optionalText "assigned_role" task.assignedRole (by simp)
  have priority := lists.named "priority" task.priority.named?_name (by simp)
  have dueAt := lists.optionalTime "due_at" regular.due (by simp)
  have data := lists.object "data" regular.data (by simp)
  have completedBy := lists.optionalText "completed_by" task.completedBy (by simp)
  have completedAt := lists.optionalTime "completed_at" regular.completed (by simp)
  have createdAt := lists.time "created_at" regular.created (by simp)
  simp only [id, instanceId, stepId, status, assignee, assignedRole, priority, dueAt, data,
    completedBy, completedAt, createdAt, Slot.problem?_ok, Slot.problem?_ofOption,
    Source.required_ok, Slot.orDefault_ok, bind, Except.bind, lists.unsetUnlessListed]
  rw [lists.check (by simp)]
  rfl

/-- What a whole text is read as that is written for a value, in whatever order of members. -/
theorem readDocument_render {α : Type} {document value : Json} (reorders : document.Reorders value)
    (faithful : document.Faithful) {read : Format Draft → Place → Draft → Reading α} {result : α}
    (reads : ∀ draft, value.Shown draft → read Json.format [] draft = .ok result) :
    Json.readDocument read document.render = .ok result := by
  have shown := reorders.shown _ (shown_draft document faithful)
  simp only [Json.readDocument, Draft.ofText_render faithful, bind, Except.bind, reads _ shown]
  rfl

end Workflow
