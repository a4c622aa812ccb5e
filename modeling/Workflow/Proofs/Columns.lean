import Workflow.Proofs.Acceptance
import Workflow.Proofs.TimeTexts
import Workflow.Proofs.Validity
import Workflow.Store.Row

/-! Documents in the columns of a table. A column is read back where its value nests no more than a
reader bears and every double in it has a text that stands for it; open data that is put over other
such data is such data again. -/

namespace Workflow

open Document Json

namespace Json

variable {levels : Nat}

/-- A value of some levels at most whose keys are in order and whose doubles are read back. -/
structure Within (levels : Nat) (value : Json) : Prop where
  sorted : value.Sorted
  faithful : value.Faithful
  shallow : value.depth ≤ levels

/-- A value that is read back from its text as a document of its own. -/
def ReadsBack (value : Json) : Prop :=
  value.Within 127

theorem within_string (text : String) : (string text).Within levels :=
  ⟨trivial, trivial, Nat.zero_le _⟩

theorem within_int (value : Int) : (int value).Within levels := by
  unfold int Number.ofInt?
  split
  next number fitting =>
    split at fitting
    · cases fitting
      exact ⟨trivial, trivial, Nat.zero_le _⟩
    · cases fitting
  · exact ⟨trivial, trivial, Nat.zero_le _⟩

theorem within_some {content : Json} (within : content.Within levels) :
    ∀ value, some content = some value → value.Within levels := by
  intro value set
  cases set
  exact within

theorem within_text (text : String) :
    ∀ value, some (string text) = some value → value.Within levels :=
  within_some (within_string text)

theorem within_option {α : Type} {write : α → Json} {content : Option α}
    (each : ∀ inner, content = some inner → (write inner).Within levels) :
    ∀ value, content.map write = some value → value.Within levels := by
  intro value set
  obtain ⟨inner, held, rfl⟩ := Option.map_eq_some_iff.mp set
  exact each inner held

theorem sortedItems_iff {items : List Json} : SortedItems items ↔ ∀ item ∈ items, item.Sorted := by
  induction items with
  | nil => exact ⟨fun _ => List.forall_mem_nil _, fun _ => trivial⟩
  | cons item rest ih =>
    rw [List.forall_mem_cons, ← ih]
    exact Iff.rfl

theorem faithfulItems_iff {items : List Json} :
    FaithfulItems items ↔ ∀ item ∈ items, item.Faithful := by
  induction items with
  | nil => exact ⟨fun _ => List.forall_mem_nil _, fun _ => trivial⟩
  | cons item rest ih =>
    rw [List.forall_mem_cons, ← ih]
    exact Iff.rfl

theorem faithfulMembers_iff {members : List (String × Json)} :
    FaithfulMembers members ↔ ∀ member ∈ members, member.2.Faithful := by
  induction members with
  | nil => exact ⟨fun _ => List.forall_mem_nil _, fun _ => trivial⟩
  | cons member rest ih =>
    rw [List.forall_mem_cons, ← ih]
    exact Iff.rfl

theorem within_array {items : List Json} :
    (array items).Within (levels + 1) ↔ ∀ item ∈ items, item.Within levels := by
  constructor
  · rintro ⟨sorted, faithful, shallow⟩ item member
    exact ⟨sortedItems_iff.mp sorted item member, faithfulItems_iff.mp faithful item member,
      depthOfItems_le_iff.mp (Nat.le_of_succ_le_succ shallow) item member⟩
  · intro each
    exact ⟨sortedItems_iff.mpr fun item member => (each item member).sorted,
      faithfulItems_iff.mpr fun item member => (each item member).faithful,
      Nat.succ_le_succ (depthOfItems_le_iff.mpr fun item member => (each item member).shallow)⟩

theorem within_object {members : Members} : (object members).Within (levels + 1) ↔
    members.Pairwise (·.1 < ·.1) ∧ ∀ member ∈ members, member.2.Within levels := by
  constructor
  · rintro ⟨sorted, faithful, shallow⟩
    refine ⟨sorted.1, fun member found => ⟨sortedMembers_iff.mp sorted.2 member found,
      faithfulMembers_iff.mp faithful member found, ?_⟩⟩
    exact depthOfMembers_le_iff.mp (Nat.le_of_succ_le_succ shallow) member found
  · rintro ⟨ordered, each⟩
    exact ⟨⟨ordered, sortedMembers_iff.mpr fun member found => (each member found).sorted⟩,
      faithfulMembers_iff.mpr fun member found => (each member found).faithful,
      Nat.succ_le_succ (depthOfMembers_le_iff.mpr fun member found => (each member found).shallow)⟩

theorem within_record {members : List (String × Option Json)} {fields : List String}
    (single : fields.Nodup) (same : members.map (·.1) = fields) :
    (record members).Within (levels + 1) ↔
      ∀ member ∈ members, ∀ value, member.2 = some value → value.Within levels := by
  have keys : (members.map (·.1)).Nodup := same ▸ single
  have held := Members.ofList_perm (keys.sublist (present_keys members))
  rw [record_eq, within_object]
  constructor
  · rintro ⟨_, each⟩ ⟨key, _⟩ member value rfl
    exact each (key, value) (held.mem_iff.mpr (mem_present.mpr member))
  · intro each
    refine ⟨Members.sorted_ofList _, fun member found => ?_⟩
    exact each (member.1, some member.2) (mem_present.mp (held.mem_iff.mp found)) _ rfl

theorem within_overlay {base top : Members} (below : (object base).Within (levels + 1))
    (above : (object top).Within (levels + 1)) :
    (object (Members.overlay base top)).Within (levels + 1) := by
  have onto := (within_object.mp above).2
  clear above
  induction top generalizing base with
  | nil => exact below
  | cons member rest ih =>
    obtain ⟨here, later⟩ := List.forall_mem_cons.mp onto
    obtain ⟨ordered, each⟩ := within_object.mp below
    refine ih (within_object.mpr ⟨Members.put_sorted ordered, fun other found => ?_⟩) later
    rcases Members.mem_put found with rfl | old
    · exact here
    · exact each other old

end Json

theorem Timestamp.readsBack (time : Timestamp) : time.ReadsBack :=
  ofText?_text time

section Columns

variable {α : Type} {column text : String} {read : Format Draft → Place → Draft → Reading α}

theorem decodeColumn_eq {value : α} (told : Json.readDocument read text = .ok value) :
    decodeColumn column read text = .ok value := by
  rw [decodeColumn, told]
  rfl

end Columns

theorem Json.ReadsBack.fits {value : Json} (back : value.ReadsBack) : value.Fits [] := by
  have shallow := back.shallow
  change 0 + value.depth < nestingLimit
  rw [nestingLimit]
  omega

/-- Open data is read back from a column. -/
theorem decodeColumn_data {data : Json.Members} (back : (Json.object data).ReadsBack) :
    decodeColumn "data" readObject (Json.object data).render = .ok data :=
  decodeColumn_eq <| readDocument_render (.refl _) back.faithful fun _ shown =>
    readObject_shown shown back.sorted back.fits

/-- A number in open data is read as what its text stands for. -/
theorem decodeColumn_number (key : String) {number other : Number}
    (told : number.readBack? = some other) :
    decodeColumn "data" readObject (Json.object [(key, .number number)]).render =
      .ok [(key, .number other)] := by
  obtain ⟨literal, written, stands⟩ := Option.bind_eq_some_iff.mp told
  let draft : Draft := .object [(.ok key, .number literal)] none
  have text : (Json.object [(key, .number number)]).chars =
      '\x7b' :: (quote key ++ ':' :: (number.chars ++ ['\x7d'])) := by
    simp [Json.chars, Json.memberChars]
  have read : Draft.ofText (Json.object [(key, .number number)]).render = ⟨draft, none⟩ := by
    refine Draft.ofText_eq ?_
    rw [Json.render, String.toList_ofList, text]
    have closes : Draft.Closes ['\x7d'] := .inr (.inr rfl)
    have value := Draft.readValue_literal written closes
    have member := Draft.readMember_quote key value (Draft.readMembers_close false [])
    rw [Draft.quote_append] at member ⊢
    exact Draft.readValue_object ((Draft.readMembers_first _).trans member)
  have fits : (Json.object [(key, .number other)]).Fits [] := by
    change 1 < nestingLimit
    decide
  have shown : (Json.object [(key, .number other)]).Shown draft :=
    ⟨_, _, rfl, .refl _, _, _, rfl, ⟨literal, rfl, stands⟩, rfl⟩
  have reads : readObject Json.format [] draft = .ok [(key, .number other)] :=
    readObject_shown shown ⟨List.pairwise_singleton _ _, trivial, trivial⟩ fits
  refine decodeColumn_eq ?_
  simp only [Json.readDocument, read, reads, bind, Except.bind]
  rfl

/-- The pending steps are read back whatever they are called. -/
theorem decodeColumn_steps (steps : List String) :
    decodeColumn "pending_steps" (fun format => format.readSequence (readText format))
      (Json.ofStrings steps).render = .ok steps := by
  have back : (Json.ofStrings steps).Within 1 := by
    refine within_array.mpr fun item member => ?_
    obtain ⟨text, _, rfl⟩ := List.mem_map.mp member
    exact within_string text
  refine decodeColumn_eq <| readDocument_render (.refl _) back.faithful fun _ shown => ?_
  refine strings_shown shown ?_
  change 0 + (Json.ofStrings steps).depth < nestingLimit
  have shallow := back.shallow
  rw [nestingLimit]
  omega

section Levels

variable {levels : Nat}

theorem AssignmentRule.within_toJson (rule : AssignmentRule) : rule.toJson.Within (levels + 1) := by
  rw [toJson, @within_record _ _ fields (by decide) rfl]
  simp only [List.forall_mem_cons]
  exact ⟨within_option fun _ _ => within_string _, within_option fun _ _ => within_string _,
    within_option fun _ _ => within_string _, List.forall_mem_nil _⟩

theorem Condition.within_toJson {condition : Condition} :
    condition.toJson.Within (levels + 1) ↔ condition.value.Within levels := by
  rw [toJson, @within_record _ _ fields (by decide) rfl]
  simp only [List.forall_mem_cons]
  constructor
  · rintro ⟨_, _, value, _⟩
    exact value _ rfl
  · intro value
    exact ⟨within_text _, within_text _, within_some value, List.forall_mem_nil _⟩

theorem Transition.within_toJson {transition : Transition} : transition.toJson.Within (levels + 2) ↔
    ∀ condition, transition.guard = some condition → condition.value.Within levels := by
  rw [toJson, @within_record _ _ fields (by decide) rfl]
  simp only [List.forall_mem_cons]
  constructor
  · rintro ⟨_, guard, _⟩ condition guarded
    exact Condition.within_toJson.mp (guard condition.toJson (by rw [guarded]; rfl))
  · intro each
    refine ⟨within_text _, within_option fun condition guarded => ?_, ?_, List.forall_mem_nil _⟩
    · exact Condition.within_toJson.mpr (each condition guarded)
    · split
      · exact within_some ⟨trivial, trivial, Nat.zero_le _⟩
      · exact nofun

theorem Step.within_toJson {step : Step} : step.toJson.Within (levels + 4) ↔
    ∀ transition ∈ step.transitions, ∀ condition, transition.guard = some condition →
      condition.value.Within levels := by
  rw [toJson, @within_record _ _ fields (by decide) rfl]
  simp only [List.forall_mem_cons]
  constructor
  · rintro ⟨_, _, _, _, _, _, transitions, _⟩ transition leaves
    exact Transition.within_toJson.mp
      (within_array.mp (transitions _ rfl) transition.toJson (List.mem_map_of_mem leaves))
  · intro each
    have transitions : (Json.array (step.transitions.map (·.toJson))).Within (levels + 3) := by
      refine within_array.mpr fun item member => ?_
      obtain ⟨transition, leaves, rfl⟩ := List.mem_map.mp member
      exact Transition.within_toJson.mpr (each transition leaves)
    exact ⟨within_text _, within_option fun _ _ => within_string _, within_text _,
      within_option fun rule _ => rule.within_toJson, within_option fun _ _ => within_int _,
      within_text _, within_some transitions, List.forall_mem_nil _⟩

/-- Nothing in a definition nests but the values of its conditions. -/
theorem Definition.within_toJson {definition : Definition} : definition.toJson.Within (levels + 6) ↔
    ∀ step ∈ definition.steps, ∀ transition ∈ step.transitions, ∀ condition,
      transition.guard = some condition → condition.value.Within levels := by
  rw [toJson, @within_record _ _ fields (by decide) rfl]
  simp only [List.forall_mem_cons]
  constructor
  · rintro ⟨_, _, _, _, _, steps, _⟩ step member
    exact Step.within_toJson.mp
      (within_array.mp (steps _ rfl) step.toJson (List.mem_map_of_mem member))
  · intro each
    have steps : (Json.array (definition.steps.map (·.toJson))).Within (levels + 5) := by
      refine within_array.mpr fun item member => ?_
      obtain ⟨step, among, rfl⟩ := List.mem_map.mp member
      exact Step.within_toJson.mpr (each step among)
    exact ⟨within_text _, within_text _, within_text _, within_option fun _ _ => within_string _,
      within_text _, within_some steps, within_text _, within_option fun _ _ => within_string _,
      List.forall_mem_nil _⟩

end Levels

namespace Definition

variable {definition : Definition}

/-- A definition that is read back from its document, as long as its steps are of recognized kinds:
its numbers and values are those of the types. -/
structure ReadsBack (definition : Definition) : Prop where
  words : ∀ step ∈ definition.steps, ∀ seconds, step.dueInSeconds = some seconds →
    seconds < 0x10000000000000000
  document : definition.toJson.ReadsBack

/-- The values of its conditions nest 121 levels at most. -/
theorem ReadsBack.guards (back : definition.ReadsBack) :
    ∀ step ∈ definition.steps, ∀ transition ∈ step.transitions, ∀ condition,
      transition.guard = some condition → condition.value.Within 121 :=
  within_toJson.mp back.document

/-- Only its steps decide whether a definition is read back. -/
theorem ReadsBack.of_steps {other : Definition} (back : definition.ReadsBack)
    (same : other.steps = definition.steps) : other.ReadsBack :=
  ⟨same ▸ back.words, within_toJson.mpr (same ▸ back.guards)⟩

theorem ReadsBack.isRegular (back : definition.ReadsBack)
    (recognized : ∀ step ∈ definition.steps, step.kind ∈ StepKind.recognizedKinds) :
    definition.IsRegular where
  steps step member :=
    { kind := StepKind.isParsed_of_mem (recognized step member)
      due := back.words step member
      guards := fun transition leaves condition guarded =>
        (back.guards step member transition leaves condition guarded).sorted }
  created time _ := time.readsBack

theorem recognized_of_isOk (valid : definition.validate.isOk = true) :
    ∀ step ∈ definition.steps, step.kind ∈ StepKind.recognizedKinds := by
  have none : definition.errors = [] := List.isEmpty_iff.mp valid
  obtain ⟨_, _, _, _, _, steps⟩ := errors_eq_nil.mp none
  intro step member
  exact StepKind.isRecognized_iff.mp (stepErrors_eq_nil.mp (steps step member)).1

/-- A definition that is stored is read back from its column. -/
theorem ReadsBack.decodeColumn (back : definition.ReadsBack)
    (recognized : ∀ step ∈ definition.steps, step.kind ∈ StepKind.recognizedKinds) (fresh : Uuid) :
    decodeColumn "body" (Definition.read fresh) definition.toJson.render = .ok definition :=
  decodeColumn_eq <| readDocument_render (.refl _) back.document.faithful fun _ shown =>
    Definition.read_shown (back.isRegular recognized) fresh shown back.document.fits

end Definition

end Workflow
