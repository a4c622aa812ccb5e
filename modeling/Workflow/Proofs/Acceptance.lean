import Workflow.Proofs.Records

/-! What a document that is read has said. A record stands where there is room for it, its values
have their keys in order and nest no deeper than there is room for, and so what is written for it
may stand in the same place. -/

namespace Workflow

theorem bind_eq_ok {ε α β : Type} {reading : Except ε α} {next : α → Except ε β} {result : β}
    (read : (reading >>= next) = .ok result) :
    ∃ value, reading = .ok value ∧ next value = .ok result := by
  cases reading with
  | error fault => cases read
  | ok value => exact ⟨value, rfl, read⟩

namespace Json

theorem toJson_array_eq_ok {items : List Draft} {ending : Option SyntaxError} {room : Nat} {value : Json}
    (read : (Draft.array items ending).toJson room = .ok value) : 1 < room ∧
      ∃ values, Draft.toJsonItems (room - 1) items = .ok values ∧ value = .array values := by
  simp only [Draft.toJson] at read
  split at read
  · cases read
  refine ⟨by omega, ?_⟩
  cases inner : Draft.toJsonItems (room - 1) items with
  | error _ =>
    rw [inner] at read
    cases read
  | ok values =>
    rw [inner] at read
    cases ending <;> cases read
    exact ⟨values, rfl, rfl⟩

theorem toJson_object_eq_ok {members : List (StringDraft × Draft)} {ending : Option SyntaxError}
    {room : Nat} {value : Json} (read : (Draft.object members ending).toJson room = .ok value) :
    1 < room ∧ ∃ values, Draft.toJsonMembers (room - 1) members = .ok values ∧
      value = .object (Members.ofList values) := by
  simp only [Draft.toJson] at read
  split at read
  · cases read
  refine ⟨by omega, ?_⟩
  cases inner : Draft.toJsonMembers (room - 1) members with
  | error _ =>
    rw [inner] at read
    cases read
  | ok values =>
    rw [inner] at read
    cases ending <;> cases read
    exact ⟨values, rfl, rfl⟩

mutual
/-- What is read as a value has its keys in order and nests no deeper than there is room. -/
theorem toJson_eq_ok (draft : Draft) {room : Nat} {value : Json} (read : draft.toJson room = .ok value) :
    value.Sorted ∧ value.depth ≤ room - 1 := by
  cases draft with
  | broken _ => cases read
  | null | bool _ =>
    cases read
    exact ⟨trivial, Nat.zero_le _⟩
  | number literal =>
    simp only [Draft.toJson] at read
    split at read <;> cases read
    exact ⟨trivial, Nat.zero_le _⟩
  | string content =>
    cases content <;> cases read
    exact ⟨trivial, Nat.zero_le _⟩
  | array items ending =>
    obtain ⟨wide, values, inner, rfl⟩ := toJson_array_eq_ok read
    obtain ⟨sorted, depth⟩ := toJsonItems_eq_ok items inner
    refine ⟨sorted, ?_⟩
    rw [Json.depth]
    omega
  | object members ending =>
    obtain ⟨wide, values, inner, rfl⟩ := toJson_object_eq_ok read
    obtain ⟨sorted, depth⟩ := toJsonMembers_eq_ok members inner
    have kept : depthOfMembers (Members.ofList values) ≤ room - 1 - 1 :=
      depthOfMembers_le_iff.mpr fun member found => depth member (Members.mem_ofList found)
    refine ⟨⟨Members.sorted_ofList values, sortedMembers_iff.mpr fun member found =>
      sorted member (Members.mem_ofList found)⟩, ?_⟩
    rw [Json.depth]
    omega
termination_by structural draft

theorem toJsonItems_eq_ok (drafts : List Draft) {room : Nat} {items : List Json}
    (read : Draft.toJsonItems room drafts = .ok items) :
    SortedItems items ∧ depthOfItems items ≤ room - 1 := by
  cases drafts with
  | nil =>
    cases read
    exact ⟨trivial, Nat.zero_le _⟩
  | cons draft rest =>
    rw [Draft.toJsonItems] at read
    obtain ⟨value, first, read⟩ := bind_eq_ok read
    obtain ⟨values, later, read⟩ := bind_eq_ok read
    cases read
    obtain ⟨here, depth⟩ := toJson_eq_ok draft first
    obtain ⟨others, depths⟩ := toJsonItems_eq_ok rest later
    exact ⟨⟨here, others⟩, Nat.max_le.mpr ⟨depth, depths⟩⟩
termination_by structural drafts

theorem toJsonMembers_eq_ok (drafts : List (StringDraft × Draft)) {room : Nat}
    {members : List (String × Json)} (read : Draft.toJsonMembers room drafts = .ok members) :
    (∀ member ∈ members, member.2.Sorted) ∧ ∀ member ∈ members, member.2.depth ≤ room - 1 := by
  cases drafts with
  | nil =>
    cases read
    exact ⟨List.forall_mem_nil _, List.forall_mem_nil _⟩
  | cons draft rest =>
    obtain ⟨key, draft⟩ := draft
    rw [Draft.toJsonMembers] at read
    obtain ⟨key, _, read⟩ := bind_eq_ok read
    obtain ⟨value, first, read⟩ := bind_eq_ok read
    obtain ⟨values, later, read⟩ := bind_eq_ok read
    cases read
    obtain ⟨here, depth⟩ := toJson_eq_ok draft first
    obtain ⟨others, depths⟩ := toJsonMembers_eq_ok rest later
    exact ⟨List.forall_mem_cons.mpr ⟨here, others⟩, List.forall_mem_cons.mpr ⟨depth, depths⟩⟩
termination_by structural drafts
end

end Json

open Document Json

namespace Document

namespace Source

variable {source : Source Draft} {name expected : String} {α : Type}

theorem required_eq_ok {slot : Slot α} {value : α}
    (read : source.required name expected slot = .ok value) : slot = some (.ok value) := by
  cases slot with
  | some inner => exact congrArg some read
  | none =>
    cases shape : source.members with
    | named _ | positional _ =>
      simp only [required, shape] at read
      cases read

theorem field_eq_ok {read : Place → Draft → Reading α} {value : α}
    (found : source.field name read = some (.ok value)) :
    ∃ segment node, read (segment :: source.place) node = .ok value := by
  unfold field at found
  split at found
  · obtain ⟨node, _, read⟩ := Option.map_eq_some_iff.mp found
    exact ⟨_, node, read⟩
  · obtain ⟨node, _, read⟩ := Option.map_eq_some_iff.mp found
    exact ⟨_, node, read⟩

theorem optional_eq_ok {read : Place → Draft → Reading α} {value : α}
    (found : source.optional name read = some (.ok (some value))) :
    ∃ segment node, read (segment :: source.place) node = .ok value := by
  obtain ⟨segment, node, read⟩ := field_eq_ok found
  obtain ⟨inner, _, read⟩ := bind_eq_ok read
  cases inner with
  | none => cases read
  | some inner =>
    obtain ⟨_, read, same⟩ := bind_eq_ok read
    cases same
    exact ⟨segment, inner, read⟩

end Source

theorem Slot.orDefault_eq_ok {α : Type} {slot : Slot α} {default value : α}
    (read : slot.orDefault default = .ok value) :
    (slot = none ∧ value = default) ∨ slot = some (.ok value) := by
  cases slot with
  | none =>
    cases read
    exact Or.inl ⟨rfl, rfl⟩
  | some inner => exact Or.inr (congrArg some read)

/-- Of what may be left out, only a value that is there was read from something. -/
theorem Slot.orDefault_none_eq_ok {α : Type} {slot : Slot (Option α)} {value : α}
    (read : slot.orDefault none = .ok (some value)) : slot = some (.ok (some value)) :=
  (orDefault_eq_ok read).resolve_left fun ⟨_, unset⟩ => nomatch unset

def HasRoom (place : Place) : Prop :=
  place.length + 1 < nestingLimit

/-- What may be a member of a container at a place: a value that fits there, or nothing. -/
def MayHold (place : Place) (member : Option Json) : Prop :=
  ∀ value, member = some value → ∀ segment, value.Fits (segment :: place)

end Document

variable {place : Place} {draft : Draft}

theorem refuse_ne_ok {α : Type} {expected : String} {value : α} :
    draft.refuse expected ≠ .ok value := by
  intro refused
  obtain ⟨_, _, impossible⟩ := bind_eq_ok refused
  cases impossible

theorem hasRoom_of_listed {α : Type} {listing result : α}
    (listed : (if Draft.room place ≤ 1 then Draft.unreadable else .ok listing) = .ok result) :
    HasRoom place := by
  split at listed
  · cases listed
  next wide =>
    unfold Draft.room at wide
    unfold HasRoom
    omega

theorem locate_eq {α : Type} (reading : Reading α) :
    reading.mapError (Json.format.locate place) = reading := by
  cases reading <;> rfl

theorem readRecord_eq_ok {α : Type} {expected : String} {fields : List String}
    {read : Source Draft → Reading α} {value : α}
    (done : Json.format.readRecord expected fields read place draft = .ok value) :
    HasRoom place ∧ ∃ source : Source Draft, source.place = place ∧ read source = .ok value := by
  rw [Format.readRecord, locate_eq] at done
  obtain ⟨members, listed, read⟩ := bind_eq_ok done
  refine ⟨?_, ⟨_, place, fields, members⟩, rfl, read⟩
  cases draft with
  | object _ _ | array _ _ => exact hasRoom_of_listed listed
  | _ => exact absurd listed refuse_ne_ok

theorem readItems_eq_ok {α : Type} {read : Place → Draft → Reading α} {position : Nat}
    {drafts : List Draft} {items : List α}
    (done : Format.readItems read place position drafts = .ok items) :
    ∀ item ∈ items, ∃ segment node, read (segment :: place) node = .ok item := by
  induction drafts generalizing position items with
  | nil =>
    cases done
    exact List.forall_mem_nil _
  | cons draft rest ih =>
    obtain ⟨first, here, done⟩ := bind_eq_ok done
    obtain ⟨others, later, same⟩ := bind_eq_ok done
    cases same
    exact List.forall_mem_cons.mpr ⟨⟨_, draft, here⟩, ih later⟩

theorem readSequence_eq_ok {α : Type} {read : Place → Draft → Reading α} {items : List α}
    (done : Json.format.readSequence read place draft = .ok items) :
    HasRoom place ∧ ∀ item ∈ items, ∃ segment node, read (segment :: place) node = .ok item := by
  rw [Format.readSequence, locate_eq] at done
  obtain ⟨listing, listed, done⟩ := bind_eq_ok done
  obtain ⟨found, read, done⟩ := bind_eq_ok done
  have same : found = items := by
    split at done
    · cases done
    · exact Except.ok.inj done
  subst same
  refine ⟨?_, readItems_eq_ok read⟩
  cases draft with
  | array _ _ => exact hasRoom_of_listed listed
  | _ => exact absurd listed refuse_ne_ok

theorem value_eq_ok {segment : Segment} {value : Json} (room : HasRoom place)
    (read : Json.format.value (segment :: place) draft = .ok value) :
    value.Sorted ∧ MayHold place (some value) := by
  change (draft.toJson (Draft.room (segment :: place))).mapError _ = .ok value at read
  cases found : draft.toJson (Draft.room (segment :: place)) with
  | error _ =>
    rw [found] at read
    cases read
  | ok inner =>
    rw [found] at read
    cases read
    obtain ⟨sorted, depth⟩ := toJson_eq_ok draft found
    refine ⟨sorted, fun _ same _ => ?_⟩
    cases same
    unfold HasRoom at room
    unfold Draft.room at depth
    rw [List.length_cons] at depth
    unfold Json.Fits
    rw [List.length_cons]
    omega

theorem natural_eq_ok {expected : String} {value : Nat}
    (read : Json.format.natural expected place draft = .ok value) : value < 0x10000000000000000 := by
  obtain ⟨found, read, done⟩ := bind_eq_ok read
  cases draft with
  | number literal =>
    cases same : literal.number? with
    | none =>
      simp only [Draft.found, same] at read
      cases read
    | some number =>
      cases number with
      | real _ =>
        simp only [Draft.found, same] at read
        cases read
        cases done
      | integer value inRange =>
        simp only [Draft.found, same] at read
        cases read
        change (if value < 0 then _ else _) = _ at done
        split at done
        · cases done
        · cases done
          have bounded := inRange.2
          omega
  | _ => cases done

theorem Json.depth_nat (word : Nat) : (Json.nat word).depth = 0 := by
  rw [Json.nat, Json.int]
  cases Number.ofInt? word <;> rfl

namespace Document.HasRoom

theorem scalar (room : HasRoom place) {value : Json} (flat : value.depth = 0) :
    MayHold place (some value) := by
  intro inner same segment
  cases same
  unfold HasRoom at room
  unfold Json.Fits
  rw [List.length_cons]
  omega

theorem optional {α : Type} {write : α → Json} (room : HasRoom place)
    (flat : ∀ value, (write value).depth = 0) (value : Option α) :
    MayHold place (value.map write) := by
  cases value with
  | none => exact nofun
  | some value => exact room.scalar (flat value)

theorem record (room : HasRoom place) {members : List (String × Option Json)}
    (inner : ∀ member ∈ members, MayHold place member.2) : (Json.record members).Fits place := by
  unfold HasRoom at room
  have below : depthOfMembers (Members.ofList (present members)) ≤
      nestingLimit - (place.length + 2) := by
    refine depthOfMembers_le_iff.mpr fun member found => ?_
    have set := mem_present.mp (Members.mem_ofList found)
    have fits := inner (member.1, some member.2) set member.2 rfl (.key member.1)
    unfold Json.Fits at fits
    rw [List.length_cons] at fits
    omega
  rw [record_eq, Json.Fits, Json.depth]
  omega

theorem sequence (room : HasRoom place) {items : List Json}
    (inner : ∀ item ∈ items, MayHold place (some item)) : (Json.array items).Fits place := by
  unfold HasRoom at room
  have below : depthOfItems items ≤ nestingLimit - (place.length + 2) := by
    refine depthOfItems_le_iff.mpr fun item found => ?_
    have fits := inner item found item rfl (.index 0)
    unfold Json.Fits at fits
    rw [List.length_cons] at fits
    omega
  rw [Json.Fits, Json.depth]
  omega

end Document.HasRoom

theorem Document.MayHold.map {α : Type} {write : α → Json} {value : Option α}
    (fits : ∀ inner, value = some inner → ∀ segment, (write inner).Fits (segment :: place)) :
    MayHold place (value.map write) := by
  intro _ set segment
  obtain ⟨inner, same, rfl⟩ := Option.map_eq_some_iff.mp set
  exact fits inner same segment

theorem Document.MayHold.sequence {α : Type} {write : α → Json} {items : List α}
    (room : ∀ segment, HasRoom (segment :: place))
    (fits : ∀ item ∈ items, ∀ first second, (write item).Fits (first :: second :: place)) :
    MayHold place (some (.array (items.map write))) := by
  intro _ same segment
  cases same
  refine (room segment).sequence fun written member _ same first => ?_
  cases same
  obtain ⟨item, among, rfl⟩ := List.mem_map.mp member
  exact fits item among first segment

theorem AssignmentRule.read_eq_ok {rule : AssignmentRule}
    (read : AssignmentRule.read Json.format place draft = .ok rule) : rule.toJson.Fits place := by
  obtain ⟨room, _⟩ := readRecord_eq_ok read
  have text (content : Option String) : MayHold place (content.map Json.string) :=
    room.optional (fun _ => rfl) content
  refine room.record ?_
  simp only [List.forall_mem_cons]
  exact ⟨text _, text _, text _, List.forall_mem_nil _⟩

theorem Condition.read_eq_ok {condition : Condition}
    (read : Condition.read Json.format place draft = .ok condition) :
    condition.value.Sorted ∧ condition.toJson.Fits place := by
  obtain ⟨room, source, here, read⟩ := readRecord_eq_ok read
  obtain ⟨_, _, read⟩ := bind_eq_ok read
  obtain ⟨field, _, read⟩ := bind_eq_ok read
  obtain ⟨op, _, read⟩ := bind_eq_ok read
  obtain ⟨value, found, read⟩ := bind_eq_ok read
  cases read
  have kept : value.Sorted ∧ MayHold place (some value) := by
    rcases Slot.orDefault_eq_ok found with ⟨_, rfl⟩ | found
    · exact ⟨trivial, room.scalar rfl⟩
    · obtain ⟨segment, node, read⟩ := Source.field_eq_ok found
      rw [here] at read
      exact value_eq_ok room read
  refine ⟨kept.1, room.record ?_⟩
  simp only [List.forall_mem_cons]
  exact ⟨room.scalar rfl, room.scalar rfl, kept.2, List.forall_mem_nil _⟩

theorem Transition.read_eq_ok {transition : Transition}
    (read : Transition.read Json.format place draft = .ok transition) :
    (∀ condition, transition.guard = some condition → condition.value.Sorted) ∧
      transition.toJson.Fits place := by
  obtain ⟨room, source, here, read⟩ := readRecord_eq_ok read
  obtain ⟨_, _, read⟩ := bind_eq_ok read
  obtain ⟨target, _, read⟩ := bind_eq_ok read
  obtain ⟨guard, found, read⟩ := bind_eq_ok read
  obtain ⟨otherwise, _, read⟩ := bind_eq_ok read
  cases read
  have kept : ∀ condition, guard = some condition →
      condition.value.Sorted ∧ ∀ segment, condition.toJson.Fits (segment :: place) := by
    rintro condition rfl
    obtain ⟨segment, node, read⟩ := Source.optional_eq_ok (Slot.orDefault_none_eq_ok found)
    rw [here] at read
    exact (Condition.read_eq_ok read).imp_right fun fits _ => fits
  have flag : MayHold place (if otherwise then some (.bool true) else none) := by
    cases otherwise with
    | false => exact nofun
    | true => exact room.scalar rfl
  refine ⟨fun condition guarded => (kept condition guarded).1, room.record ?_⟩
  simp only [List.forall_mem_cons]
  exact ⟨room.scalar rfl, .map fun condition guarded => (kept condition guarded).2, flag,
    List.forall_mem_nil _⟩

theorem StepKind.isParsed_of_mem {kind : StepKind} (known : kind ∈ recognizedKinds) :
    kind.IsParsed := by
  rintro name rfl
  simp [recognizedKinds] at known

theorem StepKind.isParsed_ofText (text : String) : (ofText text).IsParsed := by
  rw [ofText]
  cases found : recognizedKinds.find? (fun kind => kind.name = Text.lower text) with
  | some kind =>
    rw [Option.getD_some]
    exact isParsed_of_mem (List.mem_of_find?_eq_some found)
  | none =>
    rw [Option.getD_none]
    intro name same known member
    cases same
    exact of_decide_eq_false (Bool.eq_false_iff.mpr (List.find?_eq_none.mp found known member))

/-- Transitions that are left out are written as none, so that there has to be room for them. -/
theorem Step.read_eq_ok {step : Step} (further : ∀ segment, HasRoom (segment :: place))
    (read : Step.read Json.format place draft = .ok step) :
    step.IsRegular ∧ step.toJson.Fits place := by
  obtain ⟨room, source, here, read⟩ := readRecord_eq_ok read
  obtain ⟨_, _, read⟩ := bind_eq_ok read
  obtain ⟨id, _, read⟩ := bind_eq_ok read
  obtain ⟨label, _, read⟩ := bind_eq_ok read
  obtain ⟨kind, foundKind, read⟩ := bind_eq_ok read
  obtain ⟨assign, foundRule, read⟩ := bind_eq_ok read
  obtain ⟨dueInSeconds, foundDue, read⟩ := bind_eq_ok read
  obtain ⟨priority, _, read⟩ := bind_eq_ok read
  obtain ⟨transitions, foundTransitions, read⟩ := bind_eq_ok read
  cases read
  have parsed : kind.IsParsed := by
    obtain ⟨_, _, read⟩ := Source.field_eq_ok (Source.required_eq_ok foundKind)
    obtain ⟨text, _, same⟩ := bind_eq_ok read
    cases same
    exact StepKind.isParsed_ofText text
  have rule : ∀ rule, assign = some rule → ∀ segment, rule.toJson.Fits (segment :: place) := by
    rintro rule rfl
    obtain ⟨segment, node, read⟩ := Source.optional_eq_ok (Slot.orDefault_none_eq_ok foundRule)
    rw [here] at read
    have fits := AssignmentRule.read_eq_ok read
    exact fun _ => fits
  have due : ∀ seconds, dueInSeconds = some seconds → seconds < 0x10000000000000000 := by
    rintro seconds rfl
    obtain ⟨_, _, read⟩ := Source.optional_eq_ok (Slot.orDefault_none_eq_ok foundDue)
    exact natural_eq_ok read
  have each : ∀ transition ∈ transitions, (∀ condition, transition.guard = some condition →
      condition.value.Sorted) ∧ ∀ first second, transition.toJson.Fits (first :: second :: place) := by
    rcases Slot.orDefault_eq_ok foundTransitions with ⟨_, rfl⟩ | found
    · exact List.forall_mem_nil _
    · obtain ⟨segment, node, read⟩ := Source.field_eq_ok found
      rw [here] at read
      intro transition member
      obtain ⟨_, _, read⟩ := (readSequence_eq_ok read).2 transition member
      exact (Transition.read_eq_ok read).imp_right fun fits _ _ => fits
  refine ⟨⟨parsed, due, fun transition member => (each transition member).1⟩, room.record ?_⟩
  simp only [List.forall_mem_cons]
  exact ⟨room.scalar rfl, room.optional (fun _ => rfl) label, room.scalar rfl, .map rule,
    room.optional Json.depth_nat dueInSeconds, room.scalar rfl,
    .sequence further fun transition member => (each transition member).2, List.forall_mem_nil _⟩

theorem Definition.read_eq_ok {fresh : Uuid} {definition : Definition}
    (read : Definition.read fresh Json.format [] draft = .ok definition) :
    (∀ step ∈ definition.steps, step.IsRegular) ∧ definition.toJson.Fits [] := by
  obtain ⟨room, source, here, read⟩ := readRecord_eq_ok read
  obtain ⟨_, _, read⟩ := bind_eq_ok read
  obtain ⟨id, _, read⟩ := bind_eq_ok read
  obtain ⟨version, _, read⟩ := bind_eq_ok read
  obtain ⟨name, _, read⟩ := bind_eq_ok read
  obtain ⟨description, _, read⟩ := bind_eq_ok read
  obtain ⟨start, _, read⟩ := bind_eq_ok read
  obtain ⟨steps, found, read⟩ := bind_eq_ok read
  obtain ⟨status, _, read⟩ := bind_eq_ok read
  obtain ⟨createdAt, _, read⟩ := bind_eq_ok read
  cases read
  obtain ⟨segment, node, read⟩ := Source.field_eq_ok (Source.required_eq_ok found)
  rw [here] at read
  obtain ⟨inside, each⟩ := readSequence_eq_ok read
  have kept : ∀ step ∈ steps, step.IsRegular ∧ ∀ first second, step.toJson.Fits [first, second] := by
    intro step member
    obtain ⟨_, _, read⟩ := each step member
    have further (first second third : Segment) : HasRoom [first, second, third] := by
      change 4 < nestingLimit
      decide
    exact (Step.read_eq_ok (fun _ => further _ _ _) read).imp_right fun fits _ _ => fits
  refine ⟨fun step member => (kept step member).1, room.record ?_⟩
  simp only [List.forall_mem_cons]
  exact ⟨room.scalar rfl, room.scalar rfl, room.scalar rfl, room.optional (fun _ => rfl) description,
    room.scalar rfl, .sequence (fun _ => inside) fun step member => (kept step member).2,
    room.scalar rfl, room.optional (fun _ => rfl) createdAt, List.forall_mem_nil _⟩

end Workflow
