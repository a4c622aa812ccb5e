import Mathlib.Data.List.Nodup
import Workflow.Definition.Record
import Workflow.Json.Format
import Workflow.Proofs.Rendering

/-! What content is read from a draft of what is written for it. A value nests no deeper than there
is room for at its place; an object keeps its members in the order of their keys, so that those of a
record are found by their names; and an identifier is read from its digits. -/

namespace Workflow

namespace Json

mutual
/-- How many containers nest in a value at most. -/
def depth : Json → Nat
  | .array items => depthOfItems items + 1
  | .object members => depthOfMembers members + 1
  | _ => 0
termination_by structural value => value

def depthOfItems : List Json → Nat
  | [] => 0
  | item :: rest => max (depth item) (depthOfItems rest)
termination_by structural items => items

def depthOfMembers : List (String × Json) → Nat
  | [] => 0
  | (_, value) :: rest => max (depth value) (depthOfMembers rest)
termination_by structural members => members
end

theorem depthOfItems_le_iff {items : List Json} {limit : Nat} :
    depthOfItems items ≤ limit ↔ ∀ item ∈ items, item.depth ≤ limit := by
  induction items with
  | nil => exact ⟨fun _ => List.forall_mem_nil _, fun _ => Nat.zero_le _⟩
  | cons item rest ih =>
    rw [List.forall_mem_cons, ← ih]
    exact Nat.max_le

theorem depthOfMembers_le_iff {members : List (String × Json)} {limit : Nat} :
    depthOfMembers members ≤ limit ↔ ∀ member ∈ members, member.2.depth ≤ limit := by
  induction members with
  | nil => exact ⟨fun _ => List.forall_mem_nil _, fun _ => Nat.zero_le _⟩
  | cons member rest ih =>
    rw [List.forall_mem_cons, ← ih]
    exact Nat.max_le

theorem sortedMembers_iff {members : List (String × Json)} :
    SortedMembers members ↔ ∀ member ∈ members, member.2.Sorted := by
  induction members with
  | nil => exact ⟨fun _ => List.forall_mem_nil _, fun _ => trivial⟩
  | cons member rest ih =>
    rw [List.forall_mem_cons, ← ih]
    exact Iff.rfl

namespace Members

theorem mem_put {key : String} {value : Json} {members : Members} {member : String × Json}
    (found : member ∈ put key value members) : member = (key, value) ∨ member ∈ members := by
  induction members with
  | nil => exact Or.inl (List.mem_singleton.mp found)
  | cons first rest ih =>
    obtain ⟨other, old⟩ := first
    rw [put] at found
    split at found
    · exact List.mem_cons.mp found
    split at found
    · rcases List.mem_cons.mp found with here | later
      · exact Or.inl here
      · exact Or.inr (List.mem_cons_of_mem _ later)
    · rcases List.mem_cons.mp found with here | later
      · exact Or.inr (here ▸ List.mem_cons_self)
      · exact (ih later).imp_right (List.mem_cons_of_mem _)

theorem put_sorted {key : String} {value : Json} {members : Members}
    (sorted : members.Pairwise (·.1 < ·.1)) : (put key value members).Pairwise (·.1 < ·.1) := by
  induction members with
  | nil => exact List.pairwise_singleton _ _
  | cons first rest ih =>
    obtain ⟨other, old⟩ := first
    obtain ⟨before, later⟩ := List.pairwise_cons.mp sorted
    rw [put]
    split
    next less =>
      refine List.pairwise_cons.mpr ⟨fun member found => ?_, sorted⟩
      rcases List.mem_cons.mp found with rfl | further
      · exact less
      · exact String.lt_trans less (before member further)
    next notLess =>
      split
      next same =>
        subst same
        exact List.pairwise_cons.mpr ⟨before, later⟩
      next unequal =>
        refine List.pairwise_cons.mpr ⟨fun member found => ?_, ih later⟩
        rcases mem_put found with rfl | further
        · by_contra notMore
          exact unequal (String.le_antisymm notMore notLess)
        · exact before member further

theorem sorted_ofList (members : List (String × Json)) :
    (ofList members).Pairwise (·.1 < ·.1) := by
  have onto (base : Members) (sorted : base.Pairwise (·.1 < ·.1)) (top : List (String × Json)) :
      (overlay base top).Pairwise (·.1 < ·.1) := by
    induction top generalizing base with
    | nil => exact sorted
    | cons member rest ih => exact ih _ (put_sorted sorted)
  exact onto [] List.Pairwise.nil members

theorem mem_ofList {members : List (String × Json)} {member : String × Json}
    (found : member ∈ ofList members) : member ∈ members := by
  have onto (base : Members) (top : List (String × Json)) (found : member ∈ overlay base top) :
      member ∈ base ∨ member ∈ top := by
    induction top generalizing base with
    | nil => exact Or.inl found
    | cons first rest ih =>
      rcases ih _ found with put | later
      · rcases mem_put put with rfl | old
        · exact Or.inr List.mem_cons_self
        · exact Or.inl old
      · exact Or.inr (List.mem_cons_of_mem _ later)
  exact (onto [] members found).resolve_left List.not_mem_nil

theorem put_perm {key : String} {value : Json} {members : Members}
    (new : key ∉ members.map (·.1)) : (put key value members).Perm ((key, value) :: members) := by
  induction members with
  | nil => exact .refl _
  | cons first rest ih =>
    obtain ⟨other, old⟩ := first
    have unequal : key ≠ other := fun same => new (same ▸ List.mem_cons_self)
    have later : key ∉ rest.map (·.1) := fun among => new (List.mem_cons_of_mem _ among)
    rw [put, if_neg unequal]
    split
    · exact .refl _
    · exact ((ih later).cons _).trans (.swap _ _ _)

theorem ofList_perm {members : List (String × Json)} (single : (members.map (·.1)).Nodup) :
    (ofList members).Perm members := by
  have onto (base : Members) (top : List (String × Json)) (single : ((base ++ top).map (·.1)).Nodup) :
      (overlay base top).Perm (base ++ top) := by
    induction top generalizing base with
    | nil => exact .of_eq (List.append_nil base).symm
    | cons member rest ih =>
      obtain ⟨key, value⟩ := member
      have first : ((key, value) :: (base ++ rest)).Perm (base ++ (key, value) :: rest) :=
        List.perm_middle.symm
      have new := (List.nodup_cons.mp ((first.map (·.1)).nodup_iff.mpr single)).1
      rw [List.map_append] at new
      have moved : (put key value base ++ rest).Perm (base ++ (key, value) :: rest) :=
        ((put_perm fun member => new (List.mem_append_left _ member)).append_right rest).trans first
      exact (ih _ ((moved.map (·.1)).nodup_iff.mpr single)).trans moved
  exact onto [] members single

theorem nodup_of_sorted {members : Members} (sorted : members.Pairwise (·.1 < ·.1)) :
    (members.map (·.1)).Nodup := by
  refine List.pairwise_map.mpr (sorted.imp fun {first second} less same => ?_)
  exact String.lt_irrefl second.1 (same ▸ less)

/-- There is one order in which members are kept. -/
theorem ofList_eq {written : List (String × Json)} {members : Members}
    (sorted : members.Pairwise (·.1 < ·.1)) (same : written.Perm members) :
    ofList written = members := by
  have kept := ofList_perm ((same.map (·.1)).nodup_iff.mpr (nodup_of_sorted sorted))
  refine (kept.trans same).eq_of_pairwise (fun first second _ _ less more => ?_)
    (sorted_ofList written) sorted
  exact absurd (String.lt_trans less more) (String.lt_irrefl _)

theorem value?_eq_some {members : Members} (single : (members.map (·.1)).Nodup) {key : String}
    {value : Json} (member : (key, value) ∈ members) : value? key members = some value := by
  obtain ⟨before, after, rfl⟩ := List.append_of_mem member
  refine List.lookup_eq_some_iff.mpr ⟨before, after, rfl, fun other earlier => ?_⟩
  rw [List.map_append, List.nodup_append] at single
  have apart := single.2.2 other.1 (List.mem_map_of_mem earlier) key List.mem_cons_self
  exact bne_iff_ne.mpr apart.symm

end Members

/-- Where each member is read as its value, they are read together in the order they have. -/
theorem toJsonMembers_shown {written : List (String × Json)} {drafts : List (StringDraft × Draft)}
    (shown : ShownMembers written drafts) {room : Nat}
    (reads : ∀ member ∈ written, ∀ draft, member.2.Shown draft → draft.toJson room = .ok member.2) :
    Draft.toJsonMembers room drafts = .ok written := by
  induction written generalizing drafts with
  | nil =>
    cases shown
    rfl
  | cons member rest ih =>
    obtain ⟨key, value⟩ := member
    obtain ⟨draft, others, rfl, first, later⟩ := shown
    obtain ⟨here, further⟩ := List.forall_mem_cons.mp reads
    rw [Draft.toJsonMembers, here draft first, ih later further]
    rfl

mutual
theorem toJson_shown (value : Json) (sorted : value.Sorted) {room : Nat} (fits : value.depth < room)
    {draft : Draft} (shown : value.Shown draft) : draft.toJson room = .ok value := by
  cases value with
  | null =>
    cases shown
    rfl
  | bool value =>
    cases shown
    rfl
  | number number =>
    obtain ⟨literal, rfl, same⟩ := shown
    simp only [Draft.toJson, same]
  | string text =>
    cases shown
    rfl
  | array items =>
    obtain ⟨drafts, rfl, shown⟩ := shown
    have wide : ¬ room ≤ 1 := by
      rw [depth] at fits
      omega
    have inner : depthOfItems items < room - 1 := by
      rw [depth] at fits
      omega
    simp only [Draft.toJson, if_neg wide, toJsonItems_shown items sorted inner shown]
  | object members =>
    obtain ⟨drafts, ordered, rfl, moved, shown⟩ := shown
    obtain ⟨written, same, shown⟩ := ShownMembers.reordered shown moved
    have wide : ¬ room ≤ 1 := by
      rw [depth] at fits
      omega
    have inner : depthOfMembers members < room - 1 := by
      rw [depth] at fits
      omega
    have each := toJson_shown_of_mem members sorted.2 inner
    have read := toJsonMembers_shown shown fun member found => each member (same.mem_iff.mp found)
    simp only [Draft.toJson, if_neg wide, read, Members.ofList_eq sorted.1 same]
termination_by structural value

theorem toJsonItems_shown (items : List Json) (sorted : SortedItems items) {room : Nat}
    (fits : depthOfItems items < room) {drafts : List Draft} (shown : ShownItems items drafts) :
    Draft.toJsonItems room drafts = .ok items := by
  cases items with
  | nil =>
    cases shown
    rfl
  | cons item rest =>
    obtain ⟨draft, others, rfl, first, later⟩ := shown
    obtain ⟨here, further⟩ := Nat.max_lt.mp fits
    rw [Draft.toJsonItems, toJson_shown item sorted.1 here first,
      toJsonItems_shown rest sorted.2 further later]
    rfl
termination_by structural items

theorem toJson_shown_of_mem (members : List (String × Json)) (sorted : SortedMembers members)
    {room : Nat} (fits : depthOfMembers members < room) :
    ∀ member ∈ members, ∀ draft, member.2.Shown draft → draft.toJson room = .ok member.2 := by
  cases members with
  | nil => exact List.forall_mem_nil _
  | cons member rest =>
    obtain ⟨key, value⟩ := member
    obtain ⟨here, further⟩ := Nat.max_lt.mp fits
    refine List.forall_mem_cons.mpr ⟨fun draft shown => ?_, ?_⟩
    · exact toJson_shown value sorted.1 here shown
    · exact toJson_shown_of_mem rest sorted.2 further
termination_by structural members
end

end Json

open Text

theorem hexDigit?_hexChar : ∀ digit < 16, hexDigit? (hexChar digit) = some digit := by
  decide

/-- The digits of a number to a base, the highest place first, make up the number. -/
theorem ofDigits_places (base value count : Nat) :
    ofDigits base ((List.range count).map fun place =>
      value / Nat.pow base (count - 1 - place) % base) = value % Nat.pow base count := by
  induction count generalizing value with
  | zero => exact (Nat.mod_one value).symm
  | succ count ih =>
    have higher : (List.range count).map (fun place =>
          value / Nat.pow base (count + 1 - 1 - place) % base) =
        (List.range count).map fun place =>
          value / base / Nat.pow base (count - 1 - place) % base := by
      refine List.map_congr_left fun place member => ?_
      have below := List.mem_range.mp member
      have exponent : count + 1 - 1 - place = (count - 1 - place) + 1 := by omega
      rw [exponent, Nat.div_div_eq_div_mul]
      congr 2
      exact Nat.pow_succ'
    rw [List.range_succ, List.map_append, higher, ofDigits, List.foldl_append, ← ofDigits, ih]
    have last : value / Nat.pow base (count + 1 - 1 - count) % base = value % base := by
      simp
    have power : Nat.pow base (count + 1) = base * Nat.pow base count := Nat.pow_succ'
    simp only [List.map_cons, List.map_nil, List.foldl_cons, List.foldl_nil, last]
    rw [power, Nat.mod_mul, Nat.mul_comm, Nat.add_comm]

namespace Uuid

theorem mapM_hexDigit? {numbers : List Nat} (bounded : ∀ number ∈ numbers, number < 16) :
    (numbers.map hexChar).mapM hexDigit? = some numbers := by
  induction numbers with
  | nil => rfl
  | cons number rest ih =>
    obtain ⟨first, others⟩ := List.forall_mem_cons.mp bounded
    rw [List.map_cons, List.mapM_cons, hexDigit?_hexChar number first, ih others]
    rfl

theorem ofDigits?_digits (id : Uuid) : ofDigits? id.digits = some id := by
  let places := (List.range 32).map fun place => id.number.toNat / Nat.pow 16 (31 - place) % 16
  have shape : id.digits = places.map hexChar := by
    rw [digits, List.map_map]
    rfl
  have read : (places.map hexChar).mapM hexDigit? = some places := by
    refine mapM_hexDigit? fun number member => ?_
    obtain ⟨place, _, rfl⟩ := List.mem_map.mp member
    exact Nat.mod_lt _ (by decide)
  have value : ofDigits 16 places = id.number.toNat := by
    refine (ofDigits_places 16 id.number.toNat 32).trans (Nat.mod_eq_of_lt ?_)
    exact id.number.isLt
  have long : places.length = 32 := by simp [places]
  rw [ofDigits?, shape, read]
  change (if places.length = 32 then some (ofNat (ofDigits 16 places)) else none) = some id
  rw [if_pos long, value, ofNat, BitVec.ofNat_toNat, BitVec.setWidth_eq]

theorem hyphenated?_groups {first second third fourth : List Char} (last : List Char)
    (eight : first.length = 8) (four : second.length = 4) (four' : third.length = 4)
    (four'' : fourth.length = 4) :
    hyphenated? (first ++ '-' :: second ++ '-' :: third ++ '-' :: fourth ++ '-' :: last) =
      ofDigits? (first ++ second ++ third ++ fourth ++ last) := by
  have split {group : List Char} (count : Nat) (long : group.length = count) (rest : List Char) :
      (group ++ rest).splitAt count = (group, rest) := by
    rw [List.splitAt_eq, List.take_left' long, List.drop_left' long]
  have marked {group : List Char} (long : group.length = 4) (rest : List Char) :
      ('-' :: (group ++ rest)).splitAt 5 = ('-' :: group, rest) :=
    @split ('-' :: group) 5 (congrArg (· + 1) long) rest
  rw [hyphenated?]
  simp only [List.append_assoc, List.cons_append, split 8 eight, marked four, marked four',
    marked four'']

theorem ofText?_text (id : Uuid) : ofText? id.text = some id := by
  have long : id.digits.length = 32 := by rw [digits, List.length_map, List.length_range]
  have size : id.chars.length = 36 := by simp [chars, long]
  have groups := @hyphenated?_groups (id.digits.take 8) ((id.digits.drop 8).take 4)
    ((id.digits.drop 12).take 4) ((id.digits.drop 16).take 4) (id.digits.drop 20)
    (by simp [long]) (by simp [long]) (by simp [long]) (by simp [long])
  have joined (start count : Nat) :
      (id.digits.drop start).take count ++ id.digits.drop (start + count) = id.digits.drop start := by
    rw [← List.drop_drop, List.take_append_drop]
  rw [ofText?, text, String.toList_ofList, ofChars?, if_neg (by omega), if_pos size]
  refine groups.trans ?_
  rw [List.append_assoc, joined 16 4, List.append_assoc, joined 12 4, List.append_assoc, joined 8 4,
    List.take_append_drop, ofDigits?_digits]

end Uuid

open Document Json

/-- A value may stand at a place: with the containers around it no more nest in it than may. -/
def Json.Fits (value : Json) (place : Place) : Prop :=
  place.length + value.depth < nestingLimit

theorem Json.Fits.room {value : Json} {place : Place} (fits : value.Fits place)
    (container : 0 < value.depth) : ¬ Draft.room place ≤ 1 := by
  unfold Json.Fits at fits
  unfold Draft.room
  omega

section Contents

variable {place : Place} {draft : Draft}

theorem readText_shown {text : String} (shown : (Json.string text).Shown draft) :
    readText Json.format place draft = .ok text := by
  cases shown
  rfl

theorem readUuid_shown {id : Uuid} (shown : (writeId id).Shown draft) :
    readUuid Json.format place draft = .ok id := by
  cases shown
  have text : Json.format.text "a formatted UUID string" place (.string (.ok id.text)) =
    .ok id.text := rfl
  simp only [readUuid, text, bind, Except.bind, Uuid.ofText?_text]
  rfl

theorem readTimestamp_shown {time : Timestamp} (back : Timestamp.ofText? time.text = some time)
    (shown : (writeTime time).Shown draft) : readTimestamp Json.format place draft = .ok time := by
  cases shown
  have text : Json.format.text "an RFC 3339 formatted date and time string" place
    (.string (.ok time.text)) = .ok time.text := rfl
  simp only [readTimestamp, text, bind, Except.bind, back]
  rfl

theorem readNamed_shown {α : Type} [Named α] {value : α}
    (known : Named.named? (Named.name value) = some value) (shown : (writeNamed value).Shown draft) :
    readNamed Json.format place draft = .ok value := by
  cases shown
  have listed : Named.name value ∈ Named.names α :=
    List.mem_map_of_mem (List.mem_of_find?_eq_some known)
  have chosen : Json.format.choice (Named.names α) place (.string (.ok (Named.name value))) =
      .ok (Named.name value) := if_pos listed
  simp only [readNamed, chosen, bind, Except.bind, known]
  rfl

theorem inRange_word {word : Nat} (bounded : word < 0x10000000000000000) : InRange word :=
  ⟨by omega, by omega⟩

theorem nat_eq_number {word : Nat} (bounded : word < 0x10000000000000000) :
    Json.nat word = .number (.integer word (inRange_word bounded)) := by
  rw [Json.nat, Json.int, Number.ofInt?, dif_pos (inRange_word bounded)]

theorem natural_shown {expected : String} {value : Nat} {inRange : InRange value}
    (shown : (Json.number (.integer value inRange)).Shown draft) :
    Json.format.natural expected place draft = .ok value := by
  obtain ⟨literal, rfl, same⟩ := shown
  have found : Draft.found (.number literal) = .ok (.integer value) := by
    rw [Draft.found, same]
  change Draft.natural expected place (.number literal) = .ok value
  simp only [Draft.natural, found, bind, Except.bind]
  rw [if_neg (by omega)]
  rfl

theorem flag_shown {value : Bool} (shown : (Json.bool value).Shown draft) :
    Json.format.flag place draft = .ok value := by
  cases shown
  rfl

theorem value_shown {value : Json} (shown : value.Shown draft) (sorted : value.Sorted)
    (fits : value.Fits place) : Json.format.value place draft = .ok value := by
  have inner : value.depth < Draft.room place := by
    unfold Json.Fits at fits
    unfold Draft.room
    omega
  change Draft.value place draft = .ok value
  rw [Draft.value, toJson_shown value sorted inner shown]
  rfl

theorem optional_shown {value : Json} (shown : value.Shown draft) (filled : value ≠ .null) :
    Json.format.optional draft = .ok (some draft) := by
  cases value with
  | null => exact absurd rfl filled
  | number _ =>
    obtain ⟨_, rfl, _⟩ := shown
    rfl
  | array _ =>
    obtain ⟨_, rfl, _⟩ := shown
    rfl
  | object _ =>
    obtain ⟨_, _, rfl, _⟩ := shown
    rfl
  | bool _ | string _ =>
    cases shown
    rfl

theorem Json.Fits.item {items : List Json} (fits : (Json.array items).Fits place) {item : Json}
    (member : item ∈ items) (position : Nat) : item.Fits (.index position :: place) := by
  have inner := depthOfItems_le_iff.mp (Nat.le_refl _) item member
  unfold Json.Fits at fits ⊢
  rw [Json.depth] at fits
  rw [List.length_cons]
  omega

theorem readItems_shown {α : Type} {write : α → Json} {read : Place → Draft → Reading α}
    {items : List α} {drafts : List Draft} (shown : ShownItems (items.map write) drafts)
    (reads : ∀ item ∈ items, ∀ position node, (write item).Shown node →
      read (.index position :: place) node = .ok item) (position : Nat) :
    Format.readItems read place position drafts = .ok items := by
  induction items generalizing drafts position with
  | nil =>
    cases shown
    rfl
  | cons item rest ih =>
    obtain ⟨node, others, rfl, first, later⟩ := shown
    rw [Format.readItems, reads item List.mem_cons_self position node first,
      ih later (fun item member => reads item (List.mem_cons_of_mem _ member))]
    rfl

theorem readSequence_shown {α : Type} {write : α → Json} {read : Place → Draft → Reading α}
    {items : List α} (shown : (Json.array (items.map write)).Shown draft)
    (fits : (Json.array (items.map write)).Fits place)
    (reads : ∀ item ∈ items, ∀ position node, (write item).Shown node →
      (write item).Fits (.index position :: place) →
        read (.index position :: place) node = .ok item) :
    Json.format.readSequence read place draft = .ok items := by
  obtain ⟨drafts, rfl, shown⟩ := shown
  have listed : Json.format.sequence place (.array drafts none) = .ok ⟨drafts, none⟩ :=
    if_neg (fits.room (Nat.succ_pos _))
  have items := readItems_shown shown (fun item member position node shown =>
    reads item member position node shown (fits.item (List.mem_map_of_mem member) position)) 0
  rw [Format.readSequence, listed]
  simp only [bind, Except.bind, items]
  rfl

theorem readEntries_shown {members : Json.Members} {drafts : List (StringDraft × Draft)}
    (shown : ShownMembers members drafts) (sorted : ∀ member ∈ members, member.2.Sorted)
    (fits : ∀ member ∈ members, ∀ key, member.2.Fits (.key key :: place)) :
    Format.readEntries Json.format.value place (Draft.keyed drafts none).contents = .ok members := by
  induction members generalizing drafts with
  | nil =>
    cases shown
    rfl
  | cons member rest ih =>
    obtain ⟨key, value⟩ := member
    obtain ⟨draft, nodes, rfl, first, later⟩ := shown
    obtain ⟨here, further⟩ := List.forall_mem_cons.mp sorted
    obtain ⟨inner, others⟩ := List.forall_mem_cons.mp fits
    have read := @value_shown (.key key :: place) draft value first here (inner key)
    have rest := ih later further others
    change Format.readEntries Json.format.value place
      ((.ok key, draft) :: (Draft.keyed nodes none).contents) = _
    simp only [Format.readEntries, read, rest, bind, Except.bind]
    rfl

theorem Json.Fits.member {members : Json.Members} (fits : (Json.object members).Fits place)
    {member : String × Json} (found : member ∈ members) (segment : Segment) :
    member.2.Fits (segment :: place) := by
  have inner := depthOfMembers_le_iff.mp (Nat.le_refl _) member found
  unfold Json.Fits at fits ⊢
  rw [Json.depth] at fits
  rw [List.length_cons]
  omega

theorem readObject_shown {data : Json.Members} (shown : (Json.object data).Shown draft)
    (sorted : (Json.object data).Sorted) (fits : (Json.object data).Fits place) :
    readObject Json.format place draft = .ok data := by
  obtain ⟨drafts, ordered, rfl, moved, shown⟩ := shown
  obtain ⟨written, same, shown⟩ := ShownMembers.reordered shown moved
  have listed : Json.format.table place (.object drafts none) = .ok (Draft.keyed drafts none) :=
    if_neg (fits.room (Nat.succ_pos _))
  have entries := readEntries_shown shown
    (fun member found => sortedMembers_iff.mp sorted.2 member (same.mem_iff.mp found))
    fun member found key => fits.member (same.mem_iff.mp found) (.key key)
  have table : Json.format.readTable Json.format.value place (.object drafts none) = .ok written := by
    rw [Format.readTable, listed]
    simp only [bind, Except.bind, entries]
    rfl
  simp only [readObject, table, bind, Except.bind, Members.ofList_eq sorted.1 same]
  rfl

end Contents

def Json.present (members : List (String × Option Json)) : List (String × Json) :=
  members.filterMap fun (key, value) => value.map (key, ·)

theorem Json.record_eq (members : List (String × Option Json)) :
    Json.record members = .object (Members.ofList (present members)) :=
  rfl

theorem Json.present_keys (members : List (String × Option Json)) :
    ((present members).map (·.1)).Sublist (members.map (·.1)) := by
  induction members with
  | nil => exact List.Sublist.refl _
  | cons member rest ih =>
    obtain ⟨key, value⟩ := member
    cases value with
    | none => exact ih.cons _
    | some value => exact ih.cons_cons key

theorem Json.mem_present {members : List (String × Option Json)} {key : String} {value : Json} :
    (key, value) ∈ present members ↔ (key, some value) ∈ members := by
  rw [present, List.mem_filterMap]
  constructor
  · rintro ⟨⟨other, found⟩, member, made⟩
    obtain ⟨inner, rfl, same⟩ := Option.map_eq_some_iff.mp made
    cases same
    exact member
  · exact fun member => ⟨(key, some value), member, rfl⟩

/-- What is read for a field that may be left out. -/
def Document.Slot.ofOption {α : Type} (value : Option α) : Slot (Option α) :=
  value.map fun value => .ok (some value)

namespace Document.Slot

variable {α : Type}

@[simp] theorem problem?_ok (value : α) : problem? (some (.ok value)) = none :=
  rfl

@[simp] theorem problem?_ofOption (value : Option α) : (ofOption value).problem? = none := by
  cases value <;> rfl

@[simp] theorem orDefault_ok (value default : α) : orDefault (some (.ok value)) default = .ok value :=
  rfl

@[simp] theorem orDefault_ofOption (value : Option α) : (ofOption value).orDefault none = .ok value := by
  cases value <;> rfl

end Document.Slot

namespace Document.Source

theorem first?_shown {members : Json.Members} {drafts : List (StringDraft × Draft)}
    (shown : ShownMembers members drafts) (name : String) :
    match Json.Members.value? name members with
    | some value => ∃ node, value.Shown node ∧
        first? name (Draft.keyed drafts none).contents = some node
    | none => first? name (Draft.keyed drafts none).contents = none := by
  induction members generalizing drafts with
  | nil =>
    cases shown
    rfl
  | cons member rest ih =>
    obtain ⟨key, value⟩ := member
    obtain ⟨draft, others, rfl, first, later⟩ := shown
    have found := ih later
    change match Json.Members.value? name ((key, value) :: rest) with
      | some value => ∃ node, value.Shown node ∧
          (if key = name then some draft else first? name (Draft.keyed others none).contents) =
            some node
      | none => (if key = name then some draft
          else first? name (Draft.keyed others none).contents) = none
    by_cases same : key = name
    · subst same
      rw [Json.Members.value?, List.lookup_cons_self, if_pos rfl]
      exact ⟨draft, first, rfl⟩
    · rw [Json.Members.value?, List.lookup_cons, beq_eq_false_iff_ne.mpr (Ne.symm same), if_neg same]
      exact found

theorem firstProblem_shown {source : Source Draft} {problems : List (String × Option Problem)}
    (clear : ∀ name, (problems.lookup name).join = none) {members : Json.Members}
    {drafts : List (StringDraft × Draft)} (shown : ShownMembers members drafts)
    (known : ∀ member ∈ members, member.1 ∈ source.fields) (single : (members.map (·.1)).Nodup)
    {seen : List String} (new : ∀ member ∈ members, member.1 ∉ seen) :
    source.firstProblem problems seen (Draft.keyed drafts none).contents = none := by
  induction members generalizing drafts seen with
  | nil =>
    cases shown
    rfl
  | cons member rest ih =>
    obtain ⟨key, value⟩ := member
    obtain ⟨draft, nodes, rfl, first, later⟩ := shown
    obtain ⟨here, further⟩ := List.nodup_cons.mp single
    have others : ∀ member ∈ rest, member.1 ∉ key :: seen := by
      intro member found among
      rcases List.mem_cons.mp among with same | before
      · exact here (List.mem_map.mpr ⟨member, found, same⟩)
      · exact new member (List.mem_cons_of_mem _ found) before
    have rest := ih later (fun member found => known member (List.mem_cons_of_mem _ found)) further
      others
    change source.firstProblem problems seen
      ((.ok key, draft) :: (Draft.keyed nodes none).contents) = none
    rw [firstProblem, if_pos (known (key, value) List.mem_cons_self),
      if_neg (new (key, value) List.mem_cons_self), clear, rest]
    rfl

structure Lists (source : Source Draft) (members : List (String × Option Json)) : Prop where
  format : source.format = Json.format
  held : ∃ drafts written, source.members = .named (Draft.keyed drafts none) ∧
    ShownMembers written drafts ∧ written.Perm (present members)
  known : ∀ member ∈ members, member.1 ∈ source.fields
  single : (members.map (·.1)).Nodup
  fits : ∀ key value, (key, some value) ∈ members → value.Fits (.key key :: source.place)

namespace Lists

variable {source : Source Draft} {members : List (String × Option Json)}

theorem nodup_of_perm (lists : source.Lists members) {written : Json.Members}
    (same : written.Perm (present members)) : (written.map (·.1)).Nodup :=
  (same.map (·.1)).nodup_iff.mpr (lists.single.sublist (present_keys members))

theorem found (lists : source.Lists members) {key : String} {value : Json}
    (member : (key, some value) ∈ members) {α : Type} {read : Place → Draft → Reading α} {result : α}
    (reads : ∀ node, value.Shown node → value.Fits (.key key :: source.place) →
      read (.key key :: source.place) node = .ok result) :
    source.field key read = some (.ok result) := by
  obtain ⟨drafts, written, named, shown, same⟩ := lists.held
  have among := same.mem_iff.mpr (mem_present.mpr member)
  have here := first?_shown shown key
  rw [Members.value?_eq_some (lists.nodup_of_perm same) among] at here
  obtain ⟨node, like, first⟩ := here
  rw [field, named]
  simp only [first, Option.map_some, reads node like (lists.fits key value member)]

theorem absent (lists : source.Lists members) {key : String} (member : (key, none) ∈ members)
    {α : Type} {read : Place → Draft → Reading α} : source.field key read = none := by
  obtain ⟨drafts, written, named, shown, same⟩ := lists.held
  have other : ∀ held ∈ written, key ≠ held.1 := by
    rintro held among rfl
    have set := mem_present.mp (same.mem_iff.mp among)
    cases List.inj_on_of_nodup_map lists.single set member rfl
  have nothing : Members.value? key written = none :=
    List.lookup_eq_none_iff.mpr fun held among => bne_iff_ne.mpr (other held among)
  have here := first?_shown shown key
  rw [nothing] at here
  rw [field, named]
  simp only [Option.map_eq_none_iff]
  exact here

theorem optional (lists : source.Lists members) (key : String) {α : Type} (write : α → Json)
    {value : Option α} (member : (key, value.map write) ∈ members)
    (filled : ∀ inner, value = some inner → write inner ≠ .null)
    {read : Place → Draft → Reading α}
    (reads : ∀ inner, value = some inner → ∀ node, (write inner).Shown node →
      (write inner).Fits (.key key :: source.place) →
        read (.key key :: source.place) node = .ok inner) :
    source.optional key read = Slot.ofOption value := by
  cases value with
  | none => exact lists.absent member
  | some inner =>
    refine lists.found member fun node shown fits => ?_
    rw [lists.format, optional_shown shown (filled inner rfl)]
    simp only [bind, Except.bind, reads inner rfl node shown fits]
    rfl

/-- A word that may be left out. Its written form is not unfolded before it is known to fit. -/
theorem optionalWord (lists : source.Lists members) (key : String) {value : Option Nat}
    (bounded : ∀ word, value = some word → word < 0x10000000000000000)
    (member : (key, value.map Json.nat) ∈ members) :
    source.optional key (readWord Json.format) = Slot.ofOption value := by
  cases value with
  | none => exact lists.absent member
  | some word =>
    rw [Option.map_some, nat_eq_number (bounded word rfl)] at member
    refine @optional _ _ lists key _
      (fun _ => .number (.integer word (inRange_word (bounded word rfl)))) (some word) member
      (fun _ _ => nofun) _ fun inner same _ => ?_
    cases same
    exact fun shown _ => natural_shown shown

theorem text (lists : source.Lists members) (key content : String)
    (member : (key, some (.string content)) ∈ members) :
    source.field key (readText Json.format) = some (.ok content) :=
  lists.found member fun _ shown _ => readText_shown shown

theorem optionalText (lists : source.Lists members) (key : String) (content : Option String)
    (member : (key, content.map .string) ∈ members) :
    source.optional key (readText Json.format) = Slot.ofOption content :=
  lists.optional key .string member (fun _ _ => nofun) fun _ _ _ shown _ => readText_shown shown

theorem uuid (lists : source.Lists members) (key : String) (id : Uuid)
    (member : (key, some (writeId id)) ∈ members) :
    source.field key (readUuid Json.format) = some (.ok id) :=
  lists.found member fun _ shown _ => readUuid_shown shown

theorem time (lists : source.Lists members) (key : String) {time : Timestamp}
    (back : Timestamp.ofText? time.text = some time) (member : (key, some (writeTime time)) ∈ members) :
    source.field key (readTimestamp Json.format) = some (.ok time) :=
  lists.found member fun _ shown _ => readTimestamp_shown back shown

theorem optionalTime (lists : source.Lists members) (key : String) {time : Option Timestamp}
    (back : ∀ set, time = some set → Timestamp.ofText? set.text = some set)
    (member : (key, time.map writeTime) ∈ members) :
    source.optional key (readTimestamp Json.format) = Slot.ofOption time :=
  lists.optional key writeTime member (fun _ _ => nofun)
    fun set same _ shown _ => readTimestamp_shown (back set same) shown

theorem named (lists : source.Lists members) (key : String) {α : Type} [Named α] {value : α}
    (known : Named.named? (Named.name value) = some value)
    (member : (key, some (writeNamed value)) ∈ members) :
    source.field key (readNamed Json.format) = some (.ok value) :=
  lists.found member fun _ shown _ => readNamed_shown known shown

theorem object (lists : source.Lists members) (key : String) {data : Json.Members}
    (sorted : (Json.object data).Sorted) (member : (key, some (.object data)) ∈ members) :
    source.field key (readObject Json.format) = some (.ok data) :=
  lists.found member fun _ shown fits => readObject_shown shown sorted fits

theorem check (lists : source.Lists members) {problems : List (String × Option Problem)}
    (clear : ∀ problem ∈ problems, problem.2 = none) : source.check problems = .ok () := by
  obtain ⟨drafts, written, named, shown, same⟩ := lists.held
  have none (name : String) : (problems.lookup name).join = none := by
    cases found : problems.lookup name with
    | none => rfl
    | some problem =>
      obtain ⟨before, after, shape, _⟩ := List.lookup_eq_some_iff.mp found
      exact clear (name, problem) (shape ▸ List.mem_append_right _ List.mem_cons_self)
  have known : ∀ member ∈ written, member.1 ∈ source.fields := fun member found =>
    lists.known (member.1, some member.2) (mem_present.mp (same.mem_iff.mp found))
  rw [Source.check, named]
  simp only [firstProblem_shown none shown known (lists.nodup_of_perm same) fun _ _ => List.not_mem_nil]
  rfl

theorem unsetUnlessListed (lists : source.Lists members) (name expected : String) {α : Type}
    (value : Option α) :
    source.unsetUnlessListed name expected (Slot.ofOption value) = .ok value := by
  obtain ⟨drafts, _, named, _⟩ := lists.held
  rw [Source.unsetUnlessListed.eq_def, named]
  cases value <;> rfl

end Lists

@[simp] theorem required_ok {α : Type} (source : Source Draft) (name expected : String) (value : α) :
    source.required name expected (some (.ok value)) = .ok value :=
  rfl

end Document.Source

theorem readRecord_shown {α : Type} {members : List (String × Option Json)} {expected : String}
    {fields : List String} (single : fields.Nodup) (same : members.map (·.1) = fields) {place : Place}
    {draft : Draft} (shown : (Json.record members).Shown draft) (fits : (Json.record members).Fits place)
    {read : Source Draft → Reading α} {value : α}
    (reads : ∀ source : Source Draft, source.place = place → source.Lists members →
      read source = .ok value) :
    Json.format.readRecord expected fields read place draft = .ok value := by
  rw [record_eq] at shown fits
  obtain ⟨drafts, ordered, rfl, moved, shown⟩ := shown
  obtain ⟨written, kept, shown⟩ := ShownMembers.reordered shown moved
  have listed : Json.format.record expected place (.object drafts none) =
      .ok (.named (Draft.keyed drafts none)) := if_neg (fits.room (Nat.succ_pos _))
  rw [Format.readRecord, listed]
  have keys : (members.map (·.1)).Nodup := same ▸ single
  have held := Members.ofList_perm (keys.sublist (present_keys members))
  have lists : Source.Lists ⟨Json.format, place, fields, .named (Draft.keyed drafts none)⟩ members := by
    refine ⟨rfl, ⟨drafts, written, rfl, shown, kept.trans held⟩, fun member found => ?_, keys,
      fun key value found => ?_⟩
    · exact same ▸ List.mem_map_of_mem found
    · exact fits.member (held.mem_iff.mpr (mem_present.mpr found)) (.key key)
  simp only [bind, Except.bind, reads _ rfl lists]
  rfl

end Workflow
