import Mathlib.Data.List.Forall2
import Mathlib.Data.List.Perm.Basic
import Workflow.Proofs.Literals

/-! What is written for a whole value is read back as the draft of it, whatever stands behind it. The
induction is on the value, with one statement for each of items and members that holds before the
first of them and behind a comma. A draft shows a value in whatever order the members of objects
come. -/

namespace Workflow.Json

open Text

mutual
/-- A draft is what a value looks like, with the members of objects in any order. -/
def Shown : Json → Draft → Prop
  | .null, draft => draft = .null
  | .bool value, draft => draft = .bool value
  | .number value, draft => ∃ literal, draft = .number literal ∧ literal.number? = some value
  | .string text, draft => draft = .string (.ok text)
  | .array items, draft => ∃ drafts, draft = .array drafts none ∧ ShownItems items drafts
  | .object members, draft => ∃ drafts ordered, draft = .object drafts none ∧
      ordered.Perm drafts ∧ ShownMembers members ordered
termination_by structural value => value

def ShownItems : List Json → List Draft → Prop
  | [], drafts => drafts = []
  | item :: rest, drafts =>
    ∃ draft others, drafts = draft :: others ∧ Shown item draft ∧ ShownItems rest others
termination_by structural items => items

def ShownMembers : List (String × Json) → List (StringDraft × Draft) → Prop
  | [], drafts => drafts = []
  | (key, value) :: rest, drafts => ∃ draft others,
    drafts = (.ok key, draft) :: others ∧ Shown value draft ∧ ShownMembers rest others
termination_by structural members => members
end

mutual
def draft : Json → Draft
  | .null => .null
  | .bool value => .bool value
  | .number value => (Draft.literal? value.chars).elim .null .number
  | .string text => .string (.ok text)
  | .array items => .array (draftItems items) none
  | .object members => .object (draftMembers members) none
termination_by structural value => value

def draftItems : List Json → List Draft
  | [] => []
  | item :: rest => draft item :: draftItems rest
termination_by structural items => items

def draftMembers : List (String × Json) → List (StringDraft × Draft)
  | [] => []
  | (key, value) :: rest => (.ok key, draft value) :: draftMembers rest
termination_by structural members => members
end

namespace Draft

def Outcome.taken? {chars : List Char} : Outcome chars → Option (Draft × List Char)
  | .read draft rest => some (draft, rest.val)
  | .stopped _ => none

def Contents.taken? {α : Type} {chars : List Char} : Contents α chars → Option (List α × List Char)
  | .read contents rest => some (contents, rest.val)
  | .stopped _ _ => none

variable {chars rest : List Char}

theorem Contents.taken?_cons {α : Type} {item : α} {contents : List α} {le : rest.length ≤ chars.length}
    {inner : Contents α rest} {last : List Char} (taken : inner.taken? = some (contents, last)) :
    (inner.cons item le).taken? = some (item :: contents, last) := by
  cases inner with
  | read _ _ =>
    cases taken
    rfl
  | stopped _ _ => cases taken

theorem Contents.taken?_weaken {α : Type} {le : rest.length ≤ chars.length}
    {inner : Contents α rest} : (inner.weaken le).taken? = inner.taken? := by
  cases inner <;> rfl

def Opens (c : Char) : Prop :=
  isSpace c = false ∧ c ≠ ']' ∧ c ≠ '\x7d'

instance (c : Char) : Decidable (Opens c) := by
  unfold Opens
  infer_instance

theorem Opens.skipSpace {c : Char} (opens : Opens c) (rest : List Char) :
    skipSpace (c :: rest) = c :: rest := by
  rw [Json.skipSpace, List.dropWhile_cons_of_neg]
  rw [opens.1]
  exact Bool.false_ne_true

theorem Opens.of_isDigit {c : Char} (digit : c.isDigit = true) : Opens c := by
  have other {mark : Char} (noDigit : mark.isDigit = false) : c ≠ mark := by
    rintro rfl
    exact Bool.false_ne_true (noDigit.symm.trans digit)
  refine ⟨?_, other rfl, other rfl⟩
  rw [isSpace, decide_eq_false (other rfl), decide_eq_false (other rfl),
    decide_eq_false (other rfl), decide_eq_false (other rfl)]
  rfl

theorem readValue_word (rest : List Char) :
    (readValue ("null".toList ++ rest)).taken? = some (.null, rest) ∧
      (readValue ("true".toList ++ rest)).taken? = some (.bool true, rest) ∧
        (readValue ("false".toList ++ rest)).taken? = some (.bool false, rest) := by
  refine ⟨?_, ?_, ?_⟩
  all_goals
    rw [readValue]
    rfl

theorem readItems_close (first : Bool) (rest : List Char) :
    (readItems first (']' :: rest)).taken? = some ([], rest) := by
  rw [readItems]
  rfl

theorem readItems_first {c : Char} (opens : Opens c) {draft : Draft} {after last : List Char}
    {items : List Draft}
    (value : (readValue (c :: rest)).taken? = some (draft, after))
    (others : (readItems false after).taken? = some (items, last)) :
    (readItems true (c :: rest)).taken? = some (draft :: items, last) := by
  rw [readItems]
  split
  · rename_i skipped
    rw [opens.skipSpace] at skipped
    cases skipped
  · rename_i skipped
    rw [opens.skipSpace] at skipped
    cases skipped
    rw [if_neg opens.2.1, if_pos rfl]
    cases read : readValue (c :: rest) with
    | stopped _ =>
      rw [read] at value
      cases value
    | read found last =>
      rw [read] at value
      cases value
      exact Contents.taken?_cons others

theorem readItems_next {c : Char} (opens : Opens c) {draft : Draft} {after last : List Char}
    {items : List Draft} (value : (readValue (c :: rest)).taken? = some (draft, after))
    (others : (readItems false after).taken? = some (items, last)) :
    (readItems false (',' :: c :: rest)).taken? = some (draft :: items, last) := by
  rw [readItems]
  split
  · rename_i skipped
    cases skipped
  · rename_i skipped
    cases skipped
    rw [if_neg (by decide), if_neg Bool.false_ne_true, if_pos rfl, opens.skipSpace]
    split
    · rename_i none
      cases none
    · rename_i same
      exact absurd (List.cons.inj same).1 opens.2.1
    · cases read : readValue (c :: rest) with
      | stopped _ =>
        rw [read] at value
        cases value
      | read found last =>
        rw [read] at value
        cases value
        exact Contents.taken?_cons others

theorem readMembers_close (first : Bool) (rest : List Char) :
    (readMembers first ('\x7d' :: rest)).taken? = some ([], rest) := by
  rw [readMembers]
  rfl

theorem readMembers_first (rest : List Char) :
    (readMembers true ('"' :: rest)).taken? = (readMember ('"' :: rest)).taken? := by
  rw [readMembers]
  split
  · rename_i skipped
    cases skipped
  · rename_i skipped
    cases skipped
    rw [if_neg (by decide), if_pos rfl]
    exact Contents.taken?_weaken

theorem readMembers_next (rest : List Char) :
    (readMembers false (',' :: '"' :: rest)).taken? = (readMember ('"' :: rest)).taken? := by
  rw [readMembers]
  split
  · rename_i skipped
    cases skipped
  · rename_i skipped
    cases skipped
    rw [if_neg (by decide), if_neg Bool.false_ne_true, if_pos rfl]
    exact Contents.taken?_weaken

theorem quote_append (text : String) (rest : List Char) :
    quote text ++ rest = '"' :: (text.toList.flatMap escape ++ '"' :: rest) := by
  rw [quote, List.cons_append, List.cons_append, List.append_assoc]
  rfl

theorem readMember_quote (key : String) {draft : Draft} {after last : List Char}
    {members : List (StringDraft × Draft)} (value : (readValue rest).taken? = some (draft, after))
    (others : (readMembers false after).taken? = some (members, last)) :
    (readMember (quote key ++ ':' :: rest)).taken? = some ((.ok key, draft) :: members, last) := by
  obtain ⟨_, read⟩ := (readString_quote key (':' :: rest)).eq
  rw [quote_append, readMember, if_pos rfl]
  simp only [read]
  split
  · rename_i skipped
    cases skipped
  · rename_i skipped
    cases skipped
    rw [if_pos rfl]
    cases found : readValue rest with
    | stopped _ =>
      rw [found] at value
      cases value
    | read _ _ =>
      rw [found] at value
      cases value
      exact Contents.taken?_cons others

theorem readValue_quote (text : String) (rest : List Char) :
    (readValue (quote text ++ rest)).taken? = some (.string (.ok text), rest) := by
  obtain ⟨_, read⟩ := (readString_quote text rest).eq
  rw [quote_append, readValue]
  split
  · rename_i skipped
    cases skipped
  · rename_i skipped
    cases skipped
    simp only [Char.reduceEq, if_false, if_true]
    simp only [read]
    rfl

theorem readValue_array {items : List Draft} {last : List Char}
    (contents : (readItems true rest).taken? = some (items, last)) :
    (readValue ('[' :: rest)).taken? = some (.array items none, last) := by
  rw [readValue]
  split
  · rename_i skipped
    cases skipped
  · rename_i skipped
    cases skipped
    simp only [Char.reduceEq, if_false, if_true]
    cases read : readItems true rest with
    | stopped _ _ =>
      rw [read] at contents
      cases contents
    | read _ _ =>
      rw [read] at contents
      cases contents
      rfl

theorem readValue_object {members : List (StringDraft × Draft)} {last : List Char}
    (contents : (readMembers true rest).taken? = some (members, last)) :
    (readValue ('\x7b' :: rest)).taken? = some (.object members none, last) := by
  rw [readValue]
  split
  · rename_i skipped
    cases skipped
  · rename_i skipped
    cases skipped
    simp only [Char.reduceEq, if_false, if_true]
    cases read : readMembers true rest with
    | stopped _ _ =>
      rw [read] at contents
      cases contents
    | read _ _ =>
      rw [read] at contents
      cases contents
      rfl

theorem readNumber_head {negative : Bool} {literal : Number.Literal} {left : List Char}
    (read : Yields (readNumber negative chars) literal left) :
    ∃ c more, chars = c :: more ∧ c.isDigit = true := by
  rw [readNumber] at read
  cases chars with
  | nil => cases read
  | cons c more =>
    refine ⟨c, more, rfl, ?_⟩
    by_cases zero : c = '0'
    · rw [zero]
      rfl
    · rw [readWhole.eq_2 _ fun _ _ same => zero (List.cons.inj same).1, readDigits] at read
      by_contra other
      rw [if_neg other] at read
      cases read

theorem literal?_head {literal : Number.Literal} (read : literal? chars = some literal) :
    ∃ c more, chars = c :: more ∧ Opens c := by
  unfold literal? at read
  split at read
  · exact ⟨_, _, rfl, by decide⟩
  · obtain ⟨c, more, shape, digit⟩ := readNumber_head (whole?_eq_some.mp read)
    exact ⟨c, more, shape, .of_isDigit digit⟩

theorem taken?_numbered {le : rest.length ≤ chars.length}
    {reading : Except SyntaxError (Number.Literal × Rest rest)} {literal : Number.Literal}
    {last : List Char} (yields : Yields reading literal last) :
    (numbered le reading).taken? = some (.number literal, last) := by
  obtain ⟨_, rfl⟩ := yields.eq
  rfl

theorem readValue_literal {literal : Number.Literal} (read : literal? chars = some literal)
    (closes : Closes rest) : (readValue (chars ++ rest)).taken? = some (.number literal, rest) := by
  unfold literal? at read
  split at read
  · rename_i digits
    have yields := readNumber_append (whole?_eq_some.mp read) closes
    rw [List.cons_append, readValue]
    split
    · rename_i skipped
      cases skipped
    · rename_i skipped
      cases skipped
      simp only [Char.reduceEq, if_false, if_true]
      exact taken?_numbered yields
  · have yields := readNumber_append (whole?_eq_some.mp read) closes
    obtain ⟨c, more, shape, digit⟩ := readNumber_head yields
    rw [shape] at yields ⊢
    have opens := Opens.of_isDigit digit
    rw [readValue]
    split
    · rename_i skipped
      rw [opens.skipSpace] at skipped
      cases skipped
    · rename_i skipped
      rw [opens.skipSpace] at skipped
      cases skipped
      have other : c ≠ 'n' ∧ c ≠ 't' ∧ c ≠ 'f' ∧ c ≠ '-' := by
        refine ⟨?_, ?_, ?_, ?_⟩ <;> rintro rfl <;> cases digit
      rw [if_neg other.1, if_neg other.2.1, if_neg other.2.2.1, if_neg other.2.2.2, if_pos digit]
      exact taken?_numbered yields

end Draft

mutual
/-- Every double in a value is read back from its text. -/
def Faithful : Json → Prop
  | .number value => value.IsFaithful
  | .array items => FaithfulItems items
  | .object members => FaithfulMembers members
  | _ => True
termination_by structural value => value

def FaithfulItems : List Json → Prop
  | [] => True
  | item :: rest => Faithful item ∧ FaithfulItems rest
termination_by structural items => items

def FaithfulMembers : List (String × Json) → Prop
  | [] => True
  | (_, value) :: rest => Faithful value ∧ FaithfulMembers rest
termination_by structural members => members
end

mutual
def Faithful.decidable : (value : Json) → Decidable value.Faithful
  | .null => isTrue trivial
  | .bool _ => isTrue trivial
  | .number value => inferInstanceAs (Decidable value.IsFaithful)
  | .string _ => isTrue trivial
  | .array items => FaithfulItems.decidable items
  | .object members => FaithfulMembers.decidable members
termination_by structural value => value

def FaithfulItems.decidable : (items : List Json) → Decidable (FaithfulItems items)
  | [] => isTrue trivial
  | item :: rest =>
    @instDecidableAnd _ _ (Faithful.decidable item) (FaithfulItems.decidable rest)
termination_by structural items => items

def FaithfulMembers.decidable : (members : List (String × Json)) → Decidable (FaithfulMembers members)
  | [] => isTrue trivial
  | (_, value) :: rest =>
    @instDecidableAnd _ _ (Faithful.decidable value) (FaithfulMembers.decidable rest)
termination_by structural members => members
end

instance (value : Json) : Decidable value.Faithful :=
  Faithful.decidable value

theorem chars_opens {value : Json} (faithful : value.Faithful) :
    ∃ c rest, value.chars = c :: rest ∧ Draft.Opens c := by
  cases value with
  | null => exact ⟨_, _, rfl, by decide⟩
  | bool value => cases value <;> exact ⟨_, _, rfl, by decide⟩
  | number number =>
    obtain ⟨literal, read, _⟩ := Number.IsFaithful.literal faithful
    exact Draft.literal?_head read
  | string text => exact ⟨_, _, rfl, by decide⟩
  | array items => exact ⟨_, _, rfl, by decide⟩
  | object members => exact ⟨_, _, rfl, by decide⟩

mutual
theorem shown_draft (value : Json) (faithful : value.Faithful) : value.Shown value.draft := by
  cases value with
  | null | bool _ | string _ => rfl
  | number number =>
    obtain ⟨literal, read, same⟩ := Number.IsFaithful.literal faithful
    exact ⟨literal, by rw [draft, read]; rfl, same⟩
  | array items => exact ⟨_, rfl, shown_draftItems items faithful⟩
  | object members => exact ⟨_, _, rfl, .refl _, shown_draftMembers members faithful⟩
termination_by structural value

theorem shown_draftItems (items : List Json) (faithful : FaithfulItems items) :
    ShownItems items (draftItems items) := by
  cases items with
  | nil => rfl
  | cons item rest =>
    exact ⟨_, _, rfl, shown_draft item faithful.1, shown_draftItems rest faithful.2⟩
termination_by structural items

theorem shown_draftMembers (members : List (String × Json)) (faithful : FaithfulMembers members) :
    ShownMembers members (draftMembers members) := by
  cases members with
  | nil => rfl
  | cons member rest =>
    exact ⟨_, _, rfl, shown_draft member.2 faithful.1, shown_draftMembers rest faithful.2⟩
termination_by structural members
end

namespace Draft

mutual
theorem readValue_chars (value : Json) (faithful : value.Faithful) {rest : List Char}
    (closes : Closes rest) :
    (readValue (value.chars ++ rest)).taken? = some (value.draft, rest) := by
  cases value with
  | null => exact (readValue_word rest).1
  | bool value =>
    cases value with
    | true => exact (readValue_word rest).2.1
    | false => exact (readValue_word rest).2.2
  | number number =>
    obtain ⟨literal, read, _⟩ := Number.IsFaithful.literal faithful
    rw [draft, read]
    exact readValue_literal read closes
  | string text => exact readValue_quote text rest
  | array items => exact readValue_array (readItems_chars items faithful rest).1
  | object members => exact readValue_object (readMembers_chars members faithful rest).1
termination_by structural value

theorem readItems_chars (items : List Json) (faithful : FaithfulItems items) (rest : List Char) :
    (readItems true (itemChars items ++ rest)).taken? = some (draftItems items, rest) ∧
      (readItems false ((if items.isEmpty then [']'] else ',' :: itemChars items) ++ rest)).taken? =
        some (draftItems items, rest) := by
  cases items with
  | nil => exact ⟨readItems_close true rest, readItems_close false rest⟩
  | cons item more =>
    have read := (readItems_chars more faithful.2 rest).2
    have closes : Closes ((if more.isEmpty then [']'] else ',' :: itemChars more) ++ rest) := by
      split
      · exact Or.inr (Or.inl rfl)
      · exact Or.inl rfl
    have value := readValue_chars item faithful.1 closes
    obtain ⟨c, tail, shape, opens⟩ := chars_opens faithful.1
    change (readItems true (itemChars (item :: more) ++ rest)).taken? = _ ∧
      (readItems false (',' :: (itemChars (item :: more) ++ rest))).taken? = _
    rw [itemChars, List.append_assoc]
    rw [shape] at value ⊢
    exact ⟨readItems_first opens value read, readItems_next opens value read⟩
termination_by structural items

theorem readMembers_chars (members : List (String × Json)) (faithful : FaithfulMembers members)
    (rest : List Char) :
    (readMembers true (memberChars members ++ rest)).taken? = some (draftMembers members, rest) ∧
      (readMembers false ((if members.isEmpty then ['\x7d'] else ',' :: memberChars members) ++
        rest)).taken? = some (draftMembers members, rest) := by
  cases members with
  | nil => exact ⟨readMembers_close true rest, readMembers_close false rest⟩
  | cons member more =>
    have read := (readMembers_chars more faithful.2 rest).2
    obtain ⟨key, value⟩ := member
    have closes :
        Closes ((if more.isEmpty then ['\x7d'] else ',' :: memberChars more) ++ rest) := by
      split
      · exact Or.inr (Or.inr rfl)
      · exact Or.inl rfl
    have member := readMember_quote key (readValue_chars value faithful.1 closes) read
    change (readMembers true (memberChars ((key, value) :: more) ++ rest)).taken? = _ ∧
      (readMembers false (',' :: (memberChars ((key, value) :: more) ++ rest))).taken? = _
    have shape : memberChars ((key, value) :: more) ++ rest = quote key ++ ':' :: (value.chars ++
        ((if more.isEmpty then ['\x7d'] else ',' :: memberChars more) ++ rest)) := by
      rw [memberChars]
      simp
    rw [shape, quote_append] at *
    exact ⟨(readMembers_first _).trans member, (readMembers_next _).trans member⟩
termination_by structural members
end

theorem ofText_eq {text : String} {draft : Draft}
    (read : (readValue text.toList).taken? = some (draft, [])) : ofText text = ⟨draft, none⟩ := by
  rw [ofText]
  cases found : readValue text.toList with
  | stopped _ =>
    rw [found] at read
    cases read
  | read _ _ =>
    rw [found] at read
    obtain ⟨rfl, empty⟩ := Prod.mk.inj (Option.some.inj read)
    simp only [empty]
    rfl

/-- The text of a value is read as the draft of it. -/
theorem ofText_render {value : Json} (faithful : value.Faithful) :
    ofText value.render = ⟨value.draft, none⟩ := by
  have read := @readValue_chars value faithful [] trivial
  refine ofText_eq ?_
  rwa [render, String.toList_ofList, ← List.append_nil value.chars]

end Draft

theorem shownMembers_iff {members : List (String × Json)} {drafts : List (StringDraft × Draft)} :
    ShownMembers members drafts ↔
      List.Forall₂ (fun member draft => draft.1 = .ok member.1 ∧ member.2.Shown draft.2) members
        drafts := by
  induction members generalizing drafts with
  | nil => exact List.forall₂_nil_left_iff.symm
  | cons member rest ih =>
    obtain ⟨key, value⟩ := member
    constructor
    · rintro ⟨draft, others, rfl, here, later⟩
      exact .cons ⟨rfl, here⟩ (ih.mp later)
    · intro each
      obtain ⟨draft, others, ⟨named, here⟩, later, rfl⟩ := List.forall₂_cons_left_iff.mp each
      obtain ⟨name, node⟩ := draft
      cases named
      exact ⟨node, others, rfl, here, ih.mpr later⟩

/-- Whatever order the members of an object are drafted in, they are shown in that order. -/
theorem ShownMembers.reordered {members : List (String × Json)}
    {drafts ordered : List (StringDraft × Draft)} (shown : ShownMembers members ordered)
    (same : ordered.Perm drafts) : ∃ written, written.Perm members ∧ ShownMembers written drafts := by
  obtain ⟨written, shown, same⟩ := List.perm_comp_forall₂ same.symm (shownMembers_iff.mp shown).flip
  exact ⟨written, same, shownMembers_iff.mpr shown.flip⟩

mutual
/-- A value with the members of its objects in an order of its own stands for another value. -/
def Reorders : Json → Json → Prop
  | .array items, value => ∃ others, value = .array others ∧ ReordersItems items others
  | .object members, value => ∃ others ordered, value = .object others ∧ ordered.Perm others ∧
      ReordersMembers members ordered
  | plain, value => value = plain
termination_by structural document => document

def ReordersItems : List Json → List Json → Prop
  | [], others => others = []
  | item :: rest, others =>
    ∃ other later, others = other :: later ∧ Reorders item other ∧ ReordersItems rest later
termination_by structural items => items

def ReordersMembers : List (String × Json) → List (String × Json) → Prop
  | [], others => others = []
  | (key, value) :: rest, others => ∃ other later,
    others = (key, other) :: later ∧ Reorders value other ∧ ReordersMembers rest later
termination_by structural members => members
end

mutual
theorem Reorders.refl (value : Json) : value.Reorders value := by
  cases value with
  | null | bool _ | number _ | string _ => rfl
  | array items => exact ⟨items, rfl, ReordersItems.refl items⟩
  | object members => exact ⟨members, members, rfl, .refl _, ReordersMembers.refl members⟩
termination_by structural value

theorem ReordersItems.refl (items : List Json) : ReordersItems items items := by
  cases items with
  | nil => rfl
  | cons item rest => exact ⟨item, rest, rfl, Reorders.refl item, ReordersItems.refl rest⟩
termination_by structural items

theorem ReordersMembers.refl (members : List (String × Json)) : ReordersMembers members members := by
  cases members with
  | nil => rfl
  | cons member rest =>
    exact ⟨member.2, rest, rfl, Reorders.refl member.2, ReordersMembers.refl rest⟩
termination_by structural members
end

theorem Reorders.of_perm {members others : List (String × Json)} (same : members.Perm others) :
    (Json.object members).Reorders (.object others) :=
  ⟨others, members, rfl, same, ReordersMembers.refl members⟩

mutual
theorem Reorders.shown (document : Json) {value : Json} (reorders : document.Reorders value)
    {draft : Draft} (shown : document.Shown draft) : value.Shown draft := by
  cases document with
  | null | bool _ | number _ | string _ =>
    cases reorders
    exact shown
  | array items =>
    obtain ⟨others, rfl, inner⟩ := reorders
    obtain ⟨drafts, rfl, shown⟩ := shown
    exact ⟨drafts, rfl, ReordersItems.shown items inner shown⟩
  | object members =>
    obtain ⟨others, ordered, rfl, same, inner⟩ := reorders
    obtain ⟨drafts, kept, rfl, moved, shown⟩ := shown
    have each := shownMembers_iff.mp (ReordersMembers.shown members inner shown)
    obtain ⟨there, each, back⟩ := List.perm_comp_forall₂ same.symm each
    exact ⟨drafts, there, rfl, back.trans moved, shownMembers_iff.mpr each⟩
termination_by structural document

theorem ReordersItems.shown (items : List Json) {others : List Json}
    (reorders : ReordersItems items others) {drafts : List Draft} (shown : ShownItems items drafts) :
    ShownItems others drafts := by
  cases items with
  | nil =>
    cases reorders
    exact shown
  | cons item rest =>
    obtain ⟨other, more, rfl, here, later⟩ := reorders
    obtain ⟨draft, nodes, rfl, first, further⟩ := shown
    exact ⟨draft, nodes, rfl, Reorders.shown item here first, ReordersItems.shown rest later further⟩
termination_by structural items

theorem ReordersMembers.shown (members : List (String × Json)) {others : List (String × Json)}
    (reorders : ReordersMembers members others) {drafts : List (StringDraft × Draft)}
    (shown : ShownMembers members drafts) : ShownMembers others drafts := by
  cases members with
  | nil =>
    cases reorders
    exact shown
  | cons member rest =>
    obtain ⟨key, value⟩ := member
    obtain ⟨other, more, rfl, here, later⟩ := reorders
    obtain ⟨draft, nodes, rfl, first, further⟩ := shown
    exact ⟨draft, nodes, rfl, Reorders.shown value here first,
      ReordersMembers.shown rest later further⟩
termination_by structural members
end

end Workflow.Json
