import Workflow.Condition.Evaluation
import Workflow.Proofs.Rounding

/-! Which comparisons of a field with a value hold. Two values have a numeric order exactly if both
read as numbers, and then one comparison holds, the one that the order names; without an order only
equality can hold. A missing field takes the zero of each comparison, so the zeros of an equality and
of an order with a numeric text differ: there the equality is false. -/

namespace Workflow

namespace Json

open Text

/-- The values that read as numbers: numbers, and texts that are finite numbers between blanks. -/
def Numeric : Json → Prop
  | .number _ => True
  | .string text => ∃ number, Binary64.ofText? (trim text.toList) = some (some number)
  | _ => False

theorem numeric_iff {value : Json} : value.Numeric ↔ value.real?.isSome = true := by
  cases value with
  | number value =>
    refine iff_of_true trivial ?_
    cases value with
    | integer value inRange =>
      have small : value.natAbs < 2 ^ 65 := by
        unfold InRange at inRange
        omega
      exact Binary64.ofRatio_isSome _ small (by decide)
    | real value => rfl
  | string text => simp [Numeric, real?, Option.isSome_iff_exists, Option.join_eq_some_iff]
  | null | bool | array | object => simp [Numeric, real?]

instance (value : Json) : Decidable value.Numeric :=
  decidable_of_iff _ numeric_iff.symm

theorem numeric_of_integer? {value : Json} {exact : Int} (read : value.integer? = some exact) :
    value.Numeric := by
  obtain ⟨x, real, -⟩ := real?_of_integer? read
  exact numeric_iff.mpr (Option.isSome_iff_exists.mpr ⟨x, real⟩)

theorem order?_isSome_iff {left right : Json} :
    (left.order? right).isSome = true ↔ left.Numeric ∧ right.Numeric := by
  unfold order?
  split
  next _ _ leftExact rightExact =>
    exact iff_of_true rfl ⟨numeric_of_integer? leftExact, numeric_of_integer? rightExact⟩
  next =>
    rw [numeric_iff, numeric_iff]
    cases left.real? <;> cases right.real? <;> simp

theorem exists_order {left right : Json} (numbers : left.Numeric ∧ right.Numeric) :
    ∃ order, left.order? right = some order :=
  Option.isSome_iff_exists.mp (order?_isSome_iff.mpr numbers)

theorem order?_eq_none {left right : Json} (apart : ¬ (left.Numeric ∧ right.Numeric)) :
    left.order? right = none :=
  Option.not_isSome_iff_eq_none.mp (mt order?_isSome_iff.mp apart)

theorem empty_not_looselyEqual {text : String} (numeric : (string text).Numeric) :
    (string "").looselyEqual (string text) = false := by
  have none : ¬ (string "").Numeric := by
    rintro ⟨_, read⟩
    cases read
  rw [looselyEqual, order?_eq_none fun numbers => none numbers.1]
  exact beq_eq_false_iff_ne.mpr fun same => none ((show "" = text from same) ▸ numeric)

end Json

def Operator.ofOrder : Ordering → Operator
  | .lt => .lessThan
  | .eq => .equals
  | .gt => .greaterThan

namespace Condition

section

variable {field : String} {value : Json} {data : Json.Members}

/-- The comparisons of a field with a value that hold, of those that exclude each other. -/
def relations (field : String) (value : Json) (data : Json.Members) : List Operator :=
  [Operator.lessThan, .equals, .greaterThan].filter fun op => holds ⟨field, op, value⟩ data

theorem actual_of_present {actual : Json} (present : Json.Members.value? field data = some actual)
    (some : actual ≠ .null) (op : Operator) :
    (⟨field, op, value⟩ : Condition).actual data = actual := by
  unfold Condition.actual
  simp only [present]

theorem missing_or_present (field : String) (data : Json.Members) :
    (Json.Members.value? field data = none ∨ Json.Members.value? field data = some .null) ∨
      ∃ actual, Json.Members.value? field data = some actual ∧ actual ≠ .null := by
  cases Json.Members.value? field data with
  | none => exact Or.inl (Or.inl rfl)
  | some actual =>
    cases actual with
    | null => exact Or.inl (Or.inr rfl)
    | bool | number | string | array | object => exact Or.inr ⟨_, rfl, nofun⟩

theorem actual_of_missing (missing : Json.Members.value? field data = none ∨
    Json.Members.value? field data = some .null) (op : Operator) :
    (⟨field, op, value⟩ : Condition).actual data = zero op value := by
  unfold Condition.actual
  obtain missing | missing := missing <;> simp only [missing]

/-- In a numeric order exactly the comparison holds that the order names. -/
theorem relations_of_ordered {actual : Json} {order : Ordering}
    (alike : ∀ op, (⟨field, op, value⟩ : Condition).actual data = actual)
    (read : actual.order? value = some order) :
    relations field value data = [Operator.ofOrder order] := by
  cases order with
  | lt => simp [relations, holds, alike, Json.looselyEqual, read, Operator.ofOrder]
  | eq => simp [relations, holds, alike, Json.looselyEqual, read, Operator.ofOrder]
  | gt => simp [relations, holds, alike, Json.looselyEqual, read, Operator.ofOrder]

theorem unordered_holds {actual : Json}
    (alike : ∀ op, (⟨field, op, value⟩ : Condition).actual data = actual)
    (read : actual.order? value = none) :
    holds ⟨field, .lessThan, value⟩ data = false ∧
      holds ⟨field, .greaterThan, value⟩ data = false := by
  simp [holds, alike, read]

theorem relations_of_alike {actual : Json}
    (alike : ∀ op, (⟨field, op, value⟩ : Condition).actual data = actual) :
    (relations field value data).length ≤ 1 := by
  cases read : actual.order? value with
  | some order =>
    rw [relations_of_ordered alike read]
    exact Nat.le_refl 1
  | none =>
    obtain ⟨less, greater⟩ := unordered_holds alike read
    simp only [relations, List.filter_cons, List.filter_nil, less, greater, Bool.false_eq_true,
      if_false]
    split <;> decide

/-- A missing field has one zero for all comparisons, unless it is compared with a numeric text. -/
theorem zero_alike (text : ∀ text, value = .string text → ¬ value.Numeric) (op : Operator) :
    zero op value = zero .equals value := by
  cases value with
  | string => simp [zero, Option.not_isSome_iff_eq_none.mp (mt Json.numeric_iff.mpr (text _ rfl))]
  | null | bool | number | array | object => rfl

/-- Against a numeric text a missing field is the number zero where they are ordered and the empty
text where they are equated, and the empty text is no numeric one. -/
theorem relations_of_numeric_text {text : String} (numeric : (Json.string text).Numeric)
    (missing : ∀ op, (⟨field, op, .string text⟩ : Condition).actual data = zero op (.string text)) :
    (relations field (.string text) data).length ≤ 1 := by
  have real := Json.numeric_iff.mp numeric
  have zeroNumeric : (Json.number Json.Number.zero).Numeric := trivial
  obtain ⟨order, read⟩ := Json.exists_order ⟨zeroNumeric, numeric⟩
  have equal : holds ⟨field, .equals, .string text⟩ data = false := by
    simp [holds, missing, zero, Json.empty_not_looselyEqual numeric]
  have less : holds ⟨field, .lessThan, .string text⟩ data = (order == .lt) := by
    simp [holds, missing, zero, real, read]
  have greater : holds ⟨field, .greaterThan, .string text⟩ data = (order == .gt) := by
    simp [holds, missing, zero, real, read]
  cases order <;> simp [relations, equal, less, greater]

theorem relations_length_le (field : String) (value : Json) (data : Json.Members) :
    (relations field value data).length ≤ 1 := by
  obtain missing | ⟨actual, present, some⟩ := missing_or_present field data
  · have missing (op : Operator) :
        (⟨field, op, value⟩ : Condition).actual data = zero op value :=
      actual_of_missing missing op
    -- Only a numeric text has two zeros, one for its order and one for its equality.
    by_cases text : ∀ text, value = .string text → ¬ value.Numeric
    · exact relations_of_alike fun op => (missing op).trans (zero_alike text op)
    · simp only [not_forall, not_not] at text
      obtain ⟨text, rfl, numeric⟩ := text
      exact relations_of_numeric_text numeric missing
  · exact relations_of_alike fun op => actual_of_present present some op

/-- Equality and inequality are decided on one value of the field. -/
theorem notEquals_holds (field : String) (value : Json) (data : Json.Members) :
    holds ⟨field, .notEquals, value⟩ data = !holds ⟨field, .equals, value⟩ data := by
  have zeros : zero .notEquals value = zero .equals value := by cases value <;> rfl
  simp only [holds, Condition.actual, zeros]

end

/-- Equality and inequality are opposites, and of less, equal and greater at most one holds. With a
value in the field, exactly one of them holds if both sides read as numbers, and else the field is
neither less nor greater. -/
theorem comparisons_exclude_each_other (field : String) (value : Json) (data : Json.Members) :
    (holds ⟨field, .equals, value⟩ data = true ↔ holds ⟨field, .notEquals, value⟩ data = false) ∧
      (relations field value data).length ≤ 1 ∧
      ∀ actual, Json.Members.value? field data = some actual → actual ≠ .null →
        (actual.Numeric ∧ value.Numeric → (relations field value data).length = 1) ∧
        (¬ (actual.Numeric ∧ value.Numeric) →
          holds ⟨field, .lessThan, value⟩ data = false ∧
            holds ⟨field, .greaterThan, value⟩ data = false) := by
  refine ⟨by simp [notEquals_holds], relations_length_le field value data, ?_⟩
  intro actual present some
  have alike (op : Operator) : (⟨field, op, value⟩ : Condition).actual data = actual :=
    actual_of_present present some op
  refine ⟨fun numbers => ?_, fun apart => unordered_holds alike (Json.order?_eq_none apart)⟩
  obtain ⟨order, read⟩ := Json.exists_order numbers
  rw [relations_of_ordered alike read, List.length_singleton]

/-- A length whose double is that of the length below it. -/
def oddLength : Json :=
  .number (.integer 9007199254740993 (by decide))

/-- Two lengths of one double are still told apart, as integers. -/
theorem neighbouring_lengths_are_ordered :
    (Json.string " 9007199254740992 ").real? = oddLength.real? ∧
      (Json.string " 9007199254740992 ").Numeric ∧ oddLength.Numeric ∧
      (relations "length" oddLength [("length", .string " 9007199254740992 ")]).length = 1 ∧
      relations "length" oddLength [("length", .string " 9007199254740992 ")] = [.lessThan] := by
  have written : (Json.string " 9007199254740992 ").Numeric := by decide +kernel
  have whole : oddLength.Numeric := trivial
  refine ⟨by decide +kernel, written, whole, ?_, by decide +kernel⟩
  exact ((comparisons_exclude_each_other "length" _ _).2.2 (.string " 9007199254740992 ") rfl
    nofun).1 ⟨written, whole⟩

end Condition

end Workflow
