import Mathlib.Logic.Relation
import Workflow.Proofs.Comparisons

/-! The numeric order of values. Integers are compared with each other as they are and with other
numbers as doubles, so that a number may equal two integers of which one is less. To be less is a
strict order nevertheless: rounding never turns an order around, and where the doubles of two
integers are in order, so are the integers. -/

namespace Workflow.Json

/-- How two numbers compare: as integers if both are, and else as doubles. -/
inductive Compares (left right : Json) (order : Ordering) : Prop where
  | exact {first second : Int} (leftExact : left.integer? = some first)
      (rightExact : right.integer? = some second) (told : compare first second = order)
  | rounded {first second : Binary64} (inexact : left.integer? = none ∨ right.integer? = none)
      (leftReal : left.real? = some first) (rightReal : right.real? = some second)
      (told : compare first.units second.units = order)

def Below (left right : Json) : Prop :=
  left.order? right = some .lt

variable {left middle right : Json}

theorem order?_eq_some_iff {order : Ordering} :
    left.order? right = some order ↔ Compares left right order := by
  unfold order?
  constructor
  · intro read
    split at read
    next first second leftExact rightExact =>
      exact .exact leftExact rightExact (Option.some.inj read)
    next inexact =>
      obtain ⟨first, leftReal, read⟩ := Option.bind_eq_some_iff.mp read
      obtain ⟨second, rightReal, told⟩ := Option.bind_eq_some_iff.mp read
      refine .rounded ?_ leftReal rightReal (Option.some.inj told)
      cases leftExact : left.integer? with
      | none => exact Or.inl rfl
      | some first =>
        cases rightExact : right.integer? with
        | none => exact Or.inr rfl
        | some second => exact (inexact first second leftExact rightExact).elim
  · intro compares
    cases compares with
    | exact leftExact rightExact told => simp only [leftExact, rightExact, told]
    | rounded inexact leftReal rightReal told =>
      split
      next first second leftExact rightExact => simp [leftExact, rightExact] at inexact
      next =>
        simp only [leftReal, rightReal]
        exact congrArg some told

theorem Compares.swap {order : Ordering} (compares : Compares left right order) :
    Compares right left order.swap := by
  cases compares with
  | exact leftExact rightExact told =>
    exact .exact rightExact leftExact (by rw [← told, Int.compare_swap])
  | rounded inexact leftReal rightReal told =>
    exact .rounded inexact.symm rightReal leftReal (by rw [← told, Int.compare_swap])

theorem order?_swap (left right : Json) : right.order? left = (left.order? right).map .swap := by
  cases read : left.order? right with
  | some order => exact order?_eq_some_iff.mpr (order?_eq_some_iff.mp read).swap
  | none =>
    refine order?_eq_none fun numbers => ?_
    obtain ⟨order, ordered⟩ := exists_order numbers.symm
    cases read.symm.trans ordered

theorem Below.exact {first second : Int} (below : left.Below right)
    (leftExact : left.integer? = some first) (rightExact : right.integer? = some second) :
    first < second := by
  have told := order?_eq_some_iff.mpr (.exact leftExact rightExact rfl)
  exact Int.compare_eq_lt.mp (Option.some.inj (told.symm.trans below))

/-- The double of a value that is less is not greater, and it is less unless both are integers. -/
theorem Below.units (below : left.Below right) :
    ∃ first second, left.real? = some first ∧ right.real? = some second ∧
      first.units ≤ second.units ∧
      (left.integer? = none ∨ right.integer? = none → first.units < second.units) := by
  cases order?_eq_some_iff.mp below with
  | exact leftExact rightExact told =>
    obtain ⟨first, leftReal, leftUnits⟩ := real?_of_integer? leftExact
    obtain ⟨second, rightReal, rightUnits⟩ := real?_of_integer? rightExact
    refine ⟨first, second, leftReal, rightReal, ?_, by simp [leftExact, rightExact]⟩
    rw [leftUnits, rightUnits]
    exact Binary64.unitsOf_mono (Int.le_of_lt (Int.compare_eq_lt.mp told))
  | rounded _ leftReal rightReal told =>
    have less := Int.compare_eq_lt.mp told
    exact ⟨_, _, leftReal, rightReal, Int.le_of_lt less, fun _ => less⟩

theorem Below.trans (first : left.Below middle) (second : middle.Below right) :
    left.Below right := by
  obtain ⟨low, between, lowReal, betweenReal, lower, lowerStrict⟩ := first.units
  obtain ⟨_, high, same, highReal, upper, upperStrict⟩ := second.units
  cases betweenReal.symm.trans same
  refine order?_eq_some_iff.mpr ?_
  cases leftExact : left.integer? with
  | none =>
    have less := lowerStrict (Or.inl leftExact)
    exact .rounded (Or.inl leftExact) lowReal highReal (Int.compare_eq_lt.mpr (by omega))
  | some least =>
    cases rightExact : right.integer? with
    | none =>
      have less := upperStrict (Or.inr rightExact)
      exact .rounded (Or.inr rightExact) lowReal highReal (Int.compare_eq_lt.mpr (by omega))
    | some greatest =>
      refine .exact leftExact rightExact (Int.compare_eq_lt.mpr ?_)
      cases middleExact : middle.integer? with
      | some inner =>
        exact Int.lt_trans (first.exact leftExact middleExact) (second.exact middleExact rightExact)
      | none =>
        -- Between two integers a double tells their doubles apart, and so the integers.
        have less : low.units < high.units :=
          Int.lt_trans (lowerStrict (Or.inr middleExact)) (upperStrict (Or.inl middleExact))
        obtain ⟨_, real, lowUnits⟩ := real?_of_integer? leftExact
        cases lowReal.symm.trans real
        obtain ⟨_, real, highUnits⟩ := real?_of_integer? rightExact
        cases highReal.symm.trans real
        rw [lowUnits, highUnits] at less
        refine Int.lt_of_not_ge fun turned => ?_
        exact Int.not_lt.mpr (Binary64.unitsOf_mono turned) less

theorem not_below_self (value : Json) : ¬ value.Below value := by
  intro below
  have turned := order?_swap value value
  rw [show value.order? value = some .lt from below] at turned
  cases turned

theorem Below.of_chain (chain : Relation.TransGen Below left right) : left.Below right := by
  induction chain with
  | single below => exact below
  | tail _ last ih => exact ih.trans last

/-- No chain of lesser values leads back to where it began. -/
theorem not_cycle (value : Json) : ¬ Relation.TransGen Below value value := by
  intro cycle
  exact not_below_self value (Below.of_chain cycle)

/-- What equals the lesser of two values is not above the other. -/
theorem not_below_of_equal (equal : left.order? middle = some .eq) (below : middle.Below right) :
    ¬ right.Below left := by
  intro above
  have turned := order?_swap left middle
  rw [equal, show middle.order? left = some .lt from below.trans above] at turned
  cases turned

theorem looselyEqual_self (value : Json) : value.looselyEqual value = true := by
  have turned := order?_swap value value
  unfold looselyEqual
  cases read : value.order? value with
  | none => exact beq_self_eq_true _
  | some order =>
    rw [read] at turned
    cases order with
    | eq => rfl
    | lt | gt => cases turned

theorem looselyEqual_comm (left right : Json) : left.looselyEqual right = right.looselyEqual left := by
  unfold looselyEqual
  rw [order?_swap left right]
  cases left.order? right with
  | none => exact Bool.beq_comm
  | some order => cases order <;> rfl

/-- Comparing values the other way round turns their order around. To be less is transitive and
leads to no cycle, whatever is compared exactly; what equals the lesser of two values is never above
the other; and every value is equal to itself, and to another one if that is equal to it. -/
theorem comparisons_are_consistent (left middle right : Json) :
    right.order? left = (left.order? right).map .swap ∧
      (left.Below middle → middle.Below right → left.Below right) ∧
      ¬ Relation.TransGen Below left left ∧
      (left.order? middle = some .eq → middle.Below right → ¬ right.Below left) ∧
      left.looselyEqual left = true ∧ left.looselyEqual right = right.looselyEqual left :=
  ⟨order?_swap left right, Below.trans, not_cycle left, not_below_of_equal,
    looselyEqual_self left, looselyEqual_comm left right⟩

/-- A length that is written with a point equals two whole lengths, of which one is less. -/
theorem pointed_lengths_are_consistent :
    (string "9007199254740991.0").Below (string " 9007199254740992 ") ∧
      (string " 9007199254740992 ").Below Condition.oddLength ∧
      (string "9007199254740991.0").Below Condition.oddLength ∧
      (string "9007199254740992.0").order? (string " 9007199254740992 ") = some .eq ∧
      (string "9007199254740992.0").order? Condition.oddLength = some .eq ∧
      ¬ Condition.oddLength.Below (string "9007199254740992.0") := by
  have pointed : (string "9007199254740991.0").order? (string " 9007199254740992 ") = some .lt := by
    decide +kernel
  have whole : (string " 9007199254740992 ").order? Condition.oddLength = some .lt := by
    decide +kernel
  have equal : (string "9007199254740992.0").order? (string " 9007199254740992 ") = some .eq := by
    decide +kernel
  refine ⟨pointed, whole, ?_, equal, by decide +kernel, ?_⟩
  · exact (comparisons_are_consistent _ _ _).2.1 pointed whole
  · exact (comparisons_are_consistent _ _ _).2.2.2.1 equal whole

end Workflow.Json
