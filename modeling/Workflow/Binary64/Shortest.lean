import Workflow.Binary64.Basic
import Workflow.Text.Digits

/-! The shortest decimal that reads back as a given double, and of the shortest ones the nearest;
an exact tie goes to the even digit. -/

namespace Workflow.Binary64

/-- A decimal `digits * 10 ^ exponent`. -/
structure Decimal where
  digits : Nat
  exponent : Int
deriving DecidableEq, Repr

/-- The reals that round to a double, in units of a quarter of its last place: from `low` to
`high`, ends included when the significand is even. -/
structure Basin where
  low : Nat
  middle : Nat
  high : Nat
  closed : Bool

def basin (x : Binary64) : Basin :=
  let atPowerOfTwo := x.significand = 0x10000000000000 ∧ -1074 < x.exponent
  { low := 4 * x.significand - (if atPowerOfTwo then 1 else 2)
    middle := 4 * x.significand
    high := 4 * x.significand + 2
    closed := x.significand % 2 = 0 }

/-- Both sides of a comparison between `decimal` and the basin's units, as naturals. -/
def Decimal.inQuarters (decimal : Decimal) (binaryExponent : Int) : Nat × Nat :=
  let shift := binaryExponent - 2
  let (upper, lower) :=
    if 0 ≤ decimal.exponent then (decimal.digits * Nat.pow 10 decimal.exponent.toNat, 1)
    else (decimal.digits, Nat.pow 10 (-decimal.exponent).toNat)
  if 0 ≤ shift then (upper, lower * Nat.pow 2 shift.toNat)
  else (upper * Nat.pow 2 (-shift).toNat, lower)

def Decimal.rounds (decimal : Decimal) (x : Binary64) : Bool :=
  let (upper, lower) := decimal.inQuarters x.exponent
  let basin := x.basin
  if basin.closed then basin.low * lower ≤ upper && upper ≤ basin.high * lower
  else basin.low * lower < upper && upper < basin.high * lower

/-- The distance of a decimal from a double, as a numerator over the denominator of the grid. -/
def Decimal.distance (decimal : Decimal) (x : Binary64) : Nat :=
  let (upper, lower) := decimal.inQuarters x.exponent
  let middle := x.basin.middle * lower
  if upper ≤ middle then middle - upper else upper - middle

/-- The two decimals beside a double on the grid of multiples of `10 ^ exponent`. -/
def neighbours (x : Binary64) (exponent : Int) : Decimal × Decimal :=
  let (upper, lower) := x.ratio
  let (upper, lower) :=
    if 0 ≤ exponent then (upper, lower * Nat.pow 10 exponent.toNat)
    else (upper * Nat.pow 10 (-exponent).toNat, lower)
  (⟨upper / lower, exponent⟩, ⟨upper / lower + 1, exponent⟩)

def onGrid? (x : Binary64) (exponent : Int) : Option Decimal :=
  let (below, above) := x.neighbours exponent
  match below.rounds x, above.rounds x with
  | false, false => none
  | true, false => some below
  | false, true => some above
  | true, true =>
    let low := below.distance x
    let high := above.distance x
    if low < high ∨ (low = high ∧ below.digits % 2 = 0) then some below else some above

/-- The number of decimal digits before the point, zero or negative below one tenth. -/
def leadingPlace (x : Binary64) : Int :=
  let (upper, lower) := x.ratio
  if lower ≤ upper then
    (Nat.toDigits 10 (upper / lower)).length
  else
    1 - (Nat.toDigits 10 ((lower - 1) / upper)).length

def Decimal.strip : Nat → Decimal → Decimal
  | 0, decimal => decimal
  | fuel + 1, decimal =>
    if decimal.digits ≠ 0 ∧ decimal.digits % 10 = 0 then
      Decimal.strip fuel ⟨decimal.digits / 10, decimal.exponent + 1⟩
    else
      decimal

/-- Tries grids of one, two and more digits; seventeen always suffice. -/
def shortest (x : Binary64) : Decimal :=
  if x.significand = 0 then
    ⟨0, 0⟩
  else
    let place := x.leadingPlace
    let found := (List.range 17).findSome? fun (count : Nat) => x.onGrid? (place - 1 - count)
    Decimal.strip 20 (found.getD (x.neighbours (place - 17)).1)

end Workflow.Binary64
