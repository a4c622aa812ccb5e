/-! Finite double-precision numbers as exact values: a sign, a significand and a power of two.
Rounding goes to the nearest representable number, an exact half to the even one, and fails only
when the result is too large to be finite. -/

namespace Workflow

/-- The significands and powers of two of finite doubles, one pair for each magnitude. -/
def Binary64.Canonical (significand : Nat) (exponent : Int) : Prop :=
  (significand < 0x10000000000000 ∧ exponent = -1074) ∨
    (0x10000000000000 ≤ significand ∧ significand < 0x20000000000000 ∧ -1074 ≤ exponent ∧
      exponent ≤ 971)

instance (significand : Nat) (exponent : Int) :
    Decidable (Binary64.Canonical significand exponent) := by
  unfold Binary64.Canonical
  infer_instance

/-- The number `significand * 2 ^ exponent` with a sign; zero has both signs. -/
structure Binary64 where
  negative : Bool
  significand : Nat
  exponent : Int
  canonical : Binary64.Canonical significand exponent
deriving DecidableEq, Repr

namespace Binary64

def zero (negative : Bool) : Binary64 :=
  ⟨negative, 0, -1074, Or.inl (by decide)⟩

instance : Inhabited Binary64 := ⟨zero false⟩

/-- `numerator / denominator / 2 ^ exponent` as a fraction of naturals. -/
def scaled (numerator denominator : Nat) (exponent : Int) : Nat × Nat :=
  if 0 ≤ exponent then (numerator, denominator * Nat.pow 2 exponent.toNat)
  else (numerator * Nat.pow 2 (-exponent).toNat, denominator)

/-- The power of two that leaves a positive fraction with 53 binary digits before the point, or
the least one there is. -/
def fittingExponent (numerator denominator : Nat) : Int :=
  let low := (numerator.log2 : Int) - denominator.log2 - 53
  let (upper, lower) := scaled numerator denominator low
  max (if 0x20000000000000 ≤ upper / lower then low + 1 else low) (-1074)

/-- The nearest natural to a fraction, the even one of two. -/
def roundHalfEven (numerator denominator : Nat) : Nat :=
  let quotient := numerator / denominator
  let remainder := numerator % denominator
  if denominator < 2 * remainder ∨ (denominator = 2 * remainder ∧ quotient % 2 = 1) then
    quotient + 1
  else
    quotient

/-- The double nearest to a fraction, unless it would be infinite. -/
def ofRatio (negative : Bool) (numerator denominator : Nat) : Option Binary64 :=
  if numerator = 0 then
    some (zero negative)
  else
    let exponent := fittingExponent numerator denominator
    let (upper, lower) := scaled numerator denominator exponent
    let rounded := roundHalfEven upper lower
    let (significand, exponent) :=
      if rounded = 0x20000000000000 then (0x10000000000000, exponent + 1) else (rounded, exponent)
    if canonical : Canonical significand exponent then
      some ⟨negative, significand, exponent, canonical⟩
    else
      none

/-- The double nearest to `digits * 10 ^ exponent`. Far outside the range of doubles the answer
is known without computing the power. -/
def ofDecimal (negative : Bool) (digits : Nat) (exponent : Int) : Option Binary64 :=
  let magnitude := exponent + (Nat.toDigits 10 digits).length
  if digits = 0 then some (zero negative)
  else if 310 < magnitude then none
  else if magnitude < -330 then some (zero negative)
  else if 0 ≤ exponent then ofRatio negative (digits * Nat.pow 10 exponent.toNat) 1
  else ofRatio negative digits (Nat.pow 10 (-exponent).toNat)

def ofInt (value : Int) : Option Binary64 :=
  ofRatio (value < 0) value.natAbs 1

def ratio (x : Binary64) : Nat × Nat :=
  if 0 ≤ x.exponent then (x.significand * Nat.pow 2 x.exponent.toNat, 1)
  else (x.significand, Nat.pow 2 (-x.exponent).toNat)

/-- The value in units of the least positive double. -/
def units (x : Binary64) : Int :=
  let magnitude : Int := x.significand * Nat.pow 2 (x.exponent + 1074).toNat
  if x.negative then -magnitude else magnitude

/-- Order by value: the two zeros are equal. -/
def order (x y : Binary64) : Ordering :=
  compare x.units y.units

def isZero (x : Binary64) : Bool :=
  x.significand == 0

def mul (x y : Binary64) : Option Binary64 :=
  ofRatio (x.negative != y.negative) (x.ratio.1 * y.ratio.1) (x.ratio.2 * y.ratio.2)

/-- Division by a number other than zero. -/
def div (x y : Binary64) : Option Binary64 :=
  ofRatio (x.negative != y.negative) (x.ratio.1 * y.ratio.2) (x.ratio.2 * y.ratio.1)

end Binary64

end Workflow
