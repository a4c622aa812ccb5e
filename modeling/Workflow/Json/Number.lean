import Workflow.Binary64.Text

/-! Numbers of a document: integers that fit 64 bits, signed or unsigned, and doubles. A literal
with a point or an exponent, a negative zero and an integer of more than 64 bits are doubles. -/

namespace Workflow.Json

open Workflow.Text

/-- The integers kept exactly: those of a signed or an unsigned 64-bit word. -/
def InRange (value : Int) : Prop :=
  -0x8000000000000000 ≤ value ∧ value < 0x10000000000000000

instance (value : Int) : Decidable (InRange value) := by
  unfold InRange
  infer_instance

inductive Number where
  | integer (value : Int) (inRange : InRange value)
  | real (value : Binary64)
deriving DecidableEq, Repr

namespace Number

def ofInt? (value : Int) : Option Number :=
  if inRange : InRange value then some (.integer value inRange) else none

def zero : Number :=
  .integer 0 (by decide)

instance : Inhabited Number := ⟨zero⟩

/-- The value as a double, rounded where the integer has more than 53 binary digits. -/
def toBinary64? : Number → Option Binary64
  | .integer value _ => Binary64.ofInt value
  | .real value => some value

def intChars (value : Int) : List Char :=
  if value < 0 then '-' :: decimal value.natAbs else decimal value.natAbs

def chars : Number → List Char
  | .integer value _ => intChars value
  | .real value => value.chars

/-- A number as it is written: sign, digits before and after the point, power of ten. The
fraction and the power are absent when their marks are. -/
structure Literal where
  negative : Bool
  whole : List Nat
  fraction : Option (List Nat)
  power : Option Int
deriving DecidableEq, Repr

/-- Reads digits into a 64-bit word for as long as they fit; the word and the digits left. -/
def fill (word : Nat) : List Nat → Nat × List Nat
  | [] => (word, [])
  | digit :: rest =>
    if word * 10 + digit < 0x10000000000000000 then fill (word * 10 + digit) rest
    else (word, digit :: rest)

/-- The double nearest to a power of ten. -/
def powerOfTen (exponent : Nat) : Option Binary64 :=
  Binary64.ofDecimal false 1 exponent

/-- Scales by a power of ten in steps of at most 308 places, each step rounded. -/
def scale : Nat → Binary64 → Int → Option Binary64
  | 0, value, _ => some value
  | steps + 1, value, exponent =>
    if exponent.natAbs ≤ 308 then do
      let power ← powerOfTen exponent.natAbs
      if 0 ≤ exponent then value.mul power else value.div power
    else if value.isZero then some value
    else if 0 ≤ exponent then none
    else do
      let power ← powerOfTen 308
      scale steps (← value.div power) (exponent + 308)

/-- The double a literal stands for: its digits, as far as they fit a 64-bit word, rounded to a
double and then scaled by the power of ten. `none` when that is too large. -/
def Literal.real? (literal : Literal) : Option Number := do
  let (word, dropped) := fill 0 literal.whole
  let (word, placed) :=
    match literal.fraction with
    | none => (word, 0)
    | some fraction =>
      let (filled, left) := fill word fraction
      (filled, fraction.length - left.length)
  let exponent := (dropped.length : Int) - placed + literal.power.getD 0
  let value ← Binary64.ofRatio false word 1
  let scaled ← scale 8 value exponent
  some (.real { scaled with negative := literal.negative })

/-- The number a literal stands for, or `none` when it is too large for a double. -/
def Literal.number? (literal : Literal) : Option Number :=
  match literal.fraction, literal.power with
  | none, none =>
    let magnitude : Int := ofDigits 10 literal.whole
    let value := if literal.negative then -magnitude else magnitude
    if literal.negative ∧ value = 0 then some (.real (Binary64.zero true))
    else (ofInt? value).orElse fun _ => literal.real?
  | _, _ => literal.real?

end Number

end Workflow.Json
