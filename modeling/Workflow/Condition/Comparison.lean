import Workflow.Json.Printer
import Workflow.Text.Blank

/-! Loose comparison of values. Strings that read as numbers count as numbers; integers of up to
128 bits compare exactly and everything else numeric as doubles; what is not numeric compares as
text. -/

namespace Workflow.Json

open Text

def signedInteger? : List Char → Option Int
  | '-' :: digits => (natural? digits).map fun value => -(value : Int)
  | '+' :: digits => (natural? digits).map Int.ofNat
  | digits => (natural? digits).map Int.ofNat

/-- The exact reading of a value as an integer of at most 128 bits. -/
def integer? : Json → Option Int
  | .number (.integer value _) => some value
  | .string text => do
    let value ← signedInteger? (trim text.toList)
    if -0x80000000000000000000000000000000 ≤ value ∧
        value < 0x80000000000000000000000000000000 then some value else none
  | _ => none

/-- The reading of a value as a finite double. -/
def real? : Json → Option Binary64
  | .number value => value.toBinary64?
  | .string text => (Binary64.ofText? (trim text.toList)).join
  | _ => none

/-- The numeric order of two values, where both read as numbers. -/
def order? (left right : Json) : Option Ordering :=
  match left.integer?, right.integer? with
  | some left, some right => some (compare left right)
  | _, _ => do
    let left ← left.real?
    let right ← right.real?
    some (left.order right)

/-- The text of a value for comparison: a string is its own text, and null is empty. -/
def asText : Json → String
  | .string text => text
  | .null => ""
  | value => value.render

/-- Numbers are equal by value, everything else by text. -/
def looselyEqual (left right : Json) : Bool :=
  match left.order? right with
  | some order => order == .eq
  | none => left.asText == right.asText

/-- Whether `value` holds `part`: an array holds the items equal to one of its own, and any other
value the texts within its text. -/
def holds (value part : Json) : Bool :=
  match value with
  | .array items => items.any fun item => item.looselyEqual part
  | value => occursIn part.asText.toList value.asText.toList

end Workflow.Json
