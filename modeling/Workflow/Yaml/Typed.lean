import Workflow.Document.Problem
import Workflow.Yaml.Scalar

/-! The types of scalars. A plain scalar has the type that its text looks like, a tag of the core
schema asks for one type, and every other scalar is text. -/

namespace Workflow.Yaml

open Text

inductive Typed where
  | null
  | boolean (value : Bool)
  | integer (value : Int)
  | real (value : Binary64)
  | infinite (negative : Bool)
  | notANumber
  | text (value : String)
deriving DecidableEq, Repr

def isNull (text : String) : Bool :=
  text ∈ ["null", "Null", "NULL", "~"]

def boolean? (text : String) : Option Bool :=
  if text ∈ ["true", "True", "TRUE"] then some true
  else if text ∈ ["false", "False", "FALSE"] then some false
  else none

def digitOf? (base : Nat) (c : Char) : Option Nat :=
  (hexDigit? c).filter (· < base)

/-- Reads a text of digits of a base and nothing else. -/
def naturalIn? (base : Nat) (chars : List Char) : Option Nat :=
  if chars.isEmpty then none else (chars.mapM (digitOf? base)).map (ofDigits base)

/-- Reads digits behind the mark of their base, or decimal ones without a leading zero. -/
def magnitude? : List Char → Option Nat
  | '0' :: 'x' :: digits => naturalIn? 16 digits
  | '0' :: 'o' :: digits => naturalIn? 8 digits
  | '0' :: 'b' :: digits => naturalIn? 2 digits
  | '0' :: _ :: _ => none
  | digits => naturalIn? 10 digits

def unsigned? : List Char → Option Nat
  | '+' :: chars => magnitude? chars
  | chars => magnitude? chars

def integer? (chars : List Char) : Option Int := do
  let value ← match chars with
    | '-' :: rest => (magnitude? rest).map fun value => -(value : Int)
    | chars => (unsigned? chars).map Int.ofNat
  if -0x80000000000000000000000000000000 ≤ value ∧
      value < 0x100000000000000000000000000000000 then some value else none

def word? (chars : List Char) : Option Nat :=
  (unsigned? chars).filter (· < 0x10000000000000000)

def isSign (c : Char) : Bool :=
  c = '+' || c = '-'

/-- The text after a plus that no second sign follows. -/
def unsignedPart? : List Char → Option (List Char)
  | '+' :: rest => if rest.head?.any isSign then none else some rest
  | chars => some chars

/-- A double by its digits or by the name of an infinity or of no number. -/
def double? (text : String) : Option Typed := do
  let chars ← unsignedPart? text.toList
  if String.ofList chars ∈ [".inf", ".Inf", ".INF"] then some (.infinite false)
  else if text ∈ ["-.inf", "-.Inf", "-.INF"] then some (.infinite true)
  else if text ∈ [".nan", ".NaN", ".NAN"] then some .notANumber
  else (Binary64.ofText? chars).join.map .real

/-- Digits with a needless zero in front, which make no number. -/
def hasLeadingZero (chars : List Char) : Bool :=
  let digits := if chars.head?.any isSign then chars.drop 1 else chars
  1 < digits.length && digits.head? == some '0' && digits.all Char.isDigit

namespace Typed

def ofPlain (text : String) : Typed :=
  if text.isEmpty ∨ isNull text then .null
  else
    match boolean? text, integer? text.toList with
    | some value, _ => .boolean value
    | none, some value => .integer value
    | none, none =>
      if hasLeadingZero text.toList then .text text else (double? text).getD (.text text)

def coreTag (name : String) : String :=
  "tag:yaml.org,2002:" ++ name

/-- The value of a scalar, or what its tag asked for in vain. -/
def ofScalar (tag : Option String) (text : String) (style : Style) : Except String Typed :=
  if tag = some (coreTag "bool") then
    ((boolean? text).map .boolean).elim (.error "a boolean") .ok
  else if tag = some (coreTag "int") then
    ((integer? text.toList).map .integer).elim (.error "an integer") .ok
  else if tag = some (coreTag "float") then
    (double? text).elim (.error "a float") .ok
  else if tag = some (coreTag "null") then
    if isNull text then .ok .null else .error "null"
  else if style = .plain ∧ tag.all (·.startsWith "!") then .ok (ofPlain text)
  else .ok (.text text)

open Document in
def found : Typed → Found
  | null => .unit
  | boolean value => .boolean value
  | integer value =>
    if Json.InRange value then .integer value else .wideInteger value
  | real value => .longReal value
  | infinite negative => .notFinite (if negative then "-inf" else "inf")
  | notANumber => .notFinite "NaN"
  | text value => .string value

end Typed

end Workflow.Yaml
