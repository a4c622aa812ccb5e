import Workflow.Binary64.Shortest

/-! The text of a double: the shortest digits that read back, positional from `0.00001` up to
sixteen digits before the point, else scientific with a sign. Reading takes any decimal literal
with optional sign, point and exponent, or a name of infinity or of no number. -/

namespace Workflow.Binary64

open Workflow.Text

def zeros (count : Nat) : List Char :=
  List.replicate count '0'

/-- Digits with the point after the first `place` of them. -/
def positional (digits : List Char) (place : Int) : List Char :=
  if place ≤ 0 then
    '0' :: '.' :: zeros (-place).toNat ++ digits
  else
    let whole := place.toNat
    if digits.length ≤ whole then
      digits ++ zeros (whole - digits.length) ++ ['.', '0']
    else
      digits.take whole ++ '.' :: digits.drop whole

def scientific (digits : List Char) (exponent : Int) : List Char :=
  let mantissa :=
    match digits with
    | [] => []
    | [digit] => [digit]
    | digit :: rest => digit :: '.' :: rest
  let sign := if exponent < 0 then '-' else '+'
  mantissa ++ 'e' :: sign :: decimal exponent.natAbs

def chars (x : Binary64) : List Char :=
  let shortest := x.shortest
  let digits := decimal shortest.digits
  let exponent := shortest.exponent + digits.length - 1
  let magnitude :=
    if x.significand = 0 then ['0', '.', '0']
    else if -5 ≤ exponent ∧ exponent ≤ 15 then positional digits (exponent + 1)
    else scientific digits exponent
  if x.negative then '-' :: magnitude else magnitude

/-- A signed power of ten: the part of a literal after its exponent mark. -/
def power? : List Char → Option Int
  | '-' :: digits => (natural? digits).map fun value => -(value : Int)
  | '+' :: digits => (natural? digits).map Int.ofNat
  | digits => (natural? digits).map Int.ofNat

/-- Reads an unsigned literal: digits with an optional point among, before or after them, and an
optional exponent. -/
def magnitude? (negative : Bool) (chars : List Char) : Option (Option Binary64) := do
  let whole := chars.takeWhile Char.isDigit
  let rest := chars.dropWhile Char.isDigit
  let (fraction, rest) :=
    match rest with
    | '.' :: rest => (rest.takeWhile Char.isDigit, rest.dropWhile Char.isDigit)
    | rest => ([], rest)
  let digits ← natural? (whole ++ fraction)
  let power ←
    match rest with
    | [] => some 0
    | mark :: rest => if mark = 'e' ∨ mark = 'E' then power? rest else none
  some (ofDecimal negative digits (power - fraction.length))

/-- Reads a whole text as a number. The outer `none` is for a text that is no literal, the inner
one for a number that is not finite. -/
def ofText? (chars : List Char) : Option (Option Binary64) :=
  let (negative, body) :=
    match chars with
    | '-' :: body => (true, body)
    | '+' :: body => (false, body)
    | body => (false, body)
  if String.ofList (body.map Char.toLower) ∈ ["inf", "infinity", "nan"] then some none
  else magnitude? negative body

end Workflow.Binary64
