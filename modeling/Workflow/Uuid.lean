import Workflow.Text.Digits

/-! Identifiers of 128 bits. They are written with hyphens in lower case and read in either case
with hyphens, as a name of the `urn:uuid:` family, in braces, or as 32 digits alone. -/

namespace Workflow

structure Uuid where
  number : BitVec 128
deriving DecidableEq, Repr, Inhabited

namespace Uuid

open Text

def ofNat (number : Nat) : Uuid :=
  ⟨BitVec.ofNat 128 number⟩

/-- An identifier of random bits, marked as such. -/
def ofRandom (bits : BitVec 128) : Uuid :=
  ⟨bits &&& 0xFFFFFFFFFFFF0FFF3FFFFFFFFFFFFFFF ||| 0x00000000000040008000000000000000⟩

def digits (id : Uuid) : List Char :=
  (List.range 32).map fun place => hexChar (id.number.toNat / Nat.pow 16 (31 - place) % 16)

def chars (id : Uuid) : List Char :=
  let digits := id.digits
  digits.take 8 ++ '-' :: (digits.drop 8).take 4 ++ '-' :: (digits.drop 12).take 4 ++
    '-' :: (digits.drop 16).take 4 ++ '-' :: digits.drop 20

def text (id : Uuid) : String :=
  String.ofList id.chars

def ofDigits? (chars : List Char) : Option Uuid := do
  let digits ← chars.mapM hexDigit?
  if digits.length = 32 then some (ofNat (ofDigits 16 digits)) else none

/-- Takes groups of 8, 4, 4, 4 and 12 characters that hyphens part. -/
def hyphenated? (chars : List Char) : Option Uuid :=
  let (first, rest) := chars.splitAt 8
  let (second, rest) := rest.splitAt 5
  let (third, rest) := rest.splitAt 5
  let (fourth, last) := rest.splitAt 5
  match second, third, fourth, last with
  | '-' :: second, '-' :: third, '-' :: fourth, '-' :: last =>
    ofDigits? (first ++ second ++ third ++ fourth ++ last)
  | _, _, _, _ => none

def ofChars? (chars : List Char) : Option Uuid :=
  if chars.length = 32 then ofDigits? chars
  else if chars.length = 36 then hyphenated? chars
  else if chars.length = 38 ∧ chars.head? = some '{' ∧ chars.getLast? = some '}' then
    hyphenated? ((chars.drop 1).take 36)
  else if chars.length = 45 ∧ "urn:uuid:".toList.isPrefixOf chars then
    hyphenated? (chars.drop 9)
  else none

def ofText? (text : String) : Option Uuid :=
  ofChars? text.toList

end Uuid

end Workflow
