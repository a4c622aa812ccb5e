import Workflow.Text.Digits
import Workflow.Text.Utf8

/-! Percent encoding: a byte is a percent sign and two hexadecimal digits, and a percent sign that
no two digits follow stands for itself. -/

namespace Workflow.Url

open Text

def utf8Bytes (chars : List Char) : List UInt8 :=
  (String.ofList chars).toUTF8.toList

def percentBytes : List Char → List UInt8
  | [] => []
  | [c] => utf8Bytes [c]
  | [c, d] => utf8Bytes [c, d]
  | c :: high :: low :: rest =>
    match c, hexDigit? high, hexDigit? low with
    | '%', some first, some second => (first * 16 + second).toUInt8 :: percentBytes rest
    | _, _, _ => utf8Bytes [c] ++ percentBytes (high :: low :: rest)

def percentByte (byte : UInt8) : List Char :=
  ['%', (hexChar (byte.toNat / 16)).toUpper, (hexChar (byte.toNat % 16)).toUpper]

/-- A character of the visible ones of ASCII as it is, any other one encoded. -/
def visibleChar (c : Char) : List Char :=
  if ' ' ≤ c ∧ c ≤ '~' then [c] else (utf8Bytes [c]).flatMap percentByte

/-- The text that an encoded text stands for. -/
def percentDecode (chars : List Char) : Except Utf8Fault String :=
  (decodeUtf8 (percentBytes chars)).map String.ofList

/-- A part of a query, in which a plus sign is a space. -/
def formDecode (chars : List Char) : String :=
  String.ofList (decodeUtf8Lossy (percentBytes (chars.map fun c => if c = '+' then ' ' else c)))

def splitAtEvery (mark : Char) (chars : List Char) : List (List Char) :=
  chars.foldr (fun c pieces =>
    match pieces with
    | [] => [[c]]
    | piece :: rest => if c = mark then [] :: piece :: rest else (c :: piece) :: rest) [[]]

/-- What stands before the first occurrence of a character and, if it occurs, what follows. -/
def splitAtFirst (mark : Char) (chars : List Char) : List Char × Option (List Char) :=
  match chars.dropWhile (· ≠ mark) with
  | [] => (chars, none)
  | _ :: rest => (chars.takeWhile (· ≠ mark), some rest)

def queryPairs (query : List Char) : List (String × String) :=
  ((splitAtEvery '&' query).filter fun piece => !piece.isEmpty).map fun piece =>
    let (name, value) := splitAtFirst '=' piece
    (formDecode name, formDecode (value.getD []))

end Workflow.Url
