import Workflow.Binary64.Text
import Workflow.Json.Basic
import Workflow.Text.Quoted

/-! What can be wrong with a document. A mismatch is about the shape of the data and has a text of
its own; everything else about a document is one cause, that it cannot be read. -/

namespace Workflow.Document

open Text

/-- What stands in a document where something else was expected. -/
inductive Found where
  | integer (value : Int)
  | wideInteger (value : Int)
  | real (value : Binary64)
  | longReal (value : Binary64)
  | notFinite (text : String)
  | boolean (value : Bool)
  | string (value : String)
  | null
  | unit
  | sequence
  | map
  | tagged
deriving DecidableEq, Repr

/-- All digits of a double, positional at any magnitude. -/
def longReal (value : Binary64) : List Char :=
  let shortest := value.shortest
  let digits := decimal shortest.digits
  let magnitude :=
    if value.significand = 0 then ['0', '.', '0']
    else Binary64.positional digits (shortest.exponent + digits.length)
  if value.negative then '-' :: magnitude else magnitude

def Found.text : Found → String
  | integer value => "integer `" ++ String.ofList (Json.Number.intChars value) ++ "`"
  | wideInteger value =>
    "integer `" ++ String.ofList (Json.Number.intChars value) ++ "` as " ++
      (if value < 0 then "i128" else "u128")
  | real value => "floating point `" ++ String.ofList value.chars ++ "`"
  | longReal value => "floating point `" ++ String.ofList (Document.longReal value) ++ "`"
  | notFinite text => "floating point `" ++ text ++ "`"
  | boolean value => "boolean `" ++ (if value then "true" else "false") ++ "`"
  | string value => "string " ++ quoted value
  | null => "null"
  | unit => "unit value"
  | sequence => "sequence"
  | map => "map"
  | tagged => "enum"

/-- A disagreement between the shape of the data and the record it is read as. -/
inductive Mismatch where
  | missingField (name : String)
  | duplicateField (name : String)
  | unknownVariant (found : String) (expected : List String)
  | invalidLength (count : Nat) (expected : String)
  | invalidType (found : Found) (expected : String)
  | invalidValue (found : Found) (expected : String)
deriving DecidableEq, Repr

def backquoted (name : String) : String :=
  "`" ++ name ++ "`"

/-- The choices of a list of names: two are joined by a word, more are listed. -/
def choices : List String → String
  | [] => "there are no variants"
  | [only] => "expected " ++ backquoted only
  | [first, second] => "expected " ++ backquoted first ++ " or " ++ backquoted second
  | names => "expected one of " ++ ", ".intercalate (names.map backquoted)

def Mismatch.text : Mismatch → String
  | missingField name => "missing field " ++ backquoted name
  | duplicateField name => "duplicate field " ++ backquoted name
  | unknownVariant found expected =>
    "unknown variant " ++ backquoted found ++ ", " ++ choices expected
  | invalidLength count expected =>
    "invalid length " ++ String.ofList (decimal count) ++ ", expected " ++ expected
  | invalidType found expected => "invalid type: " ++ found.text ++ ", expected " ++ expected
  | invalidValue found expected => "invalid value: " ++ found.text ++ ", expected " ++ expected

inductive Segment where
  | key (name : String)
  | index (position : Nat)
deriving DecidableEq, Repr

/-- A place in a document, innermost segment first. The root is the empty place, and each segment
enters one container. -/
abbrev Place := List Segment

def Place.text : Place → String
  | [] => "."
  | .key name :: [] => name
  | .key name :: outer => Place.text outer ++ "." ++ name
  | .index position :: outer => Place.text outer ++ "[" ++ String.ofList (decimal position) ++ "]"

/-- Why a document is not the record that was asked for. -/
inductive Problem where
  | shape (place : Option Place) (mismatch : Mismatch)
  | unreadable
deriving DecidableEq, Repr

/-- The text of a problem about the shape of the data, with its place where there is one. -/
def Problem.text? : Problem → Option String
  | .shape none mismatch => some mismatch.text
  | .shape (some []) mismatch => some mismatch.text
  | .shape (some place) mismatch => some (place.text ++ ": " ++ mismatch.text)
  | .unreadable => none

/-- Gives a problem a place unless it has one already. -/
def Problem.at (place : Place) : Problem → Problem
  | .shape none mismatch => .shape (some place) mismatch
  | problem => problem

abbrev Reading (α : Type) := Except Problem α

def mismatched {α : Type} (mismatch : Mismatch) : Reading α :=
  .error (.shape none mismatch)

end Workflow.Document
