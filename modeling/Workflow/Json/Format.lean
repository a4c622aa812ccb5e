import Workflow.Document.Format
import Workflow.Json.Parser

/-! JSON as a document format. A record may also be an array of its fields, and a name may also be
the key of an object whose value is null. Messages carry no place. -/

namespace Workflow.Json

open Document

namespace Draft

def unreadable {α : Type} : Reading α :=
  .error .unreadable

def found : Draft → Reading Found
  | .broken _ => unreadable
  | .null => .ok .null
  | .bool value => .ok (.boolean value)
  | .number literal =>
    match literal.number? with
    | some (.integer value _) => .ok (.integer value)
    | some (.real value) => .ok (.real value)
    | none => unreadable
  | .string (.ok content) => .ok (.string content)
  | .string (.error _) => unreadable
  | .array .. => .ok .sequence
  | .object .. => .ok .map

def refuse {α : Type} (expected : String) (draft : Draft) : Reading α := do
  mismatched (.invalidType (← draft.found) expected)

def text (expected : String) (_ : Place) : Draft → Reading String
  | .string (.ok content) => .ok content
  | draft => draft.refuse expected

def flag (_ : Place) : Draft → Reading Bool
  | .bool value => .ok value
  | draft => draft.refuse "a boolean"

def natural (expected : String) (_ : Place) (draft : Draft) : Reading Nat := do
  match draft, ← draft.found with
  | .number _, .integer value =>
    if value < 0 then mismatched (.invalidValue (.integer value) expected)
    else return value.toNat
  | _, found => mismatched (.invalidType found expected)

def optional : Draft → Reading (Option Draft)
  | .null => .ok none
  | draft => .ok (some draft)

def listed (names : List String) (name : String) : Reading String :=
  if name ∈ names then .ok name else mismatched (.unknownVariant name names)

def choice (names : List String) (_ : Place) : Draft → Reading String
  | .string (.ok name) => listed names name
  | .object ((.ok key, value) :: rest) ending => do
    let name ← listed names key
    match value with
    | .null => if rest.isEmpty ∧ ending.isNone then return name else unreadable
    | value => value.refuse "unit"
  | _ => unreadable

def ended (fault : Option SyntaxError) : Option Problem :=
  fault.map fun _ => .unreadable

def key (content : StringDraft) : Reading String :=
  content.mapError fun _ => .unreadable

/-- The nesting left for a container at a place. -/
def room (place : Place) : Nat :=
  nestingLimit - place.length

def sequence (place : Place) : Draft → Reading (Listing Draft)
  | .array items ending =>
    if room place ≤ 1 then unreadable else .ok ⟨items, ended ending⟩
  | draft => draft.refuse "a sequence"

def keyed (members : List (StringDraft × Draft)) (ending : Option SyntaxError) :
    Listing (Reading String × Draft) :=
  ⟨members.map fun (name, value) => (key name, value), ended ending⟩

def table (place : Place) : Draft → Reading (Listing (Reading String × Draft))
  | .object members ending =>
    if room place ≤ 1 then unreadable else .ok (keyed members ending)
  | draft => draft.refuse "a map"

def record (expected : String) (place : Place) : Draft → Reading (Document.Members Draft)
  | .object members ending =>
    if room place ≤ 1 then unreadable else .ok (.named (keyed members ending))
  | .array items ending =>
    if room place ≤ 1 then unreadable else .ok (.positional ⟨items, ended ending⟩)
  | draft => draft.refuse expected

def value (place : Place) (draft : Draft) : Reading Json :=
  (draft.toJson (room place)).mapError fun _ => .unreadable

def ignore (draft : Draft) : Reading Unit :=
  match draft.fault? with
  | some _ => unreadable
  | none => .ok ()

end Draft

def format : Format Draft where
  text := Draft.text
  flag := Draft.flag
  natural := Draft.natural
  optional := Draft.optional
  choice := Draft.choice
  sequence := Draft.sequence
  table := Draft.table
  record := Draft.record
  value := Draft.value
  ignore := Draft.ignore
  locate := fun _ problem => problem

/-- Reads a whole JSON text as a record. Text after the record is met last. -/
def readDocument {α : Type} (read : Format Draft → Place → Draft → Reading α) (text : String) :
    Reading α := do
  let whole := Draft.ofText text
  let record ← read format [] whole.draft
  match whole.trailing with
  | some _ => Draft.unreadable
  | none => return record

end Workflow.Json
