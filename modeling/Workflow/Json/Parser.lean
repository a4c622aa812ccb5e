import Workflow.Json.Draft

/-! Reading a whole text as one JSON value. A key that is repeated keeps its last value, and
containers nest at most 127 deep. -/

namespace Workflow.Json

namespace Draft

mutual
/-- The value a draft stands for, or the first fault in it; `room` bounds the nesting. -/
def toJson (room : Nat) : Draft → Except SyntaxError Json
  | .broken fault => .error fault
  | .null => .ok .null
  | .bool value => .ok (.bool value)
  | .number literal =>
    match literal.number? with
    | some value => .ok (.number value)
    | none => .error .numberOutOfRange
  | .string content => content.map .string
  | .array items ending =>
    if room ≤ 1 then .error .recursionLimit
    else
      match toJsonItems (room - 1) items, ending with
      | .error fault, _ => .error fault
      | .ok _, some fault => .error fault
      | .ok values, none => .ok (.array values)
  | .object members ending =>
    if room ≤ 1 then .error .recursionLimit
    else
      match toJsonMembers (room - 1) members, ending with
      | .error fault, _ => .error fault
      | .ok _, some fault => .error fault
      | .ok values, none => .ok (.object (Members.ofList values))
termination_by structural draft => draft

def toJsonItems (room : Nat) : List Draft → Except SyntaxError (List Json)
  | [] => .ok []
  | item :: rest => do
    let value ← toJson room item
    let values ← toJsonItems room rest
    return value :: values
termination_by structural items => items

def toJsonMembers (room : Nat) :
    List (StringDraft × Draft) → Except SyntaxError (List (String × Json))
  | [] => .ok []
  | (key, item) :: rest => do
    let key ← key
    let value ← toJson room item
    let values ← toJsonMembers room rest
    return (key, value) :: values
termination_by structural members => members
end

mutual
/-- The first fault that stops the reading of a value nobody looks at: numbers may be of any
size, escapes may stand for no character, and nesting may be of any depth. -/
def fault? : Draft → Option SyntaxError
  | .broken fault => some fault
  | .array items ending => (faultIn? items).or ending
  | .object members ending => (faultAmong? members).or ending
  | _ => none
termination_by structural draft => draft

def faultIn? : List Draft → Option SyntaxError
  | [] => none
  | item :: rest => (fault? item).or (faultIn? rest)
termination_by structural items => items

def faultAmong? : List (StringDraft × Draft) → Option SyntaxError
  | [] => none
  | (_, item) :: rest => (fault? item).or (faultAmong? rest)
termination_by structural members => members
end

/-- A whole text as a draft, with the fault of having more text after the value. -/
structure Whole where
  draft : Draft
  trailing : Option SyntaxError

def ofText (text : String) : Whole :=
  match readValue text.toList with
  | .stopped draft => ⟨draft, none⟩
  | .read draft rest =>
    ⟨draft, if (skipSpace rest.val).isEmpty then none else some .trailingCharacters⟩

end Draft

/-- How deep a document may nest, its outermost container counted. -/
def nestingLimit : Nat := 128

def parse (text : String) : Except SyntaxError Json :=
  let whole := Draft.ofText text
  match whole.draft.toJson nestingLimit, whole.trailing with
  | .error fault, _ => .error fault
  | .ok _, some fault => .error fault
  | .ok value, none => .ok value

end Workflow.Json
