import Workflow.Json.Number

/-! JSON values. The members of an object are kept in the order of their keys, one for each key;
`Sorted` says so of a whole value. -/

namespace Workflow

inductive Json where
  | null
  | bool (value : Bool)
  | number (value : Json.Number)
  | string (value : String)
  | array (items : List Json)
  | object (members : List (String × Json))
deriving Repr, BEq, Inhabited

namespace Json

/-- The members of an object in the order of their keys. -/
abbrev Members := List (String × Json)

namespace Members

def value? (key : String) (members : Members) : Option Json :=
  List.lookup key members

/-- Adds a member at the place of its key; a member with that key is replaced. -/
def put (key : String) (value : Json) : Members → Members
  | [] => [(key, value)]
  | (other, old) :: rest =>
    if key < other then (key, value) :: (other, old) :: rest
    else if key = other then (key, value) :: rest
    else (other, old) :: put key value rest

/-- The members of `base` with those of `top` put over them. -/
def overlay (base top : Members) : Members :=
  top.foldl (fun members member => members.put member.1 member.2) base

def ofList (members : List (String × Json)) : Members :=
  overlay [] members

def erase (key : String) (members : Members) : Members :=
  members.filter fun member => member.1 ≠ key

end Members

mutual
/-- Every object in the value has its keys in strictly increasing order. -/
def Sorted : Json → Prop
  | .array items => SortedItems items
  | .object members => members.Pairwise (·.1 < ·.1) ∧ SortedMembers members
  | _ => True
termination_by structural value => value

def SortedItems : List Json → Prop
  | [] => True
  | item :: rest => Sorted item ∧ SortedItems rest
termination_by structural items => items

def SortedMembers : List (String × Json) → Prop
  | [] => True
  | (_, value) :: rest => Sorted value ∧ SortedMembers rest
termination_by structural members => members
end

def int (value : Int) : Json :=
  match Number.ofInt? value with
  | some fitting => .number fitting
  | none => .null

def nat (value : Nat) : Json :=
  int value

def optional (value : Option Json) : Json :=
  value.getD .null

def ofStrings (texts : List String) : Json :=
  .array (texts.map .string)

/-- An object of the members given that are set. -/
def record (members : List (String × Option Json)) : Json :=
  .object (Members.ofList (members.filterMap fun (key, value) => value.map (key, ·)))

def field? (value : Json) (key : String) : Option Json :=
  match value with
  | .object members => Members.value? key members
  | _ => none

end Json

end Workflow
