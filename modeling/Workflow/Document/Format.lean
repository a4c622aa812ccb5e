import Workflow.Document.Problem

/-! The interface between documents and records. A format says how each kind of content is read
from its nodes; a record is read through the format alone, so that one definition of the record
serves every format. A document is taken front to back and the first problem met decides. -/

namespace Workflow.Document

/-- The contents of a container in the order of the text, and the problem it ends at, if any. -/
structure Listing (α : Type) where
  contents : List α
  ending : Option Problem

/-- The members of a record: by name, or by position where the format allows it. -/
inductive Members (Node : Type) where
  | named (members : Listing (Reading String × Node))
  | positional (items : Listing Node)

/-- How content is read. Each reader takes the place of the node first. -/
structure Format (Node : Type) where
  text : (expected : String) → Place → Node → Reading String
  flag : Place → Node → Reading Bool
  natural : (expected : String) → Place → Node → Reading Nat
  /-- The node itself, unless it says that nothing is set. -/
  optional : Node → Reading (Option Node)
  choice : (names : List String) → Place → Node → Reading String
  sequence : Place → Node → Reading (Listing Node)
  table : Place → Node → Reading (Listing (Reading String × Node))
  record : (expected : String) → Place → Node → Reading (Members Node)
  value : Place → Node → Reading Json
  /-- Passes over content that nobody asked for. -/
  ignore : Node → Reading Unit
  /-- The place that a problem in a container gets when it has none. -/
  locate : Place → Problem → Problem

/-- What was read for one field: nothing, a problem, or a value. -/
abbrev Slot (α : Type) := Option (Reading α)

namespace Slot

def problem? {α : Type} : Slot α → Option Problem
  | some (.error problem) => some problem
  | _ => none

def orDefault {α : Type} (slot : Slot α) (default : α) : Reading α :=
  slot.getD (.ok default)

end Slot

/-- A record being read: its members with the places of their values, and the names of its fields
in order. -/
structure Source (Node : Type) where
  format : Format Node
  place : Place
  fields : List String
  members : Members Node

namespace Source

variable {Node : Type}

def first? (name : String) : List (Reading String × Node) → Option Node
  | [] => none
  | (.ok key, node) :: rest => if key = name then some node else first? name rest
  | (.error _, _) :: rest => first? name rest

/-- Reads the field with a name, where it is present. -/
def field {α : Type} (source : Source Node) (name : String) (read : Place → Node → Reading α) :
    Slot α :=
  match source.members with
  | .named members => (first? name members.contents).map (read (.key name :: source.place))
  | .positional items =>
    let position := source.fields.idxOf name
    items.contents[position]?.map (read (.index position :: source.place))

/-- Reads a field that may also be present without being set. -/
def optional {α : Type} (source : Source Node) (name : String)
    (read : Place → Node → Reading α) : Slot (Option α) :=
  source.field name fun place node => do
    match ← source.format.optional node with
    | none => return none
    | some node => return some (← read place node)

/-- The first problem among members in the order of the text: a key that cannot be read, a name
that comes again, a field that was read with a problem, or a fault in a member of another name. -/
def firstProblem (source : Source Node) (problems : List (String × Option Problem))
    (seen : List String) : List (Reading String × Node) → Option Problem
  | [] => none
  | (.error problem, _) :: _ => some problem
  | (.ok key, node) :: rest =>
    if key ∈ source.fields then
      if key ∈ seen then some (.shape none (.duplicateField key))
      else
        (problems.lookup key).join.or (firstProblem source problems (key :: seen) rest)
    else
      match source.format.ignore node with
      | .error problem => some problem
      | .ok _ => firstProblem source problems seen rest

/-- The first problem among positional items: of those read in order, then at the end. Items after
the last field cannot be read. -/
def firstPositional (source : Source Node) (problems : List (String × Option Problem))
    (items : Listing Node) : Option Problem :=
  let known := (source.fields.take items.contents.length).findSome? fun name =>
    (problems.lookup name).join
  known.or
    (if source.fields.length < items.contents.length then some .unreadable
    else items.ending)

/-- Passes when no member has a problem of its own. -/
def check (source : Source Node) (problems : List (String × Option Problem)) : Reading Unit :=
  let problem :=
    match source.members with
    | .named members =>
      (source.firstProblem problems [] members.contents).or members.ending
    | .positional items => source.firstPositional problems items
  match problem with
  | some problem => .error problem
  | none => .ok ()

/-- The value of a field that has to be present. A listing without it is too short from its
position on. -/
def required {α : Type} (source : Source Node) (name expected : String) (slot : Slot α) :
    Reading α :=
  match slot with
  | some read => read
  | none =>
    match source.members with
    | .named _ => mismatched (.missingField name)
    | .positional _ =>
      mismatched (.invalidLength (source.fields.idxOf name)
        (expected ++ " with " ++ String.ofList (Text.decimal source.fields.length) ++
          (if source.fields.length = 1 then " element" else " elements")))

/-- The value of a field that may be left out of a record of named members, but not of one of
positional items. -/
def unsetUnlessListed {α : Type} (source : Source Node) (name expected : String)
    (slot : Slot (Option α)) : Reading (Option α) :=
  match slot, source.members with
  | none, .named _ => .ok none
  | slot, _ => source.required name expected slot

end Source

namespace Format

variable {Node : Type} (format : Format Node)

/-- Reads a record: `read` gets its members and says what became of them. -/
def readRecord {α : Type} (expected : String) (fields : List String)
    (read : Source Node → Reading α) (place : Place) (node : Node) : Reading α :=
  (do
    let members ← format.record expected place node
    read ⟨format, place, fields, members⟩).mapError (format.locate place)

/-- Reads every item of a listing; the first problem decides, and the ending comes last. -/
def readItems {α : Type} (read : Place → Node → Reading α) (place : Place)
    (position : Nat) : List Node → Reading (List α)
  | [] => .ok []
  | node :: rest => do
    let item ← read (.index position :: place) node
    let items ← readItems read place (position + 1) rest
    return item :: items

def readSequence {α : Type} (read : Place → Node → Reading α) (place : Place) (node : Node) :
    Reading (List α) :=
  (do
    let listing ← format.sequence place node
    let items ← readItems read place 0 listing.contents
    match listing.ending with
    | some problem => .error problem
    | none => return items).mapError (format.locate place)

def readEntries {α : Type} (read : Place → Node → Reading α) (place : Place) :
    List (Reading String × Node) → Reading (List (String × α))
  | [] => .ok []
  | (key, node) :: rest => do
    let key ← key
    let value ← read (.key key :: place) node
    let entries ← readEntries read place rest
    return (key, value) :: entries

/-- Reads a table of values by name, in the order of the text. -/
def readTable {α : Type} (read : Place → Node → Reading α) (place : Place) (node : Node) :
    Reading (List (String × α)) :=
  (do
    let listing ← format.table place node
    let entries ← readEntries read place listing.contents
    match listing.ending with
    | some problem => .error problem
    | none => return entries).mapError (format.locate place)

end Format

end Workflow.Document
