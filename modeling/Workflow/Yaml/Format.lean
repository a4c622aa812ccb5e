import Workflow.Document.Format
import Workflow.Yaml.Node
import Workflow.Yaml.Typed

/-! YAML as a document format. Texts are taken as written, whatever they look like; only open
values and what is asked for as a flag or a number have a type. A scalar of which nothing was
written also counts as an empty container. Messages begin with the place of their node. -/

namespace Workflow.Yaml

open Document

def nestingLimit : Nat := 128

/-- A tag of the document's own names a choice. -/
def choiceOf? (tag : Option String) : Option String :=
  match tag.map String.toList with
  | some ['!'] => some "!"
  | some ('!' :: name) => some (String.ofList name)
  | _ => none

mutual
def Node.events : Node → Nat
  | .sequence _ items _ => 2 + eventsOfItems items
  | .mapping _ entries _ => 2 + eventsOfEntries entries
  | _ => 1
termination_by structural node => node

def eventsOfItems : List Node → Nat
  | [] => 0
  | item :: rest => item.events + eventsOfItems rest
termination_by structural items => items

def eventsOfEntries : List (Node × Node) → Nat
  | [] => 0
  | (key, value) :: rest => key.events + value.events + eventsOfEntries rest
termination_by structural entries => entries
end

mutual
/-- How many aliases are followed to read a node whole, given the number for every anchor. A
node that holds itself has no such number. -/
def Node.aliases (known : List (Nat × Nat)) : Node → Option Nat
  | .alias anchor => (known.lookup anchor).map (· + 1)
  | .sequence _ items _ => aliasesOfItems known items
  | .mapping _ entries _ => aliasesOfEntries known entries
  | _ => some 0
termination_by structural node => node

def aliasesOfItems (known : List (Nat × Nat)) : List Node → Option Nat
  | [] => some 0
  | item :: rest => do return (← item.aliases known) + (← aliasesOfItems known rest)
termination_by structural items => items

def aliasesOfEntries (known : List (Nat × Nat)) : List (Node × Node) → Option Nat
  | [] => some 0
  | (key, value) :: rest => do
    return (← key.aliases known) + (← value.aliases known) + (← aliasesOfEntries known rest)
termination_by structural entries => entries
end

namespace Tree

/-- The number of aliases behind every anchor that has one, in the order the anchors were read. -/
def anchorAliases (tree : Tree) : List (Nat × Nat) :=
  tree.anchored.foldr (fun (anchor, node) known =>
    match node.aliases known with
    | some count => (anchor, count) :: known
    | none => known) []

def resolve (tree : Tree) : Node → Node
  | .alias anchor => (tree.anchored.lookup anchor).getD .broken
  | node => node

def unreadable {α : Type} : Reading α :=
  .error .unreadable

/-- What a node is when something else was expected. -/
def found : Node → Reading Found
  | .scalar tag text style =>
    match Typed.ofScalar tag text style with
    | .ok typed => .ok typed.found
    | .error expected => mismatched (.invalidValue (.string text) expected)
  | .sequence .. => .ok .sequence
  | .mapping .. => .ok .map
  | .nothing => .ok .unit
  | _ => unreadable

def refuse {α : Type} (expected : String) (node : Node) : Reading α := do
  mismatched (.invalidType (← found node) expected)

/-- Reads at a place that problems of the node itself are given. -/
def located {α : Type} (place : Place) (reading : Reading α) : Reading α :=
  reading.mapError (Problem.at place)

variable (tree : Tree)

def text (expected : String) (place : Place) (node : Node) : Reading String :=
  located place <|
    match tree.resolve node with
    | .scalar _ text _ => .ok text
    | node => refuse expected node

/-- A scalar that can be asked for a type: a plain one, or a block with the tag of that type. -/
def typable (name : String) (tag : Option String) (style : Style) : Bool :=
  style = .plain || (style = .literal && tag == some (Typed.coreTag name))

def flag (place : Place) (node : Node) : Reading Bool :=
  located place <|
    match tree.resolve node with
    | .scalar tag text style =>
      match typable "bool" tag style, boolean? text with
      | true, some value => .ok value
      | _, _ => refuse "a boolean" (.scalar tag text style)
    | node => refuse "a boolean" node

def natural (expected : String) (place : Place) (node : Node) : Reading Nat :=
  located place <|
    match tree.resolve node with
    | .scalar tag text style =>
      match typable "int" tag style, word? text.toList with
      | true, some value => .ok value
      | _, _ => refuse expected (.scalar tag text style)
    | node => refuse expected node

def optional (node : Node) : Reading (Option Node) :=
  match tree.resolve node with
  | .broken => unreadable
  | .nothing => .ok none
  | .scalar tag text .plain =>
    if tag = some (Typed.coreTag "null") then
      if isNull text then .ok none else mismatched (.invalidValue (.string text) "null")
    else if tag.isNone ∧ (text.isEmpty ∨ isNull text) then .ok none
    else .ok (some node)
  | _ => .ok (some node)

def listed (names : List String) (name : String) : Reading String :=
  if name ∈ names then .ok name else mismatched (.unknownVariant name names)

/-- What stands behind a tag that names a choice has to be empty. -/
def emptyContent : Node → Reading Unit
  | .scalar _ text style =>
    if style = .plain ∧ (text.isEmpty ∨ isNull text) then .ok ()
    else mismatched (.invalidValue (.string text) "null")
  | node => refuse "unit" node

def choice (names : List String) (place : Place) (node : Node) : Reading String :=
  let chosen (tag : Option String) (node : Node) (untagged : Reading String) : Reading String :=
    match choiceOf? tag with
    | some name => do
      let name ← listed names name
      located place (emptyContent node)
      return name
    | none => located place untagged
  match tree.resolve node with
  | .scalar tag text style => chosen tag (.scalar tag text style) (listed names text)
  | .sequence tag items whole =>
    chosen tag (.sequence tag items whole)
      (mismatched (.invalidType .sequence "a YAML tag starting with '!'"))
  | .mapping tag entries whole =>
    chosen tag (.mapping tag entries whole)
      (mismatched (.invalidType .map "a YAML tag starting with '!'"))
  | _ => unreadable

def ending (whole : Bool) : Option Problem :=
  if whole then none else some .unreadable

/-- Nothing was written where a container was expected. -/
def isEmptyContent : Node → Bool
  | .scalar _ text style => style = .plain && text.isEmpty
  | .nothing => true
  | _ => false

def sequence (place : Place) (node : Node) : Reading (Listing Node) :=
  located place <|
    match tree.resolve node with
    | .sequence _ items whole =>
      if nestingLimit ≤ place.length then unreadable else .ok ⟨items, ending whole⟩
    | node => if isEmptyContent node then .ok ⟨[], none⟩ else refuse "a sequence" node

/-- The entries of a mapping; `expected` says what a key has to be. -/
def entries (expected container : String) (place : Place) (node : Node) :
    Reading (Listing (Reading String × Node)) :=
  located place <|
    match tree.resolve node with
    | .mapping _ entries whole =>
      if nestingLimit ≤ place.length then unreadable
      else .ok ⟨entries.map fun (key, value) => (tree.text expected place key, value), ending whole⟩
    | node => if isEmptyContent node then .ok ⟨[], none⟩ else refuse container node

def table : Place → Node → Reading (Listing (Reading String × Node)) :=
  tree.entries "a string" "a map"

def record (expected : String) (place : Place) (node : Node) : Reading (Members Node) := do
  return .named (← tree.entries "field identifier" expected place node)

def anyValue : String := "any valid JSON value"

/-- The value of a scalar. What is not finite has none, and an integer of more than 64 bits is
refused. -/
def scalarValue (tag : Option String) (text : String) (style : Style) : Reading Json :=
  match Typed.ofScalar tag text style with
  | .error expected => mismatched (.invalidValue (.string text) expected)
  | .ok (.boolean value) => .ok (.bool value)
  | .ok (.real value) => .ok (.number (.real value))
  | .ok (.text value) => .ok (.string value)
  | .ok (.integer value) =>
    match Json.Number.ofInt? value with
    | some number => .ok (.number number)
    | none => unreadable
  | .ok _ => .ok .null

/-- Reads an open value that may nest `room` deep. -/
def valueWithin : (room : Nat) → Place → Node → Reading Json
  | room, place, node => located place <|
    match tree.resolve node with
    | .scalar tag text style =>
      if (choiceOf? tag).isSome then mismatched (.invalidType .tagged anyValue)
      else scalarValue tag text style
    | .sequence tag items whole =>
      if (choiceOf? tag).isSome then mismatched (.invalidType .tagged anyValue)
      else
        match room with
        | 0 => unreadable
        | room + 1 => do
          let items ← Format.readItems (valueWithin room) place 0 items
          if whole then return .array items else unreadable
    | .mapping tag entries whole =>
      if (choiceOf? tag).isSome then mismatched (.invalidType .tagged anyValue)
      else
        match room with
        | 0 => unreadable
        | room + 1 => do
          let entries := entries.map fun (key, value) => (tree.text "a string key" place key, value)
          let members ← Format.readEntries (valueWithin room) place entries
          if whole then return .object (Json.Members.ofList members) else unreadable
    | .nothing => .ok .null
    | _ => unreadable

/-- Reads an open value. One that follows more than `limit` aliases is refused. -/
def value (known : List (Nat × Nat)) (limit : Nat) (place : Place) (node : Node) : Reading Json :=
  if (node.aliases known).any (· ≤ limit) then
    tree.valueWithin (nestingLimit - place.length) place node
  else unreadable

mutual
def isWhole : Node → Bool
  | .broken => false
  | .sequence _ items whole => whole && allWhole items
  | .mapping _ entries whole => whole && allEntriesWhole entries
  | _ => true
termination_by structural node => node

def allWhole : List Node → Bool
  | [] => true
  | item :: rest => isWhole item && allWhole rest
termination_by structural items => items

def allEntriesWhole : List (Node × Node) → Bool
  | [] => true
  | (key, value) :: rest => isWhole key && isWhole value && allEntriesWhole rest
termination_by structural entries => entries
end

def ignore (node : Node) : Reading Unit :=
  if isWhole node then .ok () else unreadable

def format : Format Node :=
  let known := tree.anchorAliases
  let limit := 100 * tree.root.events
  { text := tree.text
    flag := tree.flag
    natural := tree.natural
    optional := tree.optional
    choice := tree.choice
    sequence := tree.sequence
    table := tree.table
    record := tree.record
    value := tree.value known limit
    ignore := ignore
    locate := Problem.at }

end Tree

/-- Reads a whole YAML text as a record. What follows the document is met last. -/
def readDocument {α : Type} (read : Format Node → Place → Node → Reading α) (text : String) :
    Reading α := do
  let tree := Tree.ofText text
  let record ← read tree.format [] tree.root
  if tree.ended then return record else .error .unreadable

end Workflow.Yaml
