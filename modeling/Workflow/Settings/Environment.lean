import Workflow.Document.Problem
import Workflow.Naming
import Workflow.Text.Natural

/-! Settings from the environment. A family of settings has a heading; a variable sets the field
that its name gives in any case after the heading. Variables are taken in the order of their names,
and the first one that is wrong decides. -/

namespace Workflow

abbrev Environment := List (String × String)

/-- A variable of a family, without the heading of the family. -/
structure Variable where
  name : String
  value : String
deriving DecidableEq, Repr

inductive SettingFault where
  | repeated (field : String)
  | unknownChoice (value : String) (choices : List String)
  | notANumber (fault : Text.NumberFault) (entry : Variable)
deriving DecidableEq, Repr

def SettingFault.text : SettingFault → String
  | repeated field => (Document.Mismatch.duplicateField field).text
  | unknownChoice value choices => (Document.Mismatch.unknownVariant value choices).text
  | notANumber fault entry =>
    fault.text ++ " while parsing value '" ++ entry.value ++ "' provided by " ++ entry.name

namespace Variable

def field (entry : Variable) : String :=
  Text.lower entry.name

def number (limit : Nat) (entry : Variable) : Except SettingFault Nat :=
  (Text.readNatural limit entry.value).mapError fun fault => .notANumber fault entry

def choice {α : Type} [Named α] (entry : Variable) : Except SettingFault α :=
  match Named.named? entry.value with
  | some value => .ok value
  | none => .error (.unknownChoice entry.value (Named.names α))

end Variable

/-- Takes a heading off the front of a name as often as it stands there. -/
def dropHeadings (heading name : List Char) : List Char :=
  if _ : heading ≠ [] ∧ heading.isPrefixOf name ∧ heading.length ≤ name.length then
    dropHeadings heading (name.drop heading.length)
  else name
termination_by name.length
decreasing_by
  rename_i found
  have := List.length_pos_iff.2 found.1
  simp; omega

namespace Environment

/-- The variables of a family in the order of their names. -/
def family (heading : String) (environment : Environment) : List Variable :=
  let own := environment.filter fun entry => heading.toList.isPrefixOf entry.1.toList
  (own.mergeSort fun entry other => entry.1 ≤ other.1).map fun entry =>
    ⟨String.ofList (dropHeadings heading.toList entry.1.toList), entry.2⟩

end Environment

/-- A kind of settings: the heading of its variables, its fields, the settings where nothing is set,
and what a variable changes. -/
structure Family (α : Type) where
  heading : String
  fields : List String
  defaults : α
  set : α → Variable → Except SettingFault α

namespace Family

def names {α : Type} (family : Family α) : List String :=
  family.fields.map fun field => family.heading ++ String.ofList (field.toList.map Char.toUpper)

/-- Takes one variable after another; `seen` are the fields that are set already. -/
def apply {α : Type} (family : Family α) (seen : List String) (settings : α) :
    List Variable → Except SettingFault α
  | [] => .ok settings
  | entry :: rest =>
    if entry.field ∈ family.fields then
      if entry.field ∈ seen then .error (.repeated entry.field)
      else do
        let settings ← family.set settings entry
        apply family (entry.field :: seen) settings rest
    else apply family seen settings rest

def ofEnvironment {α : Type} (family : Family α) (environment : Environment) :
    Except SettingFault α :=
  family.apply [] family.defaults (environment.family family.heading)

end Family

end Workflow
