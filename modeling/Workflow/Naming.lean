import Workflow.Text.LowerCase

/-! Values that are known by a name. A name is written in lower case and read in any case; one that
is not known is reported in lower case. -/

namespace Workflow

class Named (α : Type) where
  noun : String
  all : List α
  name : α → String

namespace Named

variable {α : Type} [Named α]

def names (α : Type) [Named α] : List String :=
  (all : List α).map name

def named? (text : String) : Option α :=
  all.find? fun value => name value = text

/-- The value a text names in any case, or a message that it names none. -/
def ofText (text : String) : Except String α :=
  match named? (Text.lower text) with
  | some value => .ok value
  | none => .error ("unknown " ++ noun α ++ " '" ++ Text.lower text ++ "'")

end Named

end Workflow
