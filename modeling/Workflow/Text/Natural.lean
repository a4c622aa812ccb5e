import Workflow.Text.Digits

/-! Whole numbers up to a limit. A plus sign may stand in front and zeros may lead; the first
character that is wrong decides what is wrong. -/

namespace Workflow.Text

inductive NumberFault where
  | empty
  | invalidDigit
  | tooLarge
deriving DecidableEq, Repr

def NumberFault.text : NumberFault → String
  | empty => "cannot parse integer from empty string"
  | invalidDigit => "invalid digit found in string"
  | tooLarge => "number too large to fit in target type"

/-- Goes on reading digits after a number that is already read. -/
def readDigits (limit value : Nat) : List Char → Except NumberFault Nat
  | [] => .ok value
  | c :: rest =>
    match decimalDigit? c with
    | none => .error .invalidDigit
    | some digit =>
      let value := value * 10 + digit
      if value ≤ limit then readDigits limit value rest else .error .tooLarge

def readNatural (limit : Nat) (text : String) : Except NumberFault Nat :=
  match text.toList with
  | [] => .error .empty
  | ['+'] => .error .invalidDigit
  | '+' :: digits => readDigits limit 0 digits
  | digits => readDigits limit 0 digits

end Workflow.Text
