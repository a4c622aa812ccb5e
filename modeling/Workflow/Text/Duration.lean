import Workflow.Text.Digits

/-! Durations in the largest of the units of seconds and milliseconds that they reach. -/

namespace Workflow.Text

/-- A number of thousandths below 1000 as a decimal fraction without zeros at its end. -/
def thousandths (count : Nat) : List Char :=
  if count = 0 then []
  else '.' :: ((padded 3 count).reverse.dropWhile (· = '0')).reverse

def duration (milliseconds : Nat) : String :=
  if milliseconds = 0 then "0ns"
  else if milliseconds < 1000 then String.ofList (decimal milliseconds) ++ "ms"
  else String.ofList (decimal (milliseconds / 1000) ++ thousandths (milliseconds % 1000)) ++ "s"

end Workflow.Text
