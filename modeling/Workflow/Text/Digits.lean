/-! Reading and writing digits. -/

namespace Workflow.Text

def decimalDigit? (c : Char) : Option Nat :=
  if c.isDigit then some (c.toNat - '0'.toNat) else none

def hexDigit? (c : Char) : Option Nat :=
  if '0' ≤ c ∧ c ≤ '9' then some (c.toNat - '0'.toNat)
  else if 'a' ≤ c ∧ c ≤ 'f' then some (c.toNat - 'a'.toNat + 10)
  else if 'A' ≤ c ∧ c ≤ 'F' then some (c.toNat - 'A'.toNat + 10)
  else none

/-- The number written by digits of a base, most significant first. -/
def ofDigits (base : Nat) (digits : List Nat) : Nat :=
  digits.foldl (fun value digit => value * base + digit) 0

/-- Reads a text of one or more decimal digits and nothing else. -/
def natural? (chars : List Char) : Option Nat :=
  if chars.isEmpty then none else (chars.mapM decimalDigit?).map (ofDigits 10)

def padded (width value : Nat) : List Char :=
  let digits := Nat.toDigits 10 value
  List.replicate (width - digits.length) '0' ++ digits

def decimal (value : Nat) : List Char :=
  Nat.toDigits 10 value

def hexChar (digit : Nat) : Char :=
  Nat.digitChar digit

/-- Takes exactly `count` characters off the front. -/
def takeExact (count : Nat) (chars : List Char) : Option (List Char × List Char) :=
  if count ≤ chars.length then some (chars.splitAt count) else none

/-- Whether `part` stands somewhere in `whole`. -/
def occursIn (part : List Char) : List Char → Bool
  | [] => part.isEmpty
  | c :: rest => part.isPrefixOf (c :: rest) || occursIn part rest

end Workflow.Text
