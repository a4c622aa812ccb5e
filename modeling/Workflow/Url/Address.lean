import Workflow.Text.Digits
import Workflow.Url.Percent

/-! Addresses of hosts: four numbers with points between them, or eight groups of hexadecimal digits
with colons between them, where a double colon stands for groups of zero. -/

namespace Workflow.Url

open Text

/-- A number from 0 to 255 without zeros in front. -/
def octet? (chars : List Char) : Option Nat := do
  let value ← natural? chars
  if value ≤ 255 ∧ decimal value = chars then some value else none

def fourOctets? (chars : List Char) : Option (List Nat) := do
  let octets ← (splitAtEvery '.' chars).mapM octet?
  if octets.length = 4 then some octets else none

def group? (chars : List Char) : Option Nat := do
  let digits ← chars.mapM hexDigit?
  if 1 ≤ digits.length ∧ digits.length ≤ 4 then some (ofDigits 16 digits) else none

/-- Groups with colons between them. The last two may be written as four numbers. -/
def groups? : List (List Char) → Option (List Nat)
  | [] => some []
  | [last] =>
    match group? last, fourOctets? last with
    | some group, _ => some [group]
    | none, some [a, b, c, d] => some [a * 256 + b, c * 256 + d]
    | none, _ => none
  | piece :: rest => do
    let group ← group? piece
    return group :: (← groups? rest)

/-- Groups before a double colon, which end in none written as four numbers. -/
def plainGroups? (chars : List Char) : Option (List Nat) :=
  if chars.isEmpty then some [] else (splitAtEvery ':' chars).mapM group?

/-- What stands on either side of the first double colon. -/
def splitAtDoubleColon : List Char → Option (List Char × List Char)
  | [] => none
  | [_] => none
  | c :: d :: rest =>
    if c = ':' ∧ d = ':' then some ([], rest)
    else (splitAtDoubleColon (d :: rest)).map fun (before, after) => (c :: before, after)

def eightGroups? (chars : List Char) : Option (List Nat) := do
  match splitAtDoubleColon chars with
  | none =>
    let groups ← groups? (splitAtEvery ':' chars)
    if groups.length = 8 then some groups else none
  | some (before, after) =>
    let first ← plainGroups? before
    let last ← if after.isEmpty then some [] else groups? (splitAtEvery ':' after)
    if first.length + last.length ≤ 7 then
      some (first ++ List.replicate (8 - first.length - last.length) 0 ++ last)
    else none

/-- How many groups of zero stand in front. -/
def zerosInFront (groups : List Nat) : Nat :=
  (groups.takeWhile (· = 0)).length

/-- The longest run of zeros, the first of several: where it begins and how long it is. -/
def longestZeros (groups : List Nat) : Nat × Nat :=
  (List.range groups.length).foldl (fun best start =>
    let run := zerosInFront (groups.drop start)
    if best.2 < run then (start, run) else best) (0, 0)

def groupsText (groups : List Nat) : List Char :=
  (groups.map (Nat.toDigits 16)).intersperse [':'] |>.flatten

/-- An address with its longest run of zeros left out, where that is more than one. -/
def addressText (groups : List Nat) : List Char :=
  let (start, run) := longestZeros groups
  if run < 2 then groupsText groups
  else groupsText (groups.take start) ++ [':', ':'] ++ groupsText (groups.drop (start + run))

def isAddress (text : String) : Bool :=
  (fourOctets? text.toList).isSome || (eightGroups? text.toList).isSome

end Workflow.Url
