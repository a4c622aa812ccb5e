import Workflow.Text.Blank
import Workflow.Text.Digits
import Workflow.Timestamp.Basic

/-! The written form of a time stamp, in UTC with as many groups of three fraction digits as are
needed, and the lenient reading of date, time and offset. -/

namespace Workflow.Timestamp

open Text

def yearChars (year : Int) : List Char :=
  if 0 ≤ year ∧ year ≤ 9999 then padded 4 year.toNat
  else (if year < 0 then '-' else '+') :: padded (if year < 0 then 4 else 5) year.natAbs

def fractionChars (nanos : Nat) : List Char :=
  if nanos = 0 then []
  else if nanos % 1_000_000 = 0 then '.' :: padded 3 (nanos / 1_000_000)
  else if nanos % 1_000 = 0 then '.' :: padded 6 (nanos / 1_000)
  else '.' :: padded 9 nanos

def chars (time : Timestamp) : List Char :=
  let date := Date.ofDays (time.seconds / 86400)
  let second := (time.seconds % 86400).toNat
  let (second, nanos, extra) :=
    if time.isLeap then (second, time.nanos - 1_000_000_000, 1) else (second, time.nanos, 0)
  yearChars date.year ++ '-' :: padded 2 date.month ++ '-' :: padded 2 date.day ++
    'T' :: padded 2 (second / 3600) ++ ':' :: padded 2 (second / 60 % 60) ++
    ':' :: padded 2 (second % 60 + extra) ++ fractionChars nanos ++ ['Z']

def text (time : Timestamp) : String :=
  String.ofList time.chars

/-- One to `width` digits at the front, or any number of them. -/
def number? (width : Option Nat) (chars : List Char) : Option (Nat × List Char) :=
  let digits := chars.takeWhile Char.isDigit
  let digits := match width with
    | some width => digits.take width
    | none => digits
  (natural? digits).map fun value => (value, chars.drop digits.length)

/-- A field of at most two digits, blanks before it skipped. -/
def field? (chars : List Char) : Option (Nat × List Char) :=
  number? (some 2) (trimStart chars)

/-- A year: four digits, or any number of them after a sign. -/
def year? (chars : List Char) : Option (Int × List Char) :=
  match trimStart chars with
  | '-' :: rest => (number? none rest).map fun (value, rest) => (-(value : Int), rest)
  | '+' :: rest => (number? none rest).map fun (value, rest) => ((value : Int), rest)
  | rest => (number? (some 4) rest).map fun (value, rest) => ((value : Int), rest)

def mark? (mark : Char) (chars : List Char) : Option (List Char) :=
  match trimStart chars with
  | c :: rest => if c = mark then some rest else none
  | [] => none

def date? (chars : List Char) : Option (Date × List Char) := do
  let (year, chars) ← year? chars
  let (month, chars) ← field? (← mark? '-' chars)
  let (day, chars) ← field? (← mark? '-' chars)
  some (⟨year, month, day⟩, chars)

/-- Fraction digits after a point; the first nine count. -/
def fraction? (chars : List Char) : Option (Nat × List Char) :=
  match chars with
  | '.' :: rest => do
    let digits := rest.takeWhile Char.isDigit
    let kept := digits.take 9
    let value ← natural? kept
    some (value * Nat.pow 10 (9 - kept.length), rest.drop digits.length)
  | chars => some (0, chars)

/-- Seconds of the day and nanoseconds; a second of 60 is a leap second. -/
def time? (chars : List Char) : Option ((Nat × Nat) × List Char) := do
  let (hour, chars) ← field? chars
  let (minute, chars) ← field? (← mark? ':' chars)
  let (second, chars) ← field? (← mark? ':' chars)
  let (nanos, chars) ← fraction? chars
  if 23 < hour ∨ 59 < minute ∨ 60 < second then none
  else
    let whole := hour * 3600 + minute * 60
    if second = 60 then some ((whole + 59, nanos + 1_000_000_000), chars)
    else some ((whole + second, nanos), chars)

def hoursAndMinutes? (chars : List Char) : Option (Nat × List Char) := do
  let (hours, chars) ← takeExact 2 chars
  let hours ← natural? hours
  let chars := chars.dropWhile fun c => c = ':' || isBlank c
  let (minutes, chars) ← takeExact 2 chars
  let minutes ← natural? minutes
  if 59 < minutes then none else some (hours * 3600 + minutes * 60, chars)

def offset? (chars : List Char) : Option (Int × List Char) :=
  if (chars.take 3).map Char.toLower = "utc".toList then some (0, chars.drop 3)
  else
    match chars with
    | 'Z' :: rest => some (0, rest)
    | 'z' :: rest => some (0, rest)
    | '+' :: rest => (hoursAndMinutes? rest).map fun (value, rest) => ((value : Int), rest)
    | '-' :: rest => (hoursAndMinutes? rest).map fun (value, rest) => (-(value : Int), rest)
    | '−' :: rest => (hoursAndMinutes? rest).map fun (value, rest) => (-(value : Int), rest)
    | _ => none

def isSeparator (c : Char) : Bool :=
  c = 'T' || c = 't' || c = ' '

def ofChars? (chars : List Char) : Option Timestamp := do
  let (date, chars) ← date? chars
  let (separator, chars) ← chars.head?.map (·, chars.drop 1)
  if !isSeparator separator then none
  let ((second, nanos), chars) ← time? chars
  let (offset, chars) ← offset? (trimStart chars)
  if !(trimStart chars).isEmpty ∨ 86400 ≤ offset.natAbs ∨ ¬ date.Valid then none
  let localSeconds := date.toDays * 86400 + second
  let _ ← make? localSeconds nanos
  make? (localSeconds - offset) nanos

def ofText? (text : String) : Option Timestamp :=
  ofChars? text.toList

end Workflow.Timestamp
