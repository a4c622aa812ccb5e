/-! Points in time: seconds since 1970 and nanoseconds. A leap second is the second before it with
a thousand million nanoseconds or more. -/

namespace Workflow

structure Date where
  year : Int
  month : Nat
  day : Nat
deriving DecidableEq, Repr

namespace Date

def isLeapYear (year : Int) : Bool :=
  (year % 4 == 0 && year % 100 != 0) || year % 400 == 0

def daysInMonth (year : Int) (month : Nat) : Nat :=
  if month = 2 then (if isLeapYear year then 29 else 28)
  else if month = 4 ∨ month = 6 ∨ month = 9 ∨ month = 11 then 30
  else 31

def Valid (date : Date) : Prop :=
  1 ≤ date.month ∧ date.month ≤ 12 ∧ 1 ≤ date.day ∧ date.day ≤ daysInMonth date.year date.month

instance (date : Date) : Decidable date.Valid := by
  unfold Valid
  infer_instance

/-- Days since the first of March of year 0 that `month` months and `day` days after a first of
March amount to; years begin in March here, so that leap days come last. -/
def dayOfMarchYear (month day : Nat) : Nat :=
  (153 * ((month + 9) % 12) + 2) / 5 + day - 1

def toDays (date : Date) : Int :=
  let year := if date.month ≤ 2 then date.year - 1 else date.year
  let era := year / 400
  let yearOfEra := year % 400
  let dayOfEra := yearOfEra * 365 + yearOfEra / 4 - yearOfEra / 100 +
    dayOfMarchYear date.month date.day
  era * 146097 + dayOfEra - 719468

def ofDays (days : Int) : Date :=
  let shifted := days + 719468
  let era := shifted / 146097
  let dayOfEra := (shifted % 146097).toNat
  let yearOfEra := (dayOfEra - dayOfEra / 1460 + dayOfEra / 36524 - dayOfEra / 146096) / 365
  let dayOfYear := dayOfEra - (365 * yearOfEra + yearOfEra / 4 - yearOfEra / 100)
  let shiftedMonth := (5 * dayOfYear + 2) / 153
  let day := dayOfYear - (153 * shiftedMonth + 2) / 5 + 1
  let month := if shiftedMonth < 10 then shiftedMonth + 3 else shiftedMonth - 9
  let year := era * 400 + yearOfEra
  ⟨if month ≤ 2 then year + 1 else year, month, day⟩

end Date

namespace Timestamp

/-- The first second of the year -262143. -/
def firstSecond : Int := -8334601228800

/-- The last second of the year 262142. -/
def lastSecond : Int := 8210266876799

def Valid (seconds : Int) (nanos : Nat) : Prop :=
  firstSecond ≤ seconds ∧ seconds ≤ lastSecond ∧
    (nanos < 1_000_000_000 ∨ (nanos < 2 * 1_000_000_000 ∧ seconds % 60 = 59))

instance (seconds : Int) (nanos : Nat) : Decidable (Valid seconds nanos) := by
  unfold Valid
  infer_instance

end Timestamp

structure Timestamp where
  seconds : Int
  nanos : Nat
  valid : Timestamp.Valid seconds nanos
deriving DecidableEq, Repr

namespace Timestamp

def make? (seconds : Int) (nanos : Nat) : Option Timestamp :=
  if valid : Valid seconds nanos then some ⟨seconds, nanos, valid⟩ else none

theorem make?_eq_some {seconds : Int} {nanos : Nat} {time : Timestamp} :
    make? seconds nanos = some time ↔ time.seconds = seconds ∧ time.nanos = nanos := by
  unfold make?
  split
  next valid =>
    obtain ⟨_, _, _⟩ := time
    simp only [Option.some.injEq, mk.injEq, eq_comm]
  next invalid =>
    refine ⟨nofun, fun same => absurd ?_ invalid⟩
    rw [← same.1, ← same.2]
    exact time.valid

def epoch : Timestamp :=
  ⟨0, 0, by decide⟩

instance : Inhabited Timestamp := ⟨epoch⟩

def isLeap (time : Timestamp) : Bool :=
  1_000_000_000 ≤ time.nanos

/-- Microseconds since the start of the year 2000, what is below one cut towards zero. A leap
second counts as the second after it. -/
def microsSince2000 (time : Timestamp) : Int :=
  Int.tdiv ((time.seconds - 946684800) * 1_000_000_000 + time.nanos) 1000

def ofMicrosSince2000? (micros : Int) : Option Timestamp :=
  make? (946684800 + micros / 1_000_000) ((micros % 1_000_000).toNat * 1000)

/-- The time kept by a column with microsecond precision. -/
def toMicros (time : Timestamp) : Timestamp :=
  (ofMicrosSince2000? time.microsSince2000).getD time

end Timestamp

end Workflow
