import Workflow.Timestamp.Basic

/-! Spans of time, and the times that lie such a span away from each other. -/

namespace Workflow

/-- A number of seconds, forward or backward, with no more milliseconds than a signed word of 64
bits holds. -/
structure Span where
  seconds : Int
  valid : seconds.natAbs * 1000 < 0x8000000000000000
deriving DecidableEq, Repr

def Span.ofSeconds? (seconds : Int) : Option Span :=
  if valid : seconds.natAbs * 1000 < 0x8000000000000000 then some ⟨seconds, valid⟩ else none

/-- A word of 64 bits as a signed one, if it fits. -/
def signedWord? (word : Nat) : Option Int :=
  if word < 0x8000000000000000 then some word else none

namespace Timestamp

/-- The time that lies a span away, unless it cannot be represented. A step out of a leap second
counts from the second before it if it goes forward, and from the one after it if it goes back. -/
def add? (time : Timestamp) (span : Span) : Option Timestamp :=
  if time.isLeap ∧ span.seconds ≠ 0 then
    make? (time.seconds + (if span.seconds < 0 then 1 else 0) + span.seconds)
      (time.nanos - 1_000_000_000)
  else make? (time.seconds + span.seconds) time.nanos

/-- Outside a leap second a span changes nothing but the seconds of a time. -/
theorem add?_eq {time : Timestamp} (ordinary : time.isLeap = false) (span : Span) :
    time.add? span = make? (time.seconds + span.seconds) time.nanos :=
  if_neg fun leaps => absurd leaps.1 (Bool.eq_false_iff.mp ordinary)

end Timestamp

end Workflow
