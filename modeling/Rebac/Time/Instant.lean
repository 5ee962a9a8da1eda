import Rebac.Time.Calendar
import Rebac.Time.Duration

set_option autoImplicit false

/-!
# Instants

An instant is a second since 1970 and a number of nanoseconds into it. A leap second is the second
billion of nanoseconds of the second before it, so 23:59:60.75 is 1.75 seconds into 23:59:59.
-/
namespace Rebac

structure Instant where
  secs : Int
  nanos : Nat
  deriving DecidableEq, Repr

namespace Instant

def lastSecond : Int := 8210266876799

def isLeap (t : Instant) : Bool := Nat.pow 10 9 ≤ t.nanos

def secondOfDay (t : Instant) : Int := t.secs % 86400

/-- The nanoseconds from `start` to `t`. A leap second counts when the earlier of the two times of
day lies in one. -/
def nanosSince (t start : Instant) : Int :=
  let extra : Int :=
    if start.secondOfDay < t.secondOfDay then (if start.isLeap then 1 else 0)
    else if t.secondOfDay < start.secondOfDay then (if t.isLeap then -1 else 0)
    else 0
  (t.secs - start.secs + extra) * Int.pow 10 9 + ((t.nanos : Int) - start.nanos)

def untilFrom (now t : Instant) : Duration := .ofNanos (t.nanosSince now).toNat

/-- A date, a time of day and an offset from UTC in seconds. Second 60 is a leap second. -/
def ofLocal? (dayNumber : Int) (hour minute second nanos : Nat) (offset : Int) :
    Option Instant :=
  if hour < 24 ∧ minute < 60 ∧ second ≤ 60 ∧ -86400 < offset ∧ offset < 86400 then
    let leap := second = 60
    let second := if leap then 59 else second
    let secs := dayNumber * 86400 + (hour * 3600 + minute * 60 + second : Nat) - offset
    if secs ≤ lastSecond then some ⟨secs, if leap then nanos + Nat.pow 10 9 else nanos⟩ else none
  else none

end Instant

end Rebac
