import Rebac.Time.Instant
import Rebac.Time.Scan

set_option autoImplicit false

/-!
# Timestamps

`2015-10-21T07:28:00.5+02:00`: every field has its full width, `T` may be small or a blank, digits
of the fraction past the ninth are dropped, and the offset is `Z` or hours and minutes.
-/
namespace Rebac.Timestamp

def date : Scan.Step Int := fun cs => do
  let (year, cs) ← Scan.number 4 4 cs
  let cs ← Scan.char '-' cs
  let (month, cs) ← Scan.number 2 2 cs
  let cs ← Scan.char '-' cs
  let (day, cs) ← Scan.number 2 2 cs
  let date ← Calendar.date? year month day
  return (date, cs)

def separator (cs : List Char) : Option (List Char) :=
  match cs with
  | 'T' :: rest => some rest
  | 't' :: rest => some rest
  | ' ' :: rest => some rest
  | _ => none

def time : Scan.Step (Nat × Nat × Nat) := fun cs => do
  let (hour, cs) ← Scan.number 2 2 cs
  let cs ← Scan.char ':' cs
  let (minute, cs) ← Scan.number 2 2 cs
  let cs ← Scan.char ':' cs
  let (second, cs) ← Scan.number 2 2 cs
  return ((hour, minute, second), cs)

def fraction : Scan.Step Nat := fun cs => do
  let (n, rest) ← Scan.number 1 9 cs
  return (n * Nat.pow 10 (9 - (cs.length - rest.length)), rest.dropWhile Number.isDigit)

def subsecond : Scan.Step Nat := fun cs =>
  match cs with
  | '.' :: rest => fraction rest
  | cs => some (0, cs)

def offset : Scan.Step Int := fun cs =>
  match cs with
  | 'Z' :: rest => some (0, rest)
  | 'z' :: rest => some (0, rest)
  | cs => (Scan.offset true cs).filter fun found => found.1.natAbs < 86400

def parse? (cs : List Char) : Option Instant := do
  let (date, cs) ← date cs
  let cs ← separator cs
  let ((hour, minute, second), cs) ← time cs
  let (nanos, cs) ← subsecond cs
  let (offset, cs) ← offset cs
  if cs = [] then Instant.ofLocal? date hour minute second nanos offset else none

end Rebac.Timestamp
