import Rebac.Time.Instant
import Rebac.Time.Scan

set_option autoImplicit false

/-!
# Dates as in mail headers

`Wed, 21 Oct 2015 07:28:00 GMT`: the weekday may be left out but must be right, years of two or
three digits are of the last century or this one, the zone is an offset, one of a few names or a
single letter, and comments in parentheses may follow it.
-/
namespace Rebac.MailDate

def weekdays : List String := ["sun", "mon", "tue", "wed", "thu", "fri", "sat"]

def months : List String :=
  ["jan", "feb", "mar", "apr", "may", "jun", "jul", "aug", "sep", "oct", "nov", "dec"]

def zones : List (String × Int) :=
  [("gmt", 0), ("ut", 0), ("z", 0), ("edt", -4), ("est", -5), ("cdt", -5), ("cst", -6),
   ("mdt", -6), ("mst", -7), ("pdt", -7), ("pst", -8)]

/-- A zone as seconds from UTC. A single letter but `J` says nothing about the offset, which is
taken for zero. -/
def zone : Scan.Step Int := fun cs =>
  let letters := (cs.takeWhile Char.isAlpha).map Char.toLower
  let rest := cs.dropWhile Char.isAlpha
  if letters = [] then Scan.offset false cs
  else match zones.lookup (String.ofList letters) with
    | some hours => some (hours * 3600, rest)
    | none => if letters.length = 1 ∧ letters ≠ ['j'] then some (0, rest) else none

/-- What follows a comment that is open `depth` deep; a backslash covers the next character. -/
def closeComment : Nat → List Char → Option (List Char)
  | _, [] => none
  | depth, '\\' :: _ :: rest => closeComment depth rest
  | _, ['\\'] => none
  | depth, '(' :: rest => closeComment (depth + 1) rest
  | depth, ')' :: rest => if depth ≤ 1 then some rest else closeComment (depth - 1) rest
  | depth, _ :: rest => closeComment depth rest

def onlyComments : Nat → List Char → Bool
  | _, [] => true
  | 0, _ => false
  | fuel + 1, cs =>
    match Scan.blanks cs with
    | '(' :: rest =>
      match closeComment 1 rest with
      | some rest => onlyComments fuel rest
      | none => false
    | _ => false

def fullYear (digits year : Nat) : Nat :=
  if digits = 2 ∧ year < 50 then year + 2000
  else if digits = 2 ∨ digits = 3 then year + 1900
  else year

def weekday : Scan.Step (Option Nat) := fun cs =>
  match Scan.shortName weekdays cs with
  | some (day, rest) => (Scan.char ',' rest).map fun rest => (some day, rest)
  | none => some (none, cs)

def year : Scan.Step Nat := fun cs => do
  let (year, rest) ← Scan.longNumber 2 cs
  return (fullYear (cs.length - rest.length) year, rest)

/-- The day number of a date, whose weekday must be right if it is named. -/
def date : Scan.Step Int := fun cs => do
  let (named, cs) ← weekday cs
  let (day, cs) ← Scan.number 1 2 (Scan.blanks cs)
  let cs ← Scan.someBlanks cs
  let (month, cs) ← Scan.shortName months cs
  let cs ← Scan.someBlanks cs
  let (year, cs) ← year cs
  let date ← Calendar.date? year (month + 1) day
  if named.all fun w => w == Calendar.weekday date then some (date, cs) else none

def seconds : Scan.Step Nat := fun cs =>
  match Scan.char ':' (Scan.blanks cs) with
  | some rest => Scan.number 2 2 rest
  | none => some (0, cs)

def time : Scan.Step (Nat × Nat × Nat) := fun cs => do
  let (hour, cs) ← Scan.number 2 2 cs
  let cs ← Scan.char ':' (Scan.blanks cs)
  let (minute, cs) ← Scan.number 2 2 (Scan.blanks cs)
  let (second, cs) ← seconds cs
  return ((hour, minute, second), cs)

def parse? (cs : List Char) : Option Instant := do
  let (date, cs) ← date (Scan.blanks cs)
  let cs ← Scan.someBlanks cs
  let ((hour, minute, second), cs) ← time cs
  let cs ← Scan.someBlanks cs
  let (offset, cs) ← zone cs
  if onlyComments (cs.length + 1) cs then Instant.ofLocal? date hour minute second 0 offset
  else none

end Rebac.MailDate
