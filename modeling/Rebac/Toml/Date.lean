import Rebac.Time.Calendar
import Rebac.Time.Scan

set_option autoImplicit false

/-!
# Dates in TOML

A date, a time, or both with or without an offset. They are kept as texts: a `T` stands before the
time, parts of a second have at most nine digits and no needless zero, and an offset of zero has a
plus.
-/
namespace Rebac.Toml

def readDate : Scan.Step (List Char) := fun cs => do
  let (year, rest) ← Scan.number 4 4 cs
  let (month, rest) ← Scan.number 2 2 (← Scan.char '-' rest)
  let (day, rest) ← Scan.number 2 2 (← Scan.char '-' rest)
  if 1 ≤ month ∧ month ≤ 12 ∧ 1 ≤ day ∧ day ≤ Calendar.monthLength year month then
    return (cs.take 10, rest)
  else none

def readFraction (cs : List Char) : Option (List Char × List Char) :=
  let digits := cs.takeWhile Number.isDigit
  let shown := ((digits.take 9).reverse.dropWhile (· = '0')).reverse
  if digits = [] then none
  else some (if shown = [] then [] else '.' :: shown, cs.dropWhile Number.isDigit)

def readTime : Scan.Step (List Char) := fun cs => do
  let (hour, rest) ← Scan.number 2 2 cs
  let (minute, rest) ← Scan.number 2 2 (← Scan.char ':' rest)
  let (second, rest) ← Scan.number 2 2 (← Scan.char ':' rest)
  if 24 ≤ hour ∨ 60 ≤ minute ∨ 60 < second then none
  else match rest with
    | '.' :: rest => (readFraction rest).map fun r => (cs.take 8 ++ r.1, r.2)
    | rest => some (cs.take 8, rest)

def readOffset : Scan.Step (List Char)
  | 'Z' :: rest => some (['Z'], rest)
  | 'z' :: rest => some (['Z'], rest)
  | sign :: cs => do
    let (hours, rest) ← Scan.number 2 2 cs
    let (minutes, rest) ← Scan.number 2 2 (← Scan.char ':' rest)
    if (sign = '+' ∨ sign = '-') ∧ hours < 24 ∧ minutes < 60 then
      return ((if hours = 0 ∧ minutes = 0 then '+' else sign) :: cs.take 5, rest)
    else none
  | [] => none

def readDateTime : Scan.Step (List Char) := fun cs => do
  let (date, rest) ← readDate cs
  match rest with
  | [] => return (date, rest)
  | mark :: behind =>
    match readTime behind with
    | none => return (date, rest)
    | some (time, behind) =>
      if mark = 'T' ∨ mark = 't' ∨ mark = ' ' then
        let (offset, behind) := (readOffset behind).getD ([], behind)
        return (date ++ 'T' :: time ++ offset, behind)
      else return (date, rest)

def readMoment (cs : List Char) : Option (String × List Char) :=
  ((readDateTime cs).or (readTime cs)).map fun r => (String.ofList r.1, r.2)

end Rebac.Toml
