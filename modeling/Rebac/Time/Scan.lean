import Rebac.Number.Reading
import Rebac.Text.Blank

set_option autoImplicit false

/-! # Pieces of written dates -/

namespace Rebac.Scan

/-- What a reader takes from a text, and the rest of it. -/
abbrev Step (α : Type) := List Char → Option (α × List Char)

def number (least most : Nat) : Step Nat := fun cs =>
  let digits := (cs.take most).takeWhile Number.isDigit
  if digits.length < least then none
  else some (Number.ofDigits digits, cs.drop digits.length)

def longNumber (least : Nat) : Step Nat := fun cs => number least cs.length cs

def char (c : Char) (cs : List Char) : Option (List Char) :=
  match cs with
  | d :: rest => if d = c then some rest else none
  | [] => none

def blanks (cs : List Char) : List Char := cs.dropWhile Text.isBlank

def someBlanks (cs : List Char) : Option (List Char) :=
  match cs with
  | c :: rest => if Text.isBlank c then some (blanks rest) else none
  | [] => none

def shortName (names : List String) : Step Nat := fun cs =>
  (names.idxOf? (String.ofList ((cs.take 3).map Char.toLower))).map fun i => (i, cs.drop 3)

/-- Hours and minutes of an offset with a sign, in seconds; `separated` asks for a colon. -/
def offset (separated : Bool) : Step Int := fun cs => do
  let (negative, rest) ← match cs with
    | '+' :: rest => some (false, rest)
    | '-' :: rest => some (true, rest)
    | '\u2212' :: rest => if separated then some (true, rest) else none
    | _ => none
  let (hours, rest) ← number 2 2 rest
  let rest ← if separated then char ':' rest else some rest
  let (minutes, rest) ← number 2 2 rest
  if 60 ≤ minutes then none
  else
    let secs : Int := (hours * 3600 + minutes * 60 : Nat)
    return (if negative then -secs else secs, rest)

end Rebac.Scan
