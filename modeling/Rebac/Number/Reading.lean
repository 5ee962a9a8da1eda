import Rebac.Number.Double

set_option autoImplicit false

/-! # Numbers in text -/

namespace Rebac.Number

def digitValue? (c : Char) : Option Nat :=
  if '0' ≤ c ∧ c ≤ '9' then some (c.toNat - 48) else none

def isDigit (c : Char) : Bool := (digitValue? c).isSome

def digitIn? (base : Nat) (c : Char) : Option Nat :=
  let c := c.toLower
  let d := if '0' ≤ c ∧ c ≤ '9' then c.toNat - 48 else if 'a' ≤ c ∧ c ≤ 'z' then c.toNat - 87 else 36
  if d < base then some d else none

def numberIn? (base : Nat) (cs : List Char) : Option Nat :=
  cs.foldlM (fun acc c => (digitIn? base c).map (acc * base + ·)) 0

def ofDigits (cs : List Char) : Nat :=
  cs.foldl (fun acc c => acc * 10 + (digitValue? c).getD 0) 0

def readNat? (cs : List Char) : Option Nat :=
  if cs ≠ [] ∧ cs.all isDigit then some (ofDigits cs) else none

def splitSign : List Char → Bool × List Char
  | '-' :: rest => (true, rest)
  | '+' :: rest => (false, rest)
  | rest => (false, rest)

def readInt? (cs : List Char) : Option Int :=
  let parts := splitSign cs
  (readNat? parts.2).map fun n => if parts.1 then -(n : Int) else n

def readInt64? (cs : List Char) : Option Int :=
  (readInt? cs).filter fun n => -(Int.pow 2 63) ≤ n ∧ n < Int.pow 2 63

def readExponent? : List Char → Option Int
  | [] => some 0
  | c :: rest => if c = 'e' ∨ c = 'E' then readInt? rest else none

/-- A double: digits with an optional point and an optional power of ten, or a word for an
infinity or for no number, in any case of letters. -/
def readDouble? (cs : List Char) : Option Double :=
  let parts := splitSign cs
  let word := parts.2.map Char.toLower
  if word = ['i', 'n', 'f'] ∨ word = ['i', 'n', 'f', 'i', 'n', 'i', 't', 'y'] then
    some (.infinite parts.1)
  else if word = ['n', 'a', 'n'] then some .nan
  else
    let whole := parts.2.takeWhile isDigit
    let rest := parts.2.dropWhile isDigit
    let (fraction, rest) := match rest with
      | '.' :: rest => (rest.takeWhile isDigit, rest.dropWhile isDigit)
      | rest => ([], rest)
    if whole = [] ∧ fraction = [] then none
    else (readExponent? rest).map fun power =>
      .ofDecimal parts.1 (ofDigits (whole ++ fraction)) (power - fraction.length)

end Rebac.Number
