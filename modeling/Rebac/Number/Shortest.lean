import Rebac.Number.Double

set_option autoImplicit false

/-!
# The shortest decimal text of a double

`Double.shortest` finds the fewest decimal digits that read back as the given number, and of
those the nearest. The interval of reals that round to the number is compared with the decimal
grids of one, two, … seventeen digits in exact arithmetic. Two layouts of the digits follow: the
one used inside JSON texts and the positional one.
-/
namespace Rebac.Double

structure Decimal where
  digits : Nat
  exponent : Int
  deriving DecidableEq, Repr

/-- The reals that round to a double, as `low / den ≤ x ≤ high / den` around `mid / den`; the
ends belong to it when `closed`. -/
structure Interval where
  low : Nat
  mid : Nat
  high : Nat
  den : Nat
  closed : Bool

/-- The neighbours of a power of two are closer below than above. -/
def interval (significand : Nat) (exponent : Int) : Interval :=
  let below := if significand = Nat.pow 2 52 ∧ leastExponent < exponent then 1 else 2
  let unit := magnitude 1 (exponent - 2)
  { low := (4 * significand - below) * unit.1
    mid := 4 * significand * unit.1
    high := (4 * significand + 2) * unit.1
    den := unit.2
    closed := significand % 2 == 0 }

def decimalParts (num den : Nat) : Int → Nat × Nat
  | .ofNat n => (num, den * Nat.pow 10 n)
  | .negSucc n => (num * Nat.pow 10 (n + 1), den)

def leadingExponent (num den : Nat) : Int :=
  if den ≤ num then (decimalLength (num / den) : Int) - 1
  else
    let guess := decimalLength (den / num) - 1
    if den ≤ num * Nat.pow 10 guess then -(guess : Int) else -(guess + 1 : Int)

def Interval.holds (i : Interval) (d : Decimal) : Bool :=
  let low := decimalParts i.low i.den d.exponent
  let high := decimalParts i.high i.den d.exponent
  if i.closed then low.1 ≤ d.digits * low.2 && d.digits * high.2 ≤ high.1
  else low.1 < d.digits * low.2 && d.digits * high.2 < high.1

/-- The point of the grid with this exponent that reads back, the nearer of two. -/
def Interval.onGrid? (i : Interval) (exponent : Int) : Option Decimal :=
  let mid := decimalParts i.mid i.den exponent
  let down : Decimal := ⟨mid.1 / mid.2, exponent⟩
  let up : Decimal := ⟨mid.1 / mid.2 + 1, exponent⟩
  match i.holds down, i.holds up with
  | true, true =>
    let r := mid.1 % mid.2
    if 2 * r < mid.2 then some down
    else if mid.2 < 2 * r then some up
    else if down.digits % 2 = 0 then some down else some up
  | true, false => some down
  | false, true => some up
  | false, false => none

def Decimal.trim (d : Decimal) : Nat → Decimal
  | 0 => d
  | fuel + 1 =>
    if d.digits ≠ 0 ∧ d.digits % 10 = 0 then
      Decimal.trim ⟨d.digits / 10, d.exponent + 1⟩ fuel
    else d

/-- The fewest digits that read back as `significand * 2 ^ exponent`. -/
def shortest (significand : Nat) (exponent : Int) : Decimal :=
  let i := interval significand exponent
  let lead := leadingExponent i.mid i.den
  let found := (List.range 17).findSome? fun n => i.onGrid? (lead - (n : Nat))
  (found.getD ⟨0, 0⟩).trim 18

def digitChars (n : Nat) : List Char := Nat.toDigits 10 n

def sign (negative : Bool) : List Char := if negative then ['-'] else []

def positional (d : Decimal) : List Char :=
  let digits := digitChars d.digits
  let point : Int := digits.length + d.exponent
  if 0 ≤ d.exponent then digits ++ List.replicate d.exponent.toNat '0'
  else if 0 < point then digits.take point.toNat ++ '.' :: digits.drop point.toNat
  else '0' :: '.' :: (List.replicate (-point).toNat '0' ++ digits)

def scientific (d : Decimal) : List Char :=
  let digits := digitChars d.digits
  let power : Int := digits.length + d.exponent - 1
  let tail := match digits.drop 1 with
    | [] => []
    | rest => '.' :: rest
  digits.take 1 ++ tail ++ 'e' :: (toString power).toList

def toPlain : Double → String
  | .nan => "NaN"
  | .infinite negative => if negative then "-inf" else "inf"
  | .finite negative significand exponent =>
    if significand = 0 then String.ofList (sign negative ++ ['0'])
    else String.ofList (sign negative ++ positional (shortest significand exponent))

def toPointed (x : Double) : String :=
  let text := toPlain x
  if x.isFinite && !text.toList.contains '.' then text ++ ".0" else text

/-- The layout inside JSON: positional while the leading digit stands between `10 ^ -5` and
`10 ^ 15`, and with a power of ten outside. What is no finite number is written `null`. -/
def toJson : Double → String
  | .finite negative significand exponent =>
    if significand = 0 then String.ofList (sign negative ++ ['0', '.', '0'])
    else
      let d := shortest significand exponent
      let point : Int := (digitChars d.digits).length + d.exponent
      let body :=
        if -5 < point ∧ point ≤ 16 then
          if 0 ≤ d.exponent then positional d ++ ['.', '0'] else positional d
        else scientific d
      String.ofList (sign negative ++ body)
  | _ => "null"

end Rebac.Double
