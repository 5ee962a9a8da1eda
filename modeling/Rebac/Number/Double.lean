set_option autoImplicit false

/-!
# Double-precision numbers

A `Double` is kept as what it means: a sign, a whole significand and a power of two. Every
operation here is exact arithmetic on natural numbers followed by one rounding to nearest with
ties to even, so the value of a number read from text does not depend on the machine.
-/
namespace Rebac

/-- A binary floating-point number with a significand of at most 53 bits.
A finite number is `± significand * 2 ^ exponent`; its significand has 53 bits unless the
exponent is the least one. -/
inductive Double where
  | nan
  | infinite (negative : Bool)
  | finite (negative : Bool) (significand : Nat) (exponent : Int)
  deriving DecidableEq, Repr, Inhabited

namespace Double

def leastExponent : Int := -1074

def greatestExponent : Int := 971

def zero (negative : Bool) : Double := .finite negative 0 leastExponent

def roundQuotient (num den : Nat) : Nat :=
  let q := num / den
  let r := num % den
  if 2 * r < den then q
  else if den < 2 * r then q + 1
  else q + q % 2

def unscaled (num den : Nat) : Int → Nat × Nat
  | .ofNat n => (num, den * Nat.pow 2 n)
  | .negSucc n => (num * Nat.pow 2 (n + 1), den)

/-- The double nearest to `± num / den`; ties go to the even significand. -/
def ofRatio (negative : Bool) (num den : Nat) : Double :=
  if num = 0 then zero negative
  else
    let guess : Int := (num.log2 : Int) - (den.log2 : Int) - 52
    let first := unscaled num den guess
    let exact := if first.1 < first.2 * Nat.pow 2 52 then guess - 1 else guess
    let exponent := max exact leastExponent
    let parts := unscaled num den exponent
    let rounded := roundQuotient parts.1 parts.2
    let carried := rounded == Nat.pow 2 53
    let significand := if carried then Nat.pow 2 52 else rounded
    let exponent := if carried then exponent + 1 else exponent
    if greatestExponent < exponent then .infinite negative
    else .finite negative significand exponent

def ofNat (n : Nat) : Double := ofRatio false n 1

def ofInt (n : Int) : Double := ofRatio (n < 0) n.natAbs 1

def decimalLength (n : Nat) : Nat := (Nat.toDigits 10 n).length

/-- The double nearest to `± digits * 10 ^ exponent`. Beyond the range of doubles the answer is
known from the magnitude alone, so no large power is formed. -/
def ofDecimal (negative : Bool) (digits : Nat) (exponent : Int) : Double :=
  if digits = 0 then zero negative
  else
    let magnitude := exponent + decimalLength digits
    if 310 < magnitude then .infinite negative
    else if magnitude < -330 then zero negative
    else match exponent with
      | .ofNat n => ofRatio negative (digits * Nat.pow 10 n) 1
      | .negSucc n => ofRatio negative digits (Nat.pow 10 (n + 1))

def magnitude (significand : Nat) : Int → Nat × Nat
  | .ofNat n => (significand * Nat.pow 2 n, 1)
  | .negSucc n => (significand, Nat.pow 2 (n + 1))

def scale (x : Double) (num den : Nat) : Double :=
  match x with
  | .finite negative significand exponent =>
    let parts := magnitude significand exponent
    ofRatio negative (parts.1 * num) (parts.2 * den)
  | other => other

def isFinite : Double → Bool
  | .finite .. => true
  | _ => false

def isZero : Double → Bool
  | .finite _ significand _ => significand == 0
  | _ => false

/-- Equality of values: both zeros are one value, and `nan` differs from itself. -/
def same : Double → Double → Bool
  | .nan, _ => false
  | x, y => x == y || (x.isZero && y.isZero)

def roundHalfUp (num den : Nat) : Nat := (2 * num + den) / (2 * den)

/-- The nearest natural number not above `limit`; a half goes up, and what is negative or no
number at all counts as zero. -/
def toNatSaturating (limit : Nat) : Double → Nat
  | .nan => 0
  | .infinite negative => if negative then 0 else limit
  | .finite negative significand exponent =>
    if negative then 0
    else
      let parts := magnitude significand exponent
      min limit (roundHalfUp parts.1 parts.2)

end Double

end Rebac
