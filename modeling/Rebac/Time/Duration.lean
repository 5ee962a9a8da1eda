import Rebac.Number.Double

set_option autoImplicit false

/-!
# Lengths of time

A `Duration` is a number of nanoseconds with a greatest value, the last nanosecond before
`2 ^ 64` seconds. What would be longer is that greatest value.
-/
namespace Rebac

structure Duration where
  nanos : Nat
  nanos_lt : nanos < Nat.pow 2 64 * Nat.pow 10 9 := by decide
  deriving DecidableEq, Repr

namespace Duration

instance : Inhabited Duration := ⟨⟨0, by decide⟩⟩

def zero : Duration := ⟨0, by decide⟩

def greatest : Duration := ⟨Nat.pow 2 64 * Nat.pow 10 9 - 1, by decide⟩

def ofNanos (n : Nat) : Duration :=
  if h : n < Nat.pow 2 64 * Nat.pow 10 9 then ⟨n, h⟩ else greatest

def ofMillis (n : Nat) : Duration := ofNanos (n * Nat.pow 10 6)

def ofSeconds (n : Nat) : Duration := ofNanos (n * Nat.pow 10 9)

def seconds (d : Duration) : Nat := d.nanos / Nat.pow 10 9

def subsecond (d : Duration) : Nat := d.nanos % Nat.pow 10 9

def wholeMillis (d : Duration) : Nat := d.nanos / Nat.pow 10 6

def millis64 (d : Duration) : Nat := min d.wholeMillis (Nat.pow 2 64 - 1)

instance : LE Duration := ⟨fun a b => a.nanos ≤ b.nanos⟩

instance (a b : Duration) : Decidable (a ≤ b) := inferInstanceAs (Decidable (a.nanos ≤ b.nanos))

instance : Min Duration := ⟨fun a b => if a ≤ b then a else b⟩

def times (d : Duration) (factor : Nat) : Duration := ofNanos (d.nanos * factor)

/-- A number of seconds to the nearest nanosecond, a half to the even one. What is negative or no
number is no time at all; `2 ^ 64` seconds and more are too many. -/
def ofDouble? : Double → Option Duration
  | .nan => some zero
  | .infinite negative => if negative then some zero else none
  | .finite negative significand exponent =>
    if negative then some zero
    else
      let parts := Double.magnitude significand exponent
      if Nat.pow 2 64 * parts.2 ≤ parts.1 then none
      else some (ofNanos (Double.roundQuotient (parts.1 * Nat.pow 10 9) parts.2))

end Duration

end Rebac
