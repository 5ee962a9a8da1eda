import Rebac.Time.MailDate
import Rebac.Time.Timestamp

set_option autoImplicit false

/-!
# Retry hints

What a server sends to say how long to wait: a number of seconds with `s` behind it, a bare number
of seconds, or a point in time as a bare number, a mail date or a timestamp.
-/
namespace Rebac.Retry

inductive Hint where
  | relative (delay : Duration)
  | absolute (instant : Instant)
  deriving DecidableEq

namespace Hint

/-- Bare numbers from here on are seconds since 1970. -/
def epochThreshold : Int := 1000000000

def ofSeconds? (n : Int) : Option Hint :=
  if n < epochThreshold then some (.relative (.ofSeconds n.toNat))
  else if n ≤ Instant.lastSecond then some (.absolute ⟨n, 0⟩)
  else none

def suffixed? (cs : List Char) : Option Double :=
  match cs.reverse with
  | 's' :: rest => Number.readDouble? (Text.trim rest.reverse)
  | _ => none

def date? (cs : List Char) : Option Hint :=
  ((MailDate.parse? cs).or (Timestamp.parse? cs)).map .absolute

/-- Reads a hint without the white space around it. A number with `s` that is too great for a
delay is not usable, and neither is a bare one past the last date. -/
def parse? (hint : String) : Option Hint :=
  let cs := Text.trim hint.toList
  if cs = [] then none
  else match suffixed? cs with
    | some x => (Duration.ofDouble? x).map .relative
    | none =>
      match Number.readInt64? cs with
      | some n => ofSeconds? n
      | none => date? cs

def delayFrom (now : Instant) : Hint → Duration
  | .relative delay => delay
  | .absolute instant => now.untilFrom instant

end Hint

end Rebac.Retry
