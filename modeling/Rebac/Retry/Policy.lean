import Rebac.Retry.Hint
import Rebac.Validation

set_option autoImplicit false

/-! # Retry policies -/

namespace Rebac.Retry

structure Policy where
  maxRetries : Nat
  minWait : Duration
  maxWait : Duration
  deriving DecidableEq

namespace Policy

def allowedRetries : Nat := 15

def standard : Policy := ⟨3, .ofMillis 100, .ofSeconds 120⟩

def validate (p : Policy) : Except ValidationError Unit :=
  if allowedRetries < p.maxRetries then
    .error (.outOfRange "max_retries" p.maxRetries allowedRetries)
  else .ok ()

/-- The power of two for an attempt, counted from zero; at most `2 ^ 32 - 1`. -/
def factor (attempt : Nat) : Nat := if attempt < 32 then Nat.pow 2 attempt else Nat.pow 2 32 - 1

def backoff (p : Policy) (attempt : Nat) : Duration :=
  min (p.minWait.times (factor attempt)) p.maxWait

def delayFor (p : Policy) (attempt : Nat) (hint : Option String) (now : Instant) : Duration :=
  match hint.bind Hint.parse? with
  | some h => min (h.delayFrom now) p.maxWait
  | none => p.backoff attempt

end Policy

end Rebac.Retry
