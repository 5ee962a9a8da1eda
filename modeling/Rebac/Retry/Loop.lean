import Rebac.Event
import Rebac.Call
import Rebac.Retry.Policy

set_option autoImplicit false

/-!
# The retry rule

`Policy.react` says what follows from the outcome of one attempt: it is final, or the same call is
sent again after a wait. `Policy.run` applies the rule to a sequence of outcomes until one is
final.
-/
namespace Rebac.Retry

inductive Reaction where
  | final (outcome : Outcome)
  | again (wait : Duration)
  deriving DecidableEq

namespace Policy

/-- The rule for the outcome of an attempt, counted from zero. A success is final, and so is a
failure that may not be retried or comes when no retries are left. -/
def react (p : Policy) (attempt : Nat) (now : Instant) (outcome : Outcome) : Reaction :=
  match outcome with
  | .ok _ => .final outcome
  | .error e =>
    if e.retryable ∧ attempt < p.maxRetries then .again (p.delayFor attempt e.retryAfter? now)
    else .final outcome

def notes (p : Policy) (attempt : Nat) (now : Instant) (outcome : Outcome) : List Event :=
  match outcome with
  | .ok _ => []
  | .error e =>
    if !e.retryable then []
    else if attempt < p.maxRetries then
      [.retrying (attempt + 1) p.maxRetries (e.status?.getD 0)
        (p.delayFor attempt e.retryAfter? now).millis64]
    else [.retriesExhausted (attempt + 1) e.describe]

structure Run where
  outcome : Outcome
  waits : List Duration
  events : List Event

def runFrom (p : Policy) (now : Nat → Instant) (outcomes : Nat → Outcome) :
    (left attempt : Nat) → Run
  | 0, attempt => ⟨outcomes attempt, [], p.notes attempt (now attempt) (outcomes attempt)⟩
  | left + 1, attempt =>
    let events := p.notes attempt (now attempt) (outcomes attempt)
    match p.react attempt (now attempt) (outcomes attempt) with
    | .final outcome => ⟨outcome, [], events⟩
    | .again wait =>
      let rest := runFrom p now outcomes left (attempt + 1)
      ⟨rest.outcome, wait :: rest.waits, events ++ rest.events⟩

def run (p : Policy) (now : Nat → Instant) (outcomes : Nat → Outcome) : Run :=
  p.runFrom now outcomes p.maxRetries 0

end Policy

end Rebac.Retry
