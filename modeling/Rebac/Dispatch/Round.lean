import Rebac.ClientError
import Rebac.Dispatch.Pool
import Rebac.Retry.Loop

set_option autoImplicit false

/-!
# Rounds of requests

A round sends a list of requests through a bounded pool. Each request is one call, sent again as
the retry rule says, and what its final outcome amounts to. `Round.next?` is the change that a
choice of the world brings about: the next request is started, the answer to a call arrives, or
the wait before the next attempt is over. A schedule is any sequence of such choices.
-/
namespace Rebac.Dispatch

/-- A call and what its final outcome amounts to: a result, or an error that ends the round. -/
structure Request (τ : Type) where
  call : Call
  settle : Outcome → Except ClientError τ
  report : Outcome → List Event

inductive Phase where
  | awaiting
  | pausing
  deriving DecidableEq, Repr

structure Task (τ : Type) where
  request : Request τ
  failures : Nat
  phase : Phase

structure Round (τ : Type) where
  policy : Retry.Policy
  limit : Nat
  requests : List (Request τ)

abbrev Progress (τ : Type) := State (Request τ) (Task τ) τ ClientError

inductive Choice where
  | start
  | answer (place : Nat) (outcome : Outcome) (now : Instant)
  | wake (place : Nat)

/-- What a change does to the world. A request is completed by the outcome that is final. -/
inductive Effect where
  | sent (place : Nat) (call : Call)
  | paused (place : Nat) (wait : Duration)
  | completed (place : Nat) (outcome : Outcome)
  | noted (event : Event)

/-- The choices of a schedule and all that they did, last first. -/
abbrev Trace := List (Choice × List Effect)

namespace Round

variable {τ : Type}

def opening (r : Round τ) : Progress τ := .active (.load r.limit r.requests)

def launch (request : Request τ) : Task τ := ⟨request, 0, .awaiting⟩

def onAnswer (policy : Retry.Policy) (pool : Pool (Request τ) (Task τ) τ) (place : Nat)
    (task : Task τ) (outcome : Outcome) (now : Instant) : Progress τ × List Effect :=
  let notes := (policy.notes task.failures now outcome).map Effect.noted
  match policy.react task.failures now outcome with
  | .again wait =>
    (.active (pool.update place { task with failures := task.failures + 1, phase := .pausing }),
      notes ++ [.paused place wait])
  | .final outcome =>
    let notes := notes ++ (task.request.report outcome).map Effect.noted
    let effects := notes ++ [.completed place outcome]
    match task.request.settle outcome with
    | .ok result => (.active (pool.complete place result), effects)
    | .error e => (.failed e, effects)

def next? (policy : Retry.Policy) (s : Progress τ) (c : Choice) :
    Option (Progress τ × List Effect) :=
  match s with
  | .failed _ => none
  | .active pool =>
    match c with
    | .start =>
      (pool.start? launch).map fun started =>
        (.active started.2.2, [.sent started.1 started.2.1.request.call])
    | .answer place outcome now =>
      match pool.find? place with
      | some task =>
        if task.phase = .awaiting then some (onAnswer policy pool place task outcome now)
        else none
      | none => none
    | .wake place =>
      match pool.find? place with
      | some task =>
        if task.phase = .pausing then
          some (.active (pool.update place { task with phase := .awaiting }),
            [.sent place task.request.call])
        else none
      | none => none

inductive Runs (r : Round τ) : Progress τ → Trace → Prop where
  | opened : Runs r r.opening []
  | next {s t : Progress τ} {c : Choice} {effects : List Effect} {trace : Trace} :
      Runs r s trace → next? r.policy s c = some (t, effects) →
      Runs r t ((c, effects) :: trace)

def Ends (r : Round τ) (trace : Trace) (result : Except ClientError (List τ)) : Prop :=
  ∃ s, r.Runs s trace ∧ s.ending? = some result

end Round

end Rebac.Dispatch
