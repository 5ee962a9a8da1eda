import Rebac.Dispatch.Round

set_option autoImplicit false

/-! # Programs of rounds -/

namespace Rebac.Dispatch

/-- What an operation does. All its rounds have results of one type. -/
inductive Program (τ α : Type) where
  | done (result : Except ClientError α) (events : List Event)
  | round (r : Round τ) (next : List τ → Program τ α)

namespace Program

variable {τ α β : Type}

def refuse (e : ClientError) : Program τ α := .done (.error e) []

def andThen (p : Program τ α) (f : α → Except ClientError β × List Event) : Program τ β :=
  match p with
  | .done (.error e) events => .done (.error e) events
  | .done (.ok a) events => .done (f a).1 (events ++ (f a).2)
  | .round r next => .round r fun results => (next results).andThen f

/-- What may be the result of a program, under any schedule of each of its rounds. The traces of
the rounds are given in their order. -/
inductive Yields : Program τ α → List Trace → Except ClientError α → Prop where
  | done {result : Except ClientError α} {events : List Event} :
      Yields (.done result events) [] result
  | failed {r : Round τ} {next : List τ → Program τ α} {e : ClientError} {trace : Trace} :
      r.Ends trace (.error e) → Yields (.round r next) [trace] (.error e)
  | finished {r : Round τ} {next : List τ → Program τ α} {results : List τ} {trace : Trace}
      {traces : List Trace} {result : Except ClientError α} :
      r.Ends trace (.ok results) → Yields (next results) traces result →
      Yields (.round r next) (trace :: traces) result

/-- What a program may have done so far, under any schedule: whole traces of the rounds that are
over, and the trace of the round at work. -/
inductive Runs : Program τ α → List Trace → Prop where
  | idle {p : Program τ α} : Runs p []
  | within {r : Round τ} {next : List τ → Program τ α} {s : Progress τ} {trace : Trace} :
      r.Runs s trace → Runs (.round r next) [trace]
  | beyond {r : Round τ} {next : List τ → Program τ α} {results : List τ} {trace : Trace}
      {traces : List Trace} :
      r.Ends trace (.ok results) → Runs (next results) traces →
      Runs (.round r next) (trace :: traces)

end Program

end Rebac.Dispatch
