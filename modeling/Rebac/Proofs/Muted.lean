import Rebac.Dispatch.Round
import Rebac.Question.Answer
import Mathlib.Tactic.SplitIfs

set_option autoImplicit false

/-!
# The texts of failures

With a failure a server may send a code and a message. `mute` takes away what they have become in
errors, events and verdicts, and leaves all else: the status, what kind of error it is, and whom it
concerns. What is done about a failure depends on what is left alone.
-/
namespace Rebac

/-! ## What is left without the texts -/

def CallError.mute : CallError → CallError
  | .http status hint _ => .http status hint none
  | e => e

def Outcome.mute : Outcome → Outcome
  | .ok response => .ok response
  | .error e => .error e.mute

/-- The kind of an error and its status, without what the server said about it. -/
def ClientError.mute : ClientError → ClientError
  | .authentication _ => .authentication ""
  | .authorization _ => .authorization ""
  | .rateLimited _ => .rateLimited ""
  | .service status _ => .service status ""
  | .notImplemented _ => .notImplemented ""
  | .invalidRequest status _ _ => .invalidRequest status none ""
  | .notFound _ => .notFound ""
  | e => e

def Event.mute : Event → Event
  | .retriesExhausted attempts _ => .retriesExhausted attempts ""
  | .checkFailed id _ => .checkFailed id ""
  | .groupFailed items _ => .groupFailed items ""
  | .chunkFailed side tuples _ => .chunkFailed side tuples ""
  | e => e

def Verdict.mute (v : Verdict) : Verdict := { v with error := v.error.map ClientError.mute }

def TupleOutcome.mute (x : TupleOutcome) : TupleOutcome :=
  { x with error := x.error.map ClientError.mute }

def WriteReport.mute (report : WriteReport) : WriteReport :=
  ⟨report.writes.map (List.map TupleOutcome.mute), report.deletes.map (List.map TupleOutcome.mute)⟩

def muted {α : Type} (f : α → α) : Except ClientError α → Except ClientError α
  | .ok a => .ok (f a)
  | .error e => .error e.mute

def Retry.Reaction.mute : Retry.Reaction → Retry.Reaction
  | .final outcome => .final outcome.mute
  | .again wait => .again wait

/-! ## What does not depend on the texts -/

theorem CallError.retryable_mute (e : CallError) : e.mute.retryable = e.retryable := by
  cases e <;> rfl

theorem CallError.retryAfter?_mute (e : CallError) : e.mute.retryAfter? = e.retryAfter? := by
  cases e <;> rfl

theorem CallError.status?_mute (e : CallError) : e.mute.status? = e.status? := by
  cases e <;> rfl

theorem ClientError.fatal_mute (e : ClientError) : e.mute.fatal = e.fatal := by
  cases e <;> rfl

theorem ClientError.mute_ofCall (e : CallError) : (ofCall e.mute).mute = (ofCall e).mute := by
  cases e with
  | http status hint body =>
    simp only [CallError.mute, ofCall, CallError.classOf]
    split_ifs <;> rfl
  | timeout path => rfl
  | connection reason => rfl
  | decode reason => rfl

theorem ClientError.fatal_ofCall_mute (e : CallError) :
    (ofCall e.mute).fatal = (ofCall e).fatal := by
  rw [← fatal_mute, mute_ofCall, fatal_mute]

namespace Retry.Policy

theorem react_mute (p : Policy) (attempt : Nat) (now : Instant) (outcome : Outcome) :
    p.react attempt now outcome.mute = (p.react attempt now outcome).mute := by
  cases outcome with
  | ok response => rfl
  | error e =>
    simp only [Outcome.mute, react, CallError.retryable_mute, CallError.retryAfter?_mute]
    split <;> rfl

theorem notes_mute (p : Policy) (attempt : Nat) (now : Instant) (outcome : Outcome) :
    (p.notes attempt now outcome.mute).map Event.mute =
      (p.notes attempt now outcome).map Event.mute := by
  cases outcome with
  | ok response => rfl
  | error e =>
    simp only [Outcome.mute, notes, CallError.retryable_mute, CallError.retryAfter?_mute,
      CallError.status?_mute]
    split
    · rfl
    · split <;> rfl

end Retry.Policy

theorem Answer.ofOutcome_mute {α : Type} (decode : Json → Json.Decoded α) (outcome : Outcome) :
    muted id (ofOutcome decode outcome.mute) = muted id (ofOutcome decode outcome) := by
  cases outcome with
  | ok response => rfl
  | error e => exact congrArg Except.error (ClientError.mute_ofCall e)

theorem muted_ok {α : Type} {f : α → α} {a : α} {y : Except ClientError α}
    (eq : muted f (.ok a) = muted f y) : ∃ b, y = .ok b ∧ f a = f b := by
  cases y with
  | ok b => exact ⟨b, rfl, Except.ok.inj eq⟩
  | error e => cases eq

theorem muted_error {α : Type} {f : α → α} {d : ClientError} {y : Except ClientError α}
    (eq : muted f (.error d) = muted f y) : ∃ e, y = .error e ∧ d.mute = e.mute := by
  cases y with
  | ok b => cases eq
  | error e => exact ⟨e, rfl, Except.error.inj eq⟩

end Rebac
