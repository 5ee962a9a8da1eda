import Rebac.ClientError
import Rebac.Http.Exchange
import Rebac.Proofs.Dispatch.Attempts

set_option autoImplicit false

/-! # Calls that run out of time -/

namespace Rebac.Http

variable {address path : String} {call : Call} {request : Request} {reply : Reply} {s : Nat}

inductive Reply.Overdue : Reply → Prop where
  | silent : Overdue .silent
  | stalled {status : Nat} {headers : List (String × List UInt8)} {body : List UInt8} :
      isBodiless status = false → Overdue (.answered status headers body .stalled)

def Reply.status? : Reply → Option Nat
  | .answered status _ _ _ => some status
  | _ => none

def Reply.late (path : String) : Reply → CallError
  | .answered status headers _ _ =>
    if isSuccess status then .decode "error decoding response body"
    else .http status (retryAfter? headers) none
  | _ => .timeout path

theorem Reply.Overdue.outcome_eq (overdue : reply.Overdue) (url : Url) :
    reply.outcome path url = .error (reply.late path) := by
  cases overdue with
  | silent => rfl
  | stalled whole =>
    simp only [Reply.outcome, Reply.late, successBody, failureBody, whole, Bool.false_eq_true,
      ↓reduceIte]
    split <;> rfl

theorem late_answered {headers : List (String × List UInt8)} {body : List UInt8} {ending : Ending} :
    Reply.late path (.answered s headers body ending) =
      if isSuccess s then .decode "error decoding response body"
      else .http s (retryAfter? headers) none := rfl

theorem Reply.Overdue.late_cases (overdue : reply.Overdue) (path : String) :
    (reply = .silent ∧ reply.late path = .timeout path) ∨
    (∃ s, reply.status? = some s ∧ isSuccess s = true ∧
      reply.late path = .decode "error decoding response body") ∨
    ∃ s hint, reply.status? = some s ∧ isSuccess s = false ∧
      reply.late path = .http s hint none := by
  cases overdue with
  | silent => exact .inl ⟨rfl, rfl⟩
  | @stalled status headers body _ =>
    cases success : isSuccess status with
    | true =>
      refine .inr (.inl ⟨status, rfl, success, ?_⟩)
      rw [late_answered, if_pos success]
    | false =>
      refine .inr (.inr ⟨status, retryAfter? headers, rfl, success, ?_⟩)
      rw [late_answered, if_neg (by simp [success])]

/-- A call whose time is up, as the client and as an operation sees it. -/
structure Late (address : String) (call : Call) (reply : Reply) : Prop where
  outcome : Http.outcome address call reply = .error (reply.late call.path)
  timeout : ∀ path, reply.late call.path = .timeout path ↔ reply = .silent ∧ path = call.path
  transport : (∃ text, ClientError.ofCall (reply.late call.path) = .transport text) ↔
    reply = .silent
  protocol : (∃ text, ClientError.ofCall (reply.late call.path) = .protocol text) ↔
    ∃ s, reply.status? = some s ∧ isSuccess s = true
  status : ∀ s, (reply.late call.path).status? = some s ↔
    reply.status? = some s ∧ isSuccess s = false
  retried : (reply.late call.path).retryable = true ↔
    ∃ s, reply.status? = some s ∧ (s = 429 ∨ 500 ≤ s ∧ s ≤ 599 ∧ s ≠ 501)
  fatal : (ClientError.ofCall (reply.late call.path)).fatal = true ↔
    ∃ s, reply.status? = some s ∧ (s = 401 ∨ s = 403)

theorem ofCall_http {hint : Option String} {body : Option ErrorBody} :
    (∀ text, ClientError.ofCall (.http s hint body) ≠ .transport text) ∧
      ∀ text, ClientError.ofCall (.http s hint body) ≠ .protocol text := by
  simp only [ClientError.ofCall, CallError.classOf]
  split_ifs <;> simp

theorem late_status? (overdue : reply.Overdue) : (reply.late path).status? = some s ↔
    reply.status? = some s ∧ isSuccess s = false := by
  rcases overdue.late_cases path with
    ⟨rfl, late⟩ | ⟨t, known, success, late⟩ | ⟨t, hint, known, success, late⟩
  · simp [late, Reply.status?, CallError.status?]
  · rw [late, known]
    simp only [CallError.status?, reduceCtorEq, Option.some.injEq, false_iff, not_and]
    rintro rfl
    simp [success]
  · rw [late, known]
    simp only [CallError.status?, Option.some.injEq, iff_self_and]
    rintro rfl
    exact success

theorem rejected_iff {e : CallError} :
    e.Rejected ↔ ∃ s, e.status? = some s ∧ (s = 401 ∨ s = 403) := by
  simp [CallError.Rejected, and_or_left, exists_or]

/-- The time of a call may be up at any point of the response: only before its head is that a
timeout. -/
theorem late_of_overdue (made : Request.ofCall address call = .ok request)
    (overdue : reply.Overdue) : Late address call reply := by
  -- a status for which a failure is sent again or ends a batch is that of no success
  have failure {P : Nat → Prop} (fails : ∀ s, P s → isSuccess s = false) :
      (∃ s, (reply.late call.path).status? = some s ∧ P s) ↔ ∃ s, reply.status? = some s ∧ P s := by
    refine exists_congr fun s => ?_
    rw [late_status? overdue, and_assoc, and_congr_right_iff]
    exact fun _ => and_iff_right_of_imp (fails s)
  have begun {s : Nat} (known : reply.status? = some s) : reply ≠ .silent := by
    rintro rfl
    cases known
  have outcome : Http.outcome address call reply = .error (reply.late call.path) := by
    rw [Http.outcome, made]
    exact overdue.outcome_eq request.url
  refine ⟨outcome, ?_, ?_, ?_, fun s => late_status? overdue, ?_, ?_⟩
  · intro path
    rcases overdue.late_cases call.path with
      ⟨rfl, late⟩ | ⟨s, known, -, late⟩ | ⟨s, hint, known, -, late⟩
    · simp [late, eq_comm]
    · simp [late, begun known]
    · simp [late, begun known]
  · rcases overdue.late_cases call.path with
      ⟨rfl, late⟩ | ⟨s, known, -, late⟩ | ⟨s, hint, known, -, late⟩
    · simp [late, ClientError.ofCall]
    · simp [late, begun known, ClientError.ofCall]
    · simp [late, begun known, ofCall_http.1]
  · rcases overdue.late_cases call.path with
      ⟨rfl, late⟩ | ⟨s, known, success, late⟩ | ⟨s, hint, known, failed, late⟩
    · simp [late, ClientError.ofCall, Reply.status?]
    · simp [late, known, success, ClientError.ofCall]
    · simp [late, known, failed, ofCall_http.2]
  · rw [CallError.retryable_iff]
    refine failure fun s passing => ?_
    simp only [isSuccess, Bool.and_eq_false_imp, decide_eq_true_eq, decide_eq_false_iff_not]
    omega
  · rw [ClientError.fatal_ofCall, rejected_iff]
    refine failure fun s rejected => ?_
    simp only [isSuccess, Bool.and_eq_false_imp, decide_eq_true_eq, decide_eq_false_iff_not]
    omega

end Rebac.Http
