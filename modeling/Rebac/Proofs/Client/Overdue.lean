import Rebac.Proofs.Client.Failures
import Rebac.Proofs.Http.Overdue

set_option autoImplicit false

/-! # What is told of calls that run out of time -/

namespace Rebac.Client

open Dispatch Http

variable {address : String} {call : Call} {request : Http.Request} {reply : Reply}

/-- What becomes of a call whose time is up before its whole response has come, and that it is so
told by every operation of which it was the last attempt of a request. -/
theorem late_calls_told (made : Request.ofCall address call = .ok request)
    (overdue : reply.Overdue) : Late address call reply ∧ ∀ (c : Client) (supply : Batch.IdSupply),
      c.TellsFailure supply (Http.outcome address call reply)
        (.ofCall (reply.late call.path)) := by
  have late := late_of_overdue made overdue
  refine ⟨late, fun c supply => ?_⟩
  rw [late.outcome]
  exact failures_told c supply (reply.late call.path)

/-- A server that rejects the credentials and does not end the body of its response ends a batch. -/
theorem stalled_rejection_told : ∃ call traces result,
    Late "http://localhost" call (.answered 401 [] [] .stalled) ∧
    ((ofStore (.ofNat 1)).checkEach (fun _ => "") [anneReads, bobReads] {}).Yields traces result ∧
    (∃ trace ∈ traces, (0, call) ∈ trace.sent ∧ trace.final? 0 =
      some (Http.outcome "http://localhost" call (.answered 401 [] [] .stalled))) ∧
    result = .error (.authentication "HTTP 401") := by
  obtain ⟨p, ready, sendable⟩ : ∃ p, (ofStore (.ofNat 1)).prepare {} = .ok p ∧
      (Request.ofCall "http://localhost" (p.checkCall anneReads)).toOption.isSome = true :=
    ⟨_, rfl, by decide +kernel⟩
  obtain ⟨request, made⟩ := Fallible.toOption_isSome.mp sendable
  have overdue : Reply.Overdue (.answered 401 [] [] .stalled) := .stalled rfl
  obtain ⟨late, told⟩ := late_calls_told made overdue
  have outcome : Http.outcome "http://localhost" (p.checkCall anneReads)
      (.answered 401 [] [] .stalled) = .error (.http 401 none none) := late.outcome
  have run : ∃ trace, (eachRound p {} [⟨"a", anneReads⟩, ⟨"b", bobReads⟩]).Ends trace
      (.error (.authentication "HTTP 401")) ∧ (0, p.checkCall anneReads) ∈ trace.sent ∧
      trace.final? 0 = some (.error (.http 401 none none)) :=
    ⟨_, ⟨_, .next (.next .opened (c := .start) rfl)
      (c := .answer 0 (.error (.http 401 none none)) ⟨0, 0⟩) rfl, rfl⟩, List.mem_cons_self, rfl⟩
  obtain ⟨trace, ends, sent, final⟩ := run
  have yields : ((ofStore (.ofNat 1)).checkEach (fun _ => "") [anneReads, bobReads] {}).Yields
      [trace] (.error (.authentication "HTTP 401")) := by
    rw [checkEach_round (b := {}) rfl (by simp) ready]
    exact .failed ends
  have mem := List.mem_singleton_self trace
  rw [← outcome] at final
  have blamed := (told (ofStore (.ofNat 1)) fun _ => "").checkEach _ _ _ _ yields trace mem 0 final
  exact ⟨_, [trace], _, late, yields, ⟨trace, mem, sent, final⟩,
    blamed.1 (late.fatal.mpr ⟨401, rfl, .inl rfl⟩)⟩

theorem late_not_timeout : ¬ ∀ (address : String) (call : Call) (request : Http.Request)
    (reply : Reply), Request.ofCall address call = .ok request → reply.Overdue →
      Http.outcome address call reply = .error (.timeout call.path) ∧
        ∀ err, Http.outcome address call reply = .error err →
          ∃ text, ClientError.ofCall err = .transport text := by
  intro always
  obtain ⟨request, made⟩ : ∃ request, Request.ofCall "http://localhost"
      ⟨"/stores/plan/check", [], .null, none⟩ = .ok request :=
    Fallible.toOption_isSome.mp (by decide +kernel)
  have stalled := always _ _ request (.answered 200 [] [] .stalled) made (.stalled rfl)
  rw [Http.outcome, made] at stalled
  cases stalled.1

end Rebac.Client
