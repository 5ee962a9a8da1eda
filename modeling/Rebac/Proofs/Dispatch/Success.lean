import Rebac.Proofs.Dispatch.Answers
import Rebac.Proofs.Dispatch.Attempts

set_option autoImplicit false

/-! # Transports that accept every call -/

namespace Rebac.Dispatch

variable {τ : Type} {r : Round τ} {s : Progress τ} {trace : Trace}

def Trace.Welcomed (trace : Trace) : Prop :=
  ∀ e ∈ trace.exchanges, ∃ response, e.2.2 = .ok response

theorem Trace.AnsweredBy.welcomed {answer : Call → Outcome} (honest : trace.AnsweredBy answer)
    (accepts : ∀ call, ∃ response, answer call = .ok response) : trace.Welcomed := by
  intro e mem
  rw [honest e mem]
  exact accepts e.2.1

namespace Trace.Welcomed

theorem nil : Welcomed [] := nofun

theorem start {effects : List Effect} (fine : trace.Welcomed) :
    Welcomed ((.start, effects) :: trace) := fine

theorem answer {place : Nat} {response : Response} {read : Instant} {effects : List Effect}
    (fine : trace.Welcomed) : Welcomed ((.answer place (.ok response) read, effects) :: trace) := by
  intro e mem
  rcases List.mem_append.mp mem with earlier | last
  · exact fine e earlier
  · obtain ⟨call, -, rfl⟩ := Option.map_eq_some_iff.mp (Option.mem_toList.mp last)
    exact ⟨response, rfl⟩

end Trace.Welcomed

namespace Round

theorem welcomed_sent (run : r.Runs s trace) (welcomed : trace.Welcomed) :
    trace.sent = trace.launches := by
  apply sent_launches run
  rintro e mem ⟨err, failed, -⟩
  obtain ⟨response, eq⟩ := welcomed e mem
  cases eq.symm.trans failed

theorem welcomed_final (run : r.Runs s trace) (welcomed : trace.Welcomed) {place : Nat}
    {o : Outcome} (final : (place, o) ∈ trace.finals) : ∃ response, o = .ok response := by
  obtain ⟨q, -, exchanged⟩ := final_exchange run final
  exact welcomed _ exchanged

theorem ends_welcomed {ending : Except ClientError (List τ)} (ends : r.Ends trace ending)
    (welcomed : trace.Welcomed)
    (settles : ∀ q ∈ r.requests, ∀ response, ∃ x, q.settle (.ok response) = .ok x) :
    trace.sent = r.calls ∧ ∃ results, ending = .ok results ∧
      List.Forall₂ (fun q x => ∃ response, q.settle (.ok response) = .ok x) r.requests results := by
  cases ending with
  | error e =>
    obtain ⟨i, o, q, final, here, settled⟩ := (ends_error_iff ends e).mp rfl
    obtain ⟨s, run, -⟩ := ends
    obtain ⟨response, rfl⟩ := welcomed_final run welcomed final
    obtain ⟨x, fine⟩ := settles q (List.mem_of_getElem? here) response
    cases fine.symm.trans settled
  | ok results =>
    obtain ⟨launched, settled⟩ := ends_ok ends
    obtain ⟨s, run, -⟩ := ends
    refine ⟨(welcomed_sent run welcomed).trans launched, results, rfl, ?_⟩
    rw [← placed_requests r.requests]
    refine List.forall₂_map_left_iff.mpr (settled.imp ?_)
    rintro placed x ⟨o, final, settle⟩
    obtain ⟨response, rfl⟩ := welcomed_final run welcomed ((final?_eq_some run).mp final)
    exact ⟨response, settle⟩

end Round

end Rebac.Dispatch
