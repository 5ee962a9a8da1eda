import Rebac.Proofs.Dispatch.Round

set_option autoImplicit false

/-! # Transports that answer by the call -/

namespace Rebac.Dispatch

variable {α τ ε : Type}

/-! ## One item at a time -/

theorem Tracks.lone_flight {limit : Nat} {items : List α} {moves : List (Move α τ ε)}
    {p : Pool α α τ} (h : Tracks limit items moves p) (alone : limit ≤ 1) {i : Nat} {a : α}
    (flying : (i, a) ∈ inFlight moves) : ∀ j < i, ∃ x, (j, .ok x) ∈ consumed moves := by
  intro j lt
  have begun := (h.starts_get (mem_inFlight.mp flying).1).1
  have started : j ∈ (starts moves).map Prod.fst := by
    rw [h.starts_places]
    exact List.mem_range.mpr (by omega)
  obtain ⟨⟨j, b⟩, there, rfl⟩ := List.mem_map.mp started
  have landed : ∃ o, (j, o) ∈ consumed moves := by
    apply Classical.byContradiction
    intro absent
    have also := mem_inFlight.mpr ⟨there, fun o mem => absent ⟨o, mem⟩⟩
    have room := h.room
    have some := List.length_pos_of_mem also
    obtain ⟨one, eq⟩ := List.length_eq_one_iff.mp (show (inFlight moves).length = 1 by omega)
    rw [eq] at also flying
    have same := (List.mem_singleton.mp also).trans (List.mem_singleton.mp flying).symm
    exact Nat.ne_of_lt lt (congrArg Prod.fst same)
  obtain ⟨o, back⟩ := landed
  cases o with
  | error f => exact absurd back (h.succeeded j f)
  | ok x => exact ⟨x, back⟩

theorem failed_first {limit : Nat} {items : List α} {moves : List (Move α τ ε)} {e : ε}
    (alone : limit ≤ 1) (run : Runs limit items moves (.failed e)) :
    ∃ i, (i, .error e) ∈ consumed moves ∧ ∀ j < i, ∃ x, (j, .ok x) ∈ consumed moves := by
  cases run with
  | @next moves m s t earlier step =>
    cases step with
    | @fail p i a e found =>
      have tracks : Tracks limit items moves p := runs_follow earlier
      have flying := tracks.running ▸ Pool.mem_of_find? found
      refine ⟨i, by simp, fun j lt => ?_⟩
      obtain ⟨x, back⟩ := tracks.lone_flight alone flying j lt
      exact ⟨x, by simp [back]⟩

/-! ## Outcomes known beforehand -/

def Trace.AnsweredBy (answer : Call → Outcome) (trace : Trace) : Prop :=
  ∀ e ∈ trace.exchanges, e.2.2 = answer e.2.1

namespace Round

variable {r : Round τ} {s : Progress τ} {trace : Trace} {answer : Call → Outcome}

theorem final_answer (run : r.Runs s trace) (honest : trace.AnsweredBy answer) {place : Nat}
    {o : Outcome} (final : (place, o) ∈ trace.finals) :
    ∃ q, r.requests[place]? = some q ∧ o = answer q.call := by
  obtain ⟨q, here, exchanged⟩ := final_exchange run final
  exact ⟨q, here, honest _ exchanged⟩

theorem placed_requests (items : List α) : (Pool.placed items).map Prod.snd = items := by
  simp [Pool.placed, Function.comp_def]

theorem ends_ok_known {results : List τ} (ends : r.Ends trace (.ok results))
    (honest : trace.AnsweredBy answer) :
    List.Forall₂ (fun q x => q.settle (answer q.call) = .ok x) r.requests results := by
  obtain ⟨-, settled⟩ := ends_ok ends
  obtain ⟨s, run, -⟩ := ends
  have known : List.Forall₂ (fun p x => p.2.settle (answer p.2.call) = .ok x)
      (Pool.placed r.requests) results := by
    have within : ∀ p ∈ Pool.placed r.requests, p ∈ Pool.placed r.requests := fun _ mem => mem
    refine ((List.forall₂_and_left _ _).mpr ⟨within, settled⟩).imp ?_
    rintro ⟨i, q⟩ x ⟨mem, o, final, settle⟩
    obtain ⟨q', here, rfl⟩ := final_answer run honest ((final?_eq_some run).mp final)
    cases (Pool.mem_placed.mp mem).symm.trans here
    exact settle
  rw [← placed_requests r.requests]
  exact List.forall₂_map_left_iff.mpr known

theorem ends_ok_answered {results : List τ} (ends : r.Ends trace (.ok results))
    (honest : trace.AnsweredBy answer) :
    ∀ launch ∈ r.calls, trace.final? launch.1 = some (answer launch.2) := by
  intro launch mem
  have launched := (ends_ok ends).1 ▸ mem
  obtain ⟨o, final⟩ := ends_ok_finals ends launch launched
  obtain ⟨s, run, -⟩ := ends
  obtain ⟨q, here, rfl⟩ := final_answer run honest ((final?_eq_some run).mp final)
  obtain ⟨placed, there, rfl⟩ := List.mem_map.mp mem
  cases (Pool.mem_placed.mp there).symm.trans here
  exact final

theorem ends_error_known {e : ClientError} (ends : r.Ends trace (.error e))
    (honest : trace.AnsweredBy answer) :
    ∃ (i : Nat) (q : Request τ), r.requests[i]? = some q ∧
      q.settle (answer q.call) = .error e ∧ (r.limit ≤ 1 → ∀ j < i, ∀ q' : Request τ,
        r.requests[j]? = some q' → ∃ x, q'.settle (answer q'.call) = .ok x) := by
  obtain ⟨s, run, ended⟩ := ends
  obtain ⟨moves, bareRun, recounts⟩ := runs_bare run
  have known {i : Nat} {x : Except ClientError τ} (mem : (i, x) ∈ consumed moves) :
      ∃ q, r.requests[i]? = some q ∧ q.settle (answer q.call) = x := by
    obtain ⟨o, q, final, here, settle⟩ := recounts.mem_consumed.mp mem
    obtain ⟨q', here', rfl⟩ := final_answer run honest final
    cases here.symm.trans here'
    exact ⟨q, here, settle⟩
  cases s with
  | active pool =>
    simp only [State.ending?] at ended
    split at ended <;> cases ended
  | failed f =>
    cases ended
    by_cases alone : r.limit ≤ 1
    · obtain ⟨i, mem, before⟩ := failed_first alone bareRun
      obtain ⟨q, here, settle⟩ := known mem
      refine ⟨i, q, here, settle, fun _ j lt q' there => ?_⟩
      obtain ⟨x, landed⟩ := before j lt
      obtain ⟨q'', there', settle'⟩ := known landed
      cases there.symm.trans there'
      exact ⟨x, settle'⟩
    · obtain ⟨-, earlier, i, rfl, -⟩ := runs_follow bareRun
      obtain ⟨q, here, settle⟩ := known (x := .error e) (i := i) (by simp)
      exact ⟨i, q, here, settle, fun one => absurd one alone⟩

end Round

end Rebac.Dispatch
