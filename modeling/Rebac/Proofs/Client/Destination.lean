import Rebac.Proofs.Client.Calls
import Rebac.Proofs.Settings.Resolve

set_option autoImplicit false

/-! # Where calls go -/

namespace Rebac.Client

open Dispatch Identifier

variable {s : Settings} {c : Client} {o : RequestOptions} {call : Call} {traces : List Trace}

structure Directed (s : Settings) (o : RequestOptions) (call : Call) : Prop where
  store : ∃ raw endpoint, s.storeId = some raw ∧
    call.path = "/stores/" ++ canonical raw ++ "/" ++ endpoint
  model : Body.model? call.body = (o.modelId.or s.modelId).map canonical

theorem chooseModel_canonical {named given modelId : Option String}
    (standing : c.modelId.map text = given.map canonical)
    (chosen : c.chooseModel named = .ok modelId) :
    modelId = (named.or given).map canonical := by
  unfold chooseModel at chosen
  split at chosen
  · cases chosen
    exact standing
  · split at chosen
    · rename_i read
      cases chosen
      exact congrArg some (text_canonical read)
    · cases chosen

theorem makes_directed (opened : s.resolve = .ok c) (made : c.Makes o call) :
    Directed s o call := by
  obtain ⟨url, storeId, modelId, -, store, model, -, rfl⟩ := Settings.resolve_ok.mp opened
  obtain ⟨p, ready, endpoint, body, rfl, names⟩ := made
  obtain ⟨id, here, path, chosen, -⟩ := prepare_ok ready
  obtain ⟨raw, given, same⟩ : ∃ raw, s.storeId = some raw ∧ canonical raw = id.text := by
    have texts := Settings.readId_text store
    cases here
    rwa [Option.map_some, eq_comm, Option.map_eq_some_iff] at texts
  refine ⟨⟨raw, endpoint, given, ?_⟩, ?_⟩
  · rw [Prepared.call, path, storePath, same]
  · exact names.trans (chooseModel_canonical (Settings.readId_text model) chosen)

/-- Every call goes to the store and names the model that were given, each in canonical form. An
accepted text keeps its letters in this form just when its first digit is below eight, and two texts
have one form when they differ in case and in the high bits of the first digit alone. -/
theorem sent_ids_canonical (opened : s.resolve = .ok c) (run : c.Operates o traces) :
    (∀ trace ∈ traces, ∀ sent ∈ trace.sent, Directed s o sent.2) ∧
      (∀ raw id, parse raw = .ok id → (canonical raw = capitals raw ↔ leading raw < 8)) ∧
      ∀ raw raw', canonical raw = canonical raw' ↔ leading raw % 8 = leading raw' % 8 ∧
        raw.toList.tail.map Char.toUpper = raw'.toList.tail.map Char.toUpper := by
  refine ⟨fun trace mem sent there => ?_, fun _ _ => canonical_eq_capitals,
    fun _ _ => canonical_eq_canonical⟩
  exact makes_directed opened (run.makes trace mem sent there)

def eighth : Settings where
  apiUrl := "http://localhost"
  storeId := some "80000000000000000000000000"

theorem eighth_sent : ∃ c trace sent, eighth.resolve = .ok c ∧
    (c.check anneReads {}).Runs [trace] ∧ sent ∈ trace.sent ∧
    sent.2.path = "/stores/00000000000000000000000000/check" := by
  have opened : eighth.resolve =
      .ok ⟨some (ofNat 0), none, [], eighth.retry.policy, eighth.timeout⟩ :=
    Fallible.toOption_ok.mp (by decide +kernel)
  obtain ⟨trace, run, sent⟩ := check_sends (c := ⟨some (ofNat 0), none, [], eighth.retry.policy,
    eighth.timeout⟩) (o := {}) rfl anneReads
  exact ⟨_, trace, _, opened, run, sent, rfl⟩

theorem eighth_sent_as_zeroth : ∃ c traces, eighth.resolve = .ok c ∧ c.Operates {} traces ∧
    ∃ trace ∈ traces, ∃ sent ∈ trace.sent, Directed eighth {} sent.2 ∧
      sent.2.path = "/stores/00000000000000000000000000/check" := by
  obtain ⟨c, trace, sent, opened, run, mem, path⟩ := eighth_sent
  have directed := (sent_ids_canonical opened (.check run)).1 trace (List.mem_singleton_self trace)
  exact ⟨c, [trace], opened, .check run, trace, List.mem_singleton_self trace, sent, mem,
    directed sent mem, path⟩

/-- Not every store that is accepted is the one that calls go to, and texts that differ in more than
case name one store. -/
theorem ids_not_kept :
    ¬ (∀ (s : Settings) (c : Client) (o : RequestOptions) (traces : List Trace),
      s.resolve = .ok c → c.Operates o traces → ∀ raw, s.storeId = some raw →
      ∀ trace ∈ traces, ∀ sent ∈ trace.sent, ∃ endpoint,
        sent.2.path = "/stores/" ++ capitals raw ++ "/" ++ endpoint) ∧
    ¬ ∀ raw raw' id, parse raw = .ok id → parse raw' = .ok id → capitals raw = capitals raw' := by
  constructor
  · intro kept
    obtain ⟨c, trace, sent, opened, run, mem, path⟩ := eighth_sent
    obtain ⟨endpoint, same⟩ := kept eighth c {} [trace] opened (.check run) _ rfl trace
      (List.mem_singleton_self trace) sent mem
    rw [path] at same
    have first := congrArg (fun path : String => path.toList[8]?) same
    simp [capitals] at first
  · intro apart
    have same := apart "80000000000000000000000000" "00000000000000000000000000" (ofNat 0) rfl rfl
    exact absurd same (by decide)

end Rebac.Client
