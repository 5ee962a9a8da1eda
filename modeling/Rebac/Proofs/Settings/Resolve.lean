import Rebac.Proofs.Fallible
import Rebac.Proofs.Identifier
import Rebac.Settings.Basic

set_option autoImplicit false

/-! # Clients from settings -/

namespace Rebac.Settings

variable {s s' : Settings} {c : Client}

theorem readId_text {kind : Identifier.Kind} {given : Option String} {id : Option Identifier}
    (read : readId kind given = .ok id) :
    id.map Identifier.text = given.map Identifier.canonical := by
  unfold readId at read
  split at read
  · cases read
    rfl
  · split at read
    · rename_i parsed
      cases read
      exact congrArg some (Identifier.text_canonical parsed)
    · cases read

theorem checkUrl_congr (url : s.apiUrl = s'.apiUrl) : s.checkUrl = s'.checkUrl := by
  rw [checkUrl, checkUrl, url]

theorem standingHeaders_congr (token : s.apiToken = s'.apiToken)
    (headers : s.headers = s'.headers) : s.standingHeaders = s'.standingHeaders := by
  rw [standingHeaders, standingHeaders, token, headers]

/-- What is checked of settings, and the client that they make. -/
theorem resolve_ok : s.resolve = .ok c ↔ ∃ url storeId modelId, s.checkUrl = .ok url ∧
    readId .store s.storeId = .ok storeId ∧ readId .model s.modelId = .ok modelId ∧
    s.retry.policy.validate = .ok () ∧
    c = ⟨storeId, modelId, s.standingHeaders, s.retry.policy, s.timeout⟩ := by
  simp only [resolve, Fallible.bind_ok]
  refine exists_congr fun url => ?_
  constructor
  · rintro ⟨checked, storeId, store, modelId, model, made⟩
    cases valid : s.retry.policy.validate with
    | error e =>
      rw [valid] at made
      cases made
    | ok _ =>
      rw [valid] at made
      exact ⟨storeId, modelId, checked, store, model, rfl, (Except.ok.inj made).symm⟩
  · rintro ⟨storeId, modelId, checked, store, model, valid, rfl⟩
    refine ⟨checked, storeId, store, modelId, model, ?_⟩
    rw [valid]
    rfl

end Rebac.Settings
