import Rebac.Proofs.Client.Addresses
import Rebac.Proofs.Identifier.Texts

set_option autoImplicit false

/-! # The store in a path -/

namespace Rebac

variable {raw : String} {id : Identifier}

namespace Identifier

/-- An identifier that is told by its text: it is what is read from the text in any case of the
letters, for a setting of either kind too, and what is decoded from the text. -/
structure Told (id : Identifier) : Prop where
  written : Written id.text
  parsed : ∀ raw, capitals raw = id.text → parse raw = .ok id
  setting : ∀ raw (kind : Kind), capitals raw = id.text →
    Settings.readId kind (some raw) = .ok (some id)
  decoded : decode id.toJson = .ok id

theorem told (id : Identifier) : Told id where
  written := text_written id
  parsed _ := parse_text
  setting raw kind same := by rw [Settings.readId, parse_text same]
  decoded := decode_toJson id

end Identifier

namespace Client

def Spelt (path : String) : Prop := ∃ store endpoint, Identifier.Written store ∧
  endpoint ∈ endpoints ∧ path = "/stores/" ++ store ++ "/" ++ endpoint

theorem EndpointPath.spelt {path : String} (at_ : EndpointPath path) : Spelt path := by
  obtain ⟨store, endpoint, known, rfl⟩ := at_
  exact ⟨store.text, endpoint, Identifier.text_written store, known, rfl⟩

/-- Identifiers and the texts of 26 digits in capitals of which the first is at most seven are one
to one. What is read at all is told by the length and the bytes, and the length comes first. So the
path of every call of every client goes through such a text. -/
theorem identifier_texts :
    (∀ id : Identifier, id.Told) ∧ Function.Injective Identifier.text ∧
    (∀ raw, Identifier.Written raw → ∃ id : Identifier, id.text = raw) ∧
    (∀ raw, Identifier.Reading raw) ∧
    ∀ (c : Client) (o : RequestOptions) (traces : List Dispatch.Trace), c.Operates o traces →
      ∀ trace ∈ traces, ∀ sent ∈ trace.sent, Spelt sent.2.path :=
  ⟨Identifier.told, Identifier.text_injective, fun _ => Identifier.Written.exists_text,
    Identifier.parse_reading,
    fun _ _ _ run trace mem sent there => (run.atEndpoint trace mem sent there).spelt⟩

def smallLetters : Settings where
  apiUrl := "http://localhost"
  storeId := some "01arz3ndektsv4rrffq69g5fav"

/-- A store that is given in small letters is in the path in capitals. -/
theorem small_letters_spelt : ∃ c traces, OpenedBy smallLetters c ∧ c.Operates {} traces ∧
    ∃ trace ∈ traces, ∃ sent ∈ trace.sent, Spelt sent.2.path ∧
      sent.2.path = "/stores/" ++ "01ARZ3NDEKTSV4RRFFQ69G5FAV" ++ "/" ++ "check" := by
  obtain ⟨told, -, images, -, paths⟩ := identifier_texts
  have digits : "01ARZ3NDEKTSV4RRFFQ69G5FAV".toList.all Identifier.alphabet.contains = true := by
    decide
  obtain ⟨id, text⟩ := images "01ARZ3NDEKTSV4RRFFQ69G5FAV"
    ⟨by decide, fun c mem => List.contains_iff_mem.mp (List.all_eq_true.mp digits c mem), _, _, rfl,
      by decide⟩
  have stored := (told id).setting "01arz3ndektsv4rrffq69g5fav" .store (by rw [text]; decide)
  obtain ⟨u, checked⟩ : ∃ u, smallLetters.checkUrl = .ok u :=
    Fallible.toOption_isSome.mp (by decide +kernel)
  have resolved := Settings.resolve_ok.mpr ⟨u, some id, none, checked, stored, rfl, rfl, rfl⟩
  obtain ⟨trace, checks, there⟩ := check_sends (c := ⟨some id, none, smallLetters.standingHeaders,
    smallLetters.retry.policy, smallLetters.timeout⟩) (o := {}) rfl anneReads
  have run := Operates.check checks
  have mem := List.mem_singleton_self trace
  refine ⟨_, [trace], .resolved resolved, run, trace, mem, _, there,
    paths _ _ _ run trace mem _ there, ?_⟩
  rw [← text]
  rfl

end Client

end Rebac
