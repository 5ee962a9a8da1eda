import Rebac.Proofs.Fallible
import Rebac.Proofs.Headers
import Rebac.Proofs.Settings.Tree
import Rebac.Settings.Decode

set_option autoImplicit false

/-! # Settings read from a tree -/

namespace Rebac.Settings

open Rebac.Settings.Tree

variable {α : Type} {t : Tree} {es : Entries} {s : Settings} {key key' name : String}
  {at? : Option Tree} {default value : α}
  {read : Tree → Loaded α}

def Settles (default : α) (read : Tree → Loaded α) (at? : Option Tree) (value : α) : Prop :=
  at?.elim (.ok default) read = .ok value

theorem settingOr_ok : settingOr default t name read = .ok value ↔
    Settles default read (t.child? name) value := by
  rw [settingOr, Settles]
  cases t.child? name with
  | none => rfl
  | some inner => rfl

/-! ## Groups of settings -/

structure Reads (t : Tree) (s : Settings) : Prop where
  apiUrl : ∃ given, t.child? "api_url" = some given ∧ readText "api_url" given = .ok s.apiUrl
  storeId : Settles none (readOptional "store_id") (t.child? "store_id") s.storeId
  modelId : Settles none (readOptional "authorization_model_id")
    (t.child? "authorization_model_id") s.modelId
  apiToken : Settles none (readOptional "api_token") (t.child? "api_token") s.apiToken
  headers : Settles [] (readHeaders "default_headers") (t.child? "default_headers") s.headers
  retry : Settles {} (readRetry "retry") (t.child? "retry") s.retry
  timeoutMillis : Settles standardTimeoutMillis (readNatural "timeout_ms") (t.child? "timeout_ms")
    s.timeoutMillis

theorem ofTree_ok : ofTree t = .ok s ↔ Reads t s := by
  simp only [ofTree, Fallible.bind_ok, settingOr_ok]
  constructor
  · rintro ⟨url, given, storeId, store, modelId, model, apiToken, token, headers, standing, retry,
      policy, timeoutMillis, timeout, made⟩
    cases url with
    | none => cases made
    | some url =>
      cases made
      refine ⟨?_, store, model, token, standing, policy, timeout⟩
      cases here : t.child? "api_url" with
      | none =>
        rw [here] at given
        cases given
      | some inner =>
        rw [here, Settles, Option.elim_some, Fallible.map_ok] at given
        obtain ⟨text, text', eq⟩ := given
        cases eq
        exact ⟨inner, rfl, text'⟩
  · rintro ⟨⟨inner, here, given⟩, store, model, token, standing, policy, timeout⟩
    refine ⟨some s.apiUrl, ?_, _, store, _, model, _, token, _, standing, _, policy, _, timeout,
      rfl⟩
    rw [Settles, here, Option.elim_some, given]
    rfl

/-- What stands for a retry setting, in a table or in a list. -/
def retryField? (t : Tree) (place : Nat) (name : String) : Option Tree :=
  match t with
  | .list items _ => items[place]?
  | t => t.child? name

theorem readNatural_key {n : Nat} (read : readNatural key t = .ok n) :
    readNatural key' t = .ok n := by
  unfold readNatural at read ⊢
  split at read
  · split at read
    · cases read
    · rename_i whole
      rw [if_neg whole]
      exact read
  · exact read
  · exact read
  · split at read
    · exact read
    · cases read
  · cases read

theorem readSmall_key {n : Nat} (read : readSmall key t = .ok n) : readSmall key' t = .ok n := by
  obtain ⟨m, whole, small⟩ := Fallible.bind_ok.mp read
  refine Fallible.bind_ok.mpr ⟨m, readNatural_key whole, ?_⟩
  split at small
  · rename_i few
    rw [if_pos few]
    exact small
  · cases small

theorem Settles.mono {read' : Tree → Loaded α} (settles : Settles default read at? value)
    (same : ∀ t v, read t = .ok v → read' t = .ok v) : Settles default read' at? value := by
  unfold Settles at settles ⊢
  cases at? with
  | none => exact settles
  | some t => exact same t value settles

theorem settles_item (got : (match at? with
      | some item => read item
      | none => .ok default) = .ok value) : Settles default read at? value := by
  unfold Settles
  cases at? with
  | none => exact got
  | some item => exact got

structure ReadsRetry (at? : Option Tree) (r : RetrySettings) : Prop where
  maxRetries : Settles 3 (readSmall "retry.max_retries")
    (at?.bind (retryField? · 0 "max_retries")) r.maxRetries
  minWaitMillis : Settles 100 (readNatural "retry.min_wait_ms")
    (at?.bind (retryField? · 1 "min_wait_ms")) r.minWaitMillis
  maxWaitMillis : Settles 120000 (readNatural "retry.max_wait_ms")
    (at?.bind (retryField? · 2 "max_wait_ms")) r.maxWaitMillis

theorem settles_retry {r : RetrySettings} (settles : Settles {} (readRetry key) at? r) :
    ReadsRetry at? r := by
  cases at? with
  | none =>
    cases settles
    exact ⟨rfl, rfl, rfl⟩
  | some t =>
    have read : readRetry key t = .ok r := settles
    unfold readRetry at read
    split at read
    -- a list has other keys than a table, which values do not depend on
    · simp only [Fallible.bind_ok, settingOr_ok] at read
      obtain ⟨maxRetries, few, minWait, least, maxWait, most, made⟩ := read
      cases made
      exact ⟨few.mono fun _ _ => readSmall_key, least.mono fun _ _ => readNatural_key,
        most.mono fun _ _ => readNatural_key⟩
    · simp only [Fallible.bind_ok] at read
      obtain ⟨maxRetries, few, minWait, least, maxWait, most, made⟩ := read
      cases made
      exact ⟨(settles_item few).mono fun _ _ => readSmall_key,
        (settles_item least).mono fun _ _ => readNatural_key,
        (settles_item most).mono fun _ _ => readNatural_key⟩
    · cases read

/-! ## Headers -/

theorem readHeaders_ordered {h : Headers} (read : readHeaders key t = .ok h) :
    Headers.Ordered h := by
  unfold readHeaders at read
  split at read
  · obtain ⟨pairs, -, made⟩ := Fallible.bind_ok.mp read
    cases made
    exact Headers.ordered_ofList pairs
  · cases read

theorem readHeaders_entry {h : Headers} {inner : Tree} (distinct : Distinct t)
    (read : readHeaders key t = .ok h) (here : t.child? name = some inner) :
    ∃ text, readText (key ++ "." ++ name) inner = .ok text ∧ (name, text) ∈ h := by
  unfold readHeaders at read
  split at read
  · rename_i es origin
    obtain ⟨pairs, each, made⟩ := Fallible.bind_ok.mp read
    cases made
    have related : List.Forall₂ (fun e p => readText (key ++ "." ++ e.1) e.2 = .ok p.2 ∧ p.1 = e.1)
        es pairs := by
      refine (Fallible.mapM_ok.mp each).imp fun e p one => ?_
      obtain ⟨text, read, made⟩ := Fallible.bind_ok.mp one
      cases made
      exact ⟨read, rfl⟩
    have names : pairs.map Prod.fst = es.map Prod.fst :=
      map_of_forall₂ (List.forall₂_map_right_iff.mpr (related.imp fun _ _ both => both.2))
    have once : pairs.Pairwise fun a b => a.1 ≠ b.1 :=
      List.pairwise_map.mp (names ▸ distinct.names)
    obtain ⟨⟨k, text⟩, mem, read, same⟩ := forall₂_mem_left related (mem_of_lookup here)
    cases same
    exact ⟨text, read, (Headers.ofList_perm once).mem_iff.mpr mem⟩
  · cases read

end Rebac.Settings
