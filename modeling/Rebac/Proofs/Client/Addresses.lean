import Rebac.Proofs.Client.Calls
import Rebac.Proofs.Http.Joined
import Rebac.Proofs.Settings.Resolve

set_option autoImplicit false

/-! # Where the address of settings leads -/

namespace Rebac.Client

open Dispatch

variable {s : Settings} {c : Client} {o : RequestOptions} {p : Prepared} {traces : List Trace}

/-! ## Paths of calls -/

def endpoints : List String := ["check", "list-objects", "batch-check", "write"]

def EndpointPath (path : String) : Prop := ∃ (store : Identifier) (endpoint : String),
  endpoint ∈ endpoints ∧ path = "/stores/" ++ store.text ++ "/" ++ endpoint

def AtEndpoint (call : Call) : Prop := EndpointPath call.path

theorem call_atEndpoint {endpoint : String} (ready : c.prepare o = .ok p)
    (known : endpoint ∈ endpoints) (body : Json) : AtEndpoint (p.call endpoint body) := by
  obtain ⟨store, -, path, -⟩ := prepare_ok ready
  refine ⟨store, endpoint, known, ?_⟩
  rw [Prepared.call, path, storePath]

theorem single_atEndpoint {τ : Type} {endpoint : String} {body : Json}
    {settle : Outcome → Except ClientError τ} (ready : c.prepare o = .ok p)
    (known : endpoint ∈ endpoints) :
    (p.single (p.call endpoint body) settle).Asks AtEndpoint := by
  intro q mem
  cases List.mem_singleton.mp mem
  exact call_atEndpoint ready known body

theorem eachRound_atEndpoint {b : BatchOptions} (p : Prepared) (items : List Identified)
    (ready : c.prepare b.request = .ok p) : (eachRound p b items).Asks AtEndpoint := by
  intro q mem
  obtain ⟨item, -, rfl⟩ := List.mem_map.mp mem
  exact call_atEndpoint ready (by decide) _

theorem Operates.atEndpoint (run : c.Operates o traces) :
    ∀ trace ∈ traces, ∀ sent ∈ trace.sent, AtEndpoint sent.2 := by
  cases run with
  | @check q _ _ run =>
    rw [check_asks] at run
    exact (askOnce_every fun p ready => single_atEndpoint ready (by decide)).asks run
  | @listObjects q _ _ run =>
    rw [listObjects_asks] at run
    exact (askOnce_every fun p ready => single_atEndpoint ready (by decide)).asks run
  | checkEach run => exact (checkEach_every eachRound_atEndpoint).asks run
  | checkGroups run =>
    refine (checkGroups_every fun p items ready q mem => ?_).asks run
    obtain ⟨group, -, rfl⟩ := List.mem_map.mp mem
    exact call_atEndpoint ready (by decide) _
  | write run =>
    refine (write_every (fun p settle ready _ => single_atEndpoint ready (by decide))
      fun p side tuples ready _ q mem => ?_).asks run
    obtain ⟨chunk, -, rfl⟩ := List.mem_map.mp mem
    exact call_atEndpoint ready (by decide) _
  | listRelations run => exact (listRelations_every eachRound_atEndpoint).asks run

/-! ## Plain segments -/

theorem plain_digits {n : Nat} (long : 6 < n) (v : Nat) : Url.Plain (Identifier.digits n v) := by
  have all : Identifier.alphabet.all Url.isPlainChar = true := by decide
  refine ⟨List.all_eq_true.mpr fun c mem => ?_, Url.isDots_long ?_⟩
  · exact List.all_eq_true.mp all c (Identifier.mem_digits mem)
  · rwa [Identifier.length_digits]

theorem plain_endpoint {endpoint : String} (known : endpoint ∈ endpoints) :
    Url.Plain endpoint.toList := by
  simp only [endpoints, List.mem_cons, List.not_mem_nil, or_false] at known
  rcases known with rfl | rfl | rfl | rfl
  · exact ⟨by decide, by decide⟩
  · exact ⟨by decide, by decide⟩
  · exact ⟨by decide, by decide⟩
  · exact ⟨by decide, by decide⟩

theorem endpoint_isPath {path : String} (at_ : EndpointPath path) :
    Url.IsPath path ∧ ∃ c ∈ path.toList, c ≠ '/' := by
  obtain ⟨store, endpoint, known, rfl⟩ := at_
  have spelt : ("/stores/" ++ store.text ++ "/" ++ endpoint).toList =
      Url.spell ["stores".toList, store.text.toList, endpoint.toList] := by
    simp [Url.spell]
  refine ⟨⟨["stores".toList, store.text.toList, endpoint.toList], List.cons_ne_nil _ _, ?_, spelt⟩,
    's', ?_, by decide⟩
  · have stores : Url.Plain "stores".toList := ⟨by decide, by decide⟩
    have id : Url.Plain store.text.toList := by
      rw [Identifier.text, String.toList_ofList]
      exact plain_digits (by decide) _
    simpa using ⟨stores, id, plain_endpoint known⟩
  · rw [spelt]
    simp [Url.spell]

/-! ## Addresses of settings -/

theorem checkUrl_ok {u : Url} : s.checkUrl = .ok u ↔
    Url.parse s.apiUrl = .ok u ∧ u.scheme ∈ Settings.schemes := by
  unfold Settings.checkUrl
  cases Url.parse s.apiUrl with
  | error e => simp
  | ok url =>
    simp only [Except.ok.injEq]
    constructor
    · intro checked
      split at checked
      · rename_i known
        cases checked
        exact ⟨rfl, known⟩
      · cases checked
    · rintro ⟨rfl, known⟩
      rw [if_pos known]

theorem OpenedBy.checked (opened : OpenedBy s c) : ∃ u, s.checkUrl = .ok u := by
  induction opened with
  | resolved opened =>
    obtain ⟨u, _, _, checked, -⟩ := Settings.resolve_ok.mp opened
    exact ⟨u, checked⟩
  | forStore id _ ih => exact ih
  | forModel id _ ih => exact ih

/-- Every call is for an endpoint of a store, and the URL that is called for an endpoint is the
address with the path of the call behind its own, just when the address is fit for that. Otherwise
the call goes to another path of the same server, or nowhere; and to the path of the address itself
if that has a query or a fragment. -/
theorem called_urls_continue (opened : OpenedBy s c) : ∃ u, s.checkUrl = .ok u ∧
    (∀ o traces, c.Operates o traces →
      ∀ trace ∈ traces, ∀ sent ∈ trace.sent, EndpointPath sent.2.path) ∧
    ∀ path, EndpointPath path →
      ((∃ v, Http.callUrl s.apiUrl path = .ok v ∧ Http.Continues u path v) ↔
        Http.Extensible s.apiUrl u) ∧
      ∀ v, Http.callUrl s.apiUrl path = .ok v → Url.SameServer u v ∧
        (¬ (u.query = none ∧ u.fragment = none) → v.path = u.path) := by
  obtain ⟨u, checked⟩ := opened.checked
  obtain ⟨parsed, http⟩ := checkUrl_ok.mp checked
  refine ⟨u, checked, fun o traces run => run.atEndpoint, fun path at_ => ?_⟩
  obtain ⟨plain, named⟩ := endpoint_isPath at_
  exact ⟨Http.callUrl_continues_iff parsed http plain named,
    fun v called => Http.callUrl_server parsed http plain called⟩

def atAddress (address : String) : Client :=
  let s : Settings := { apiUrl := address }
  ⟨none, none, s.standingHeaders, s.retry.policy, s.timeout⟩

/-- A check for a store behind an address with a path and a slash is called there. -/
theorem gateway_called : ∃ c traces, OpenedBy { apiUrl := "http://localhost:8080/fga/" } c ∧
    c.Operates {} traces ∧ ∃ trace ∈ traces, ∃ sent ∈ trace.sent, ∃ u v,
      Http.callUrl "http://localhost:8080/fga/" sent.2.path = .ok v ∧
      Http.Continues u sent.2.path v ∧ v.path = "/fga" ++ sent.2.path := by
  have resolved : ({ apiUrl := "http://localhost:8080/fga/" } : Settings).resolve =
      .ok (atAddress "http://localhost:8080/fga/") := Fallible.toOption_ok.mp (by decide +kernel)
  have opened := OpenedBy.forStore (.ofNat 1) (.resolved resolved)
  obtain ⟨trace, run, there⟩ := check_sends
    (c := (atAddress "http://localhost:8080/fga/").forStore (.ofNat 1)) (o := {}) rfl anneReads
  obtain ⟨u, checked, paths, called⟩ := called_urls_continue opened
  have at_ := paths {} [trace] (.check run) trace (List.mem_singleton_self trace) _ there
  have parts : ((Url.parse "http://localhost:8080/fga/").toOption.map
      fun u => (u.query, u.fragment, u.path)) = some (none, none, "/fga/") := by decide +kernel
  have closing : ((Http.callUrl "http://localhost:8080/fga/" "/").toOption.map
      fun w => w.path) = some "/fga/" := by decide +kernel
  rw [Fallible.toOption_ok.mpr (checkUrl_ok.mp checked).1] at parts
  simp only [Option.map_some, Option.some.injEq, Prod.mk.injEq] at parts
  obtain ⟨query, fragment, path⟩ := parts
  have fit : Http.Extensible "http://localhost:8080/fga/" u := by
    refine ⟨query, fragment, by decide, fun w closed => ?_⟩
    rw [Fallible.toOption_ok.mpr closed] at closing
    have path : w.path = "/fga/" := Option.some.inj closing
    rw [path]
    decide
  obtain ⟨v, eq, goes⟩ := (called _ at_).1.mpr fit
  refine ⟨_, [trace], opened, .check run, trace, List.mem_singleton_self trace, _, there, u, v, eq,
    goes, ?_⟩
  rw [goes.path, path]
  rfl

/-- An address with a fragment is accepted, and no call goes behind its path. -/
theorem urls_not_continued : ¬ ∀ (s : Settings) (c : Client) (u : Url) (path : String),
    s.resolve = .ok c → s.checkUrl = .ok u → EndpointPath path →
      ∃ v, Http.callUrl s.apiUrl path = .ok v ∧ Http.Continues u path v := by
  intro continued
  have resolved : ({ apiUrl := "http://localhost/fga#top" } : Settings).resolve =
      .ok (atAddress "http://localhost/fga#top") := Fallible.toOption_ok.mp (by decide +kernel)
  obtain ⟨u, checked⟩ := (OpenedBy.resolved resolved).checked
  obtain ⟨parsed, http⟩ := checkUrl_ok.mp checked
  have at_ : EndpointPath ("/stores/" ++ (Identifier.ofNat 1).text ++ "/" ++ "check") :=
    ⟨_, _, by decide, rfl⟩
  obtain ⟨plain, named⟩ := endpoint_isPath at_
  have fit := (Http.callUrl_continues_iff parsed http plain named).mp
    (continued _ _ u _ resolved checked at_)
  have marked : ((Url.parse "http://localhost/fga#top").toOption.map fun u => u.fragment) =
      some (some "top") := by decide +kernel
  rw [Fallible.toOption_ok.mpr parsed, Option.map_some, fit.fragment] at marked
  cases marked

end Rebac.Client
