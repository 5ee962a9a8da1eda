import Rebac.Proofs.Client.ChunkedWrite
import Rebac.Proofs.Client.FailClosed
import Rebac.Proofs.Dispatch.Attempts
import Rebac.Proofs.Dispatch.Contract
import Rebac.Proofs.Headers

set_option autoImplicit false

/-! # The calls of operations -/

namespace Rebac

open Dispatch Batch

/-! ## Calls of programs -/

namespace Dispatch

variable {τ α : Type} {r : Round τ} {s : Progress τ} {trace : Trace}

theorem Round.sent_request (run : r.Runs s trace) {sent : Nat × Call} (mem : sent ∈ trace.sent) :
    ∃ q ∈ r.requests, sent.2 = q.call := by
  obtain ⟨placed, there, rfl⟩ := List.mem_map.mp (sent_calls run mem)
  exact ⟨placed.2, List.mem_of_getElem? (Pool.mem_placed.mp there), rfl⟩

def Round.Asks (asks : Call → Prop) (r : Round τ) : Prop := ∀ q ∈ r.requests, asks q.call

theorem Program.EveryRound.asks {p : Program τ α} {asks : Call → Prop} {traces : List Trace}
    (every : p.EveryRound (Round.Asks asks)) (run : p.Runs traces) :
    ∀ trace ∈ traces, ∀ sent ∈ trace.sent, asks sent.2 := by
  intro trace mem sent there
  obtain ⟨r, s, asked, ran⟩ := every.runs run trace mem
  obtain ⟨q, within, eq⟩ := Round.sent_request ran there
  exact eq ▸ asked q within

end Dispatch

namespace Client

variable {c : Client} {o : RequestOptions} {p : Prepared} {call : Call} {traces : List Trace}

/-! ## Rounds of operations -/

def Forms (p : Prepared) (call : Call) : Prop :=
  ∃ endpoint body, call = p.call endpoint body ∧ Body.model? body = p.modelId

def Makes (c : Client) (o : RequestOptions) (call : Call) : Prop :=
  ∃ p, c.prepare o = .ok p ∧ Forms p call

def Prepares {τ : Type} (c : Client) (o : RequestOptions) (r : Round τ) : Prop :=
  ∃ p, c.prepare o = .ok p ∧ r.policy = p.policy ∧ ∀ q ∈ r.requests, Forms p q.call

theorem check_forms (p : Prepared) (q : Question) : Forms p (p.checkCall q) :=
  ⟨_, _, rfl, Body.model?_check _ _ _⟩

theorem objects_forms (p : Prepared) (q : ObjectsQuestion) : Forms p (p.objectsCall q) :=
  ⟨_, _, rfl, Body.model?_listObjects _ _ _⟩

theorem group_forms (p : Prepared) (group : List Identified) : Forms p (p.groupCall group) :=
  ⟨_, _, rfl, Body.model?_batchCheck _ _ _⟩

theorem write_forms (p : Prepared) (request : WriteRequest) (conflict : ConflictPolicy) :
    Forms p (writeCall p request conflict) :=
  ⟨_, _, rfl, Body.model?_write _ _ _⟩

theorem Prepares.asks {τ : Type} (r : Round τ) (prepares : c.Prepares o r) :
    r.Asks (c.Makes o) := by
  obtain ⟨p, ready, -, made⟩ := prepares
  exact fun q mem => ⟨p, ready, made q mem⟩

theorem single_prepares {τ : Type} {settle : Outcome → Except ClientError τ}
    (ready : c.prepare o = .ok p) (made : Forms p call) :
    c.Prepares o (p.single call settle) := by
  refine ⟨p, ready, rfl, fun q mem => ?_⟩
  rw [List.mem_singleton.mp mem]
  exact made

/-! What holds of every round that an operation may send, once it is prepared. -/

theorem askOnce_every {τ α : Type} {Q : Round τ → Prop} {call : Prepared → Call}
    {decode : Json → Json.Decoded τ} {value : List τ → α} {events : List τ → List Event}
    (holds : ∀ p, c.prepare o = .ok p → Q (p.single (call p) (Answer.ofOutcome decode))) :
    (c.askOnce o call decode value events).EveryRound Q := by
  unfold askOnce
  cases ready : c.prepare o with
  | error cause => trivial
  | ok p => exact ⟨holds p ready, fun _ => trivial⟩

theorem checkEach_every {Q : Round Verdict → Prop} {supply : IdSupply} {questions : List Question}
    {b : BatchOptions}
    (holds : ∀ p items, c.prepare b.request = .ok p → Q (eachRound p b items)) :
    (c.checkEach supply questions b).EveryRound Q := by
  rcases checkEach_shape c supply questions b with
    ⟨cause, -, eq⟩ | ⟨-, eq⟩ | ⟨items, p, events, -, -, ready, eq⟩
  · rw [eq]
    trivial
  · rw [eq]
    trivial
  · rw [eq]
    exact ⟨holds p items ready, fun _ => trivial⟩

theorem checkGroups_every {Q : Round (List Verdict) → Prop} {supply : IdSupply}
    {questions : List Question} {b : BatchOptions} {visits : List Identified → Visit}
    (holds : ∀ p items, c.prepare b.request = .ok p → Q (groupRound p b visits items)) :
    (c.checkGroups supply questions b visits).EveryRound Q := by
  rcases checkGroups_shape c supply questions b visits with
    ⟨cause, -, eq⟩ | ⟨-, -, eq⟩ | ⟨items, p, events, -, -, -, ready, eq⟩
  · rw [eq]
    trivial
  · rw [eq]
    trivial
  · rw [eq]
    exact ⟨holds p items ready, fun _ => trivial⟩

theorem writeChunks_every {α : Type} {Q : Round (List TupleOutcome) → Prop} {w : WriteOptions}
    {side : WriteSide} {tuples : List RelationTuple}
    {next : Option (List TupleOutcome) → Program (List TupleOutcome) α}
    (size : 0 < w.transaction.maxPerChunk) (holds : Q (chunkRound p w side tuples))
    (goes : ∀ report, (next report).EveryRound Q) :
    (writeChunks p w side tuples next).EveryRound Q := by
  by_cases none : tuples = []
  · rw [writeChunks, if_pos none]
    exact goes _
  · rw [writeChunks_round size none]
    exact ⟨holds, fun _ => goes _⟩

theorem write_every {Q : Round (List TupleOutcome) → Prop} {request : WriteRequest}
    {w : WriteOptions}
    (whole : ∀ p settle, c.prepare w.request = .ok p → w.transaction.transactional = true →
      Q (p.single (writeCall p request w.conflict) settle))
    (parts : ∀ p side tuples, c.prepare w.request = .ok p → w.transaction.transactional = false →
      Q (chunkRound p w side tuples)) :
    (c.write request w).EveryRound Q := by
  rcases write_shape c request w with
    ⟨cause, -, eq⟩ | ⟨p, ready, filled, ⟨once, eq⟩ | ⟨chunked, size⟩⟩
  · rw [eq]
    trivial
  · rw [eq]
    exact ⟨whole p _ ready once, fun _ => trivial⟩
  · rw [write_chunks filled chunked ready]
    exact writeChunks_every size (parts p _ _ ready chunked) fun _ =>
      writeChunks_every size (parts p _ _ ready chunked) fun _ => trivial

theorem listRelations_every {Q : Round Verdict → Prop} {supply : IdSupply} {q : RelationsQuestion}
    {b : BatchOptions}
    (holds : ∀ p items, c.prepare b.request = .ok p → Q (eachRound p b items)) :
    (c.listRelations supply q b).EveryRound Q := by
  unfold listRelations
  split
  · trivial
  · exact (checkEach_every holds).andThen

theorem askOnce_prepares {τ α : Type} (c : Client) (o : RequestOptions) {call : Prepared → Call}
    {decode : Json → Json.Decoded τ} {value : List τ → α} {events : List τ → List Event}
    (made : ∀ p : Prepared, Forms p (call p)) :
    (c.askOnce o call decode value events).EveryRound (c.Prepares o) :=
  askOnce_every fun p ready => single_prepares ready (made p)

theorem eachRound_prepares {b : BatchOptions} {items : List Identified}
    (ready : c.prepare b.request = .ok p) : c.Prepares b.request (eachRound p b items) := by
  refine ⟨p, ready, rfl, fun q mem => ?_⟩
  obtain ⟨item, -, rfl⟩ := List.mem_map.mp mem
  exact check_forms _ _

theorem checkEach_prepares (c : Client) (supply : IdSupply) (questions : List Question)
    (b : BatchOptions) :
    (c.checkEach supply questions b).EveryRound (c.Prepares b.request) :=
  checkEach_every fun _ _ => eachRound_prepares

theorem checkGroups_prepares (c : Client) (supply : IdSupply) (questions : List Question)
    (b : BatchOptions) (visits : List Identified → Visit) :
    (c.checkGroups supply questions b visits).EveryRound (c.Prepares b.request) := by
  refine checkGroups_every fun p items ready => ⟨p, ready, rfl, fun q mem => ?_⟩
  obtain ⟨group, -, rfl⟩ := List.mem_map.mp mem
  exact group_forms _ _

theorem write_prepares (c : Client) (request : WriteRequest) (w : WriteOptions) :
    (c.write request w).EveryRound (c.Prepares w.request) := by
  refine write_every (fun p settle ready _ => single_prepares ready (write_forms _ _ _))
    fun p side tuples ready _ => ⟨p, ready, rfl, fun q mem => ?_⟩
  obtain ⟨chunk, -, rfl⟩ := List.mem_map.mp mem
  exact write_forms _ _ _

theorem listRelations_prepares (c : Client) (supply : IdSupply) (q : RelationsQuestion)
    (b : BatchOptions) :
    (c.listRelations supply q b).EveryRound (c.Prepares b.request) :=
  listRelations_every fun _ _ => eachRound_prepares

/-! ## Calls of operations -/

/-- A run so far of an operation, whichever it is, with these request options. -/
inductive Operates (c : Client) : RequestOptions → List Trace → Prop where
  | check {q : Question} {o : RequestOptions} {traces : List Trace} :
      (c.check q o).Runs traces → Operates c o traces
  | listObjects {q : ObjectsQuestion} {o : RequestOptions} {traces : List Trace} :
      (c.listObjects q o).Runs traces → Operates c o traces
  | checkEach {supply : IdSupply} {questions : List Question} {o : BatchOptions}
      {traces : List Trace} :
      (c.checkEach supply questions o).Runs traces → Operates c o.request traces
  | checkGroups {supply : IdSupply} {questions : List Question} {o : BatchOptions}
      {visits : List Identified → Visit} {traces : List Trace} :
      (c.checkGroups supply questions o visits).Runs traces → Operates c o.request traces
  | write {request : WriteRequest} {o : WriteOptions} {traces : List Trace} :
      (c.write request o).Runs traces → Operates c o.request traces
  | listRelations {supply : IdSupply} {q : RelationsQuestion} {o : BatchOptions}
      {traces : List Trace} :
      (c.listRelations supply q o).Runs traces → Operates c o.request traces

theorem prepared_makes {τ α : Type} {program : Program τ α}
    (every : program.EveryRound (c.Prepares o)) (run : program.Runs traces) :
    ∀ trace ∈ traces, ∀ sent ∈ trace.sent, c.Makes o sent.2 :=
  (every.mono Prepares.asks).asks run

theorem Operates.makes (run : c.Operates o traces) :
    ∀ trace ∈ traces, ∀ sent ∈ trace.sent, c.Makes o sent.2 := by
  cases run with
  | @check q _ _ run =>
    rw [check_asks] at run
    exact prepared_makes (askOnce_prepares c o fun p => check_forms p q) run
  | @listObjects q _ _ run =>
    rw [listObjects_asks] at run
    exact prepared_makes (askOnce_prepares c o fun p => objects_forms p q) run
  | checkEach run => exact prepared_makes (checkEach_prepares c _ _ _) run
  | checkGroups run => exact prepared_makes (checkGroups_prepares c _ _ _ _) run
  | write run => exact prepared_makes (write_prepares c _ _) run
  | listRelations run => exact prepared_makes (listRelations_prepares c _ _ _) run

theorem check_sends (ready : c.prepare o = .ok p) (q : Question) :
    ∃ trace, (c.check q o).Runs [trace] ∧ (0, p.checkCall q) ∈ trace.sent := by
  rw [check_asks, askOnce, ready]
  exact ⟨_, .within (.next .opened (c := .start) rfl), List.mem_cons_self⟩

/-! ## Headers of calls -/

theorem makes_headers (made : c.Makes o call) :
    call.headers = Headers.merge c.headers o.headers := by
  obtain ⟨p, ready, endpoint, body, rfl, -⟩ := made
  obtain ⟨store, modelId, -, -, -, rfl⟩ := prepare_inv ready
  rfl

/-- The clients that settings open: the one they resolve to, and others of other stores and
models that are made from it. -/
inductive OpenedBy (s : Settings) : Client → Prop where
  | resolved {c : Client} : s.resolve = .ok c → OpenedBy s c
  | forStore {c : Client} (id : Identifier) : OpenedBy s c → OpenedBy s (c.forStore id)
  | forModel {c : Client} (id : Identifier) : OpenedBy s c → OpenedBy s (c.forModel id)

theorem resolve_headers {s : Settings} (opened : s.resolve = .ok c) :
    c.headers = s.standingHeaders := by
  simp only [Settings.resolve, bind, Except.bind] at opened
  repeat' split at opened
  all_goals cases opened
  rfl

theorem OpenedBy.headers {s : Settings} (opened : OpenedBy s c) :
    c.headers = s.standingHeaders := by
  induction opened with
  | resolved opened => exact resolve_headers opened
  | forStore id _ ih => exact ih
  | forModel id _ ih => exact ih

/-- Every call that a client sends has one header of each name that occurs in the settings or in
the options of the operation: a header of the options goes before the token, and that before a
standing header. It is the same in whatever order the headers that are left are visited. -/
theorem sent_headers_precede {s : Settings} (standing : Headers.Ordered s.headers)
    (perCall : Headers.Ordered o.headers) (opened : OpenedBy s c) (run : c.Operates o traces) :
    ∀ trace ∈ traces, ∀ sent ∈ trace.sent,
      Headers.Precedence s.headers s.apiToken o.headers sent.2.headers ∧
      ∀ visited, visited.Perm (Headers.winners c.headers o.headers) →
        Headers.gather visited = sent.2.headers := by
  intro trace mem sent there
  have merged := makes_headers (run.makes trace mem sent there)
  rw [merged, opened.headers]
  exact ⟨Headers.merge_precedence standing perCall, fun _ => Headers.gather_eq_merge⟩

def acme : Settings where
  apiUrl := "http://localhost"
  apiToken := some "secret"
  headers := [("X-Tenant", "acme")]

def acmeClient : Client :=
  ⟨none, none, acme.standingHeaders, acme.retry.policy, acme.timeout⟩

def globex : RequestOptions := { headers := [("x-tenant", "globex")] }

/-- A check that names another tenant than the standing one has its own and the token. -/
theorem tenant_precedes : ∃ c traces, OpenedBy acme c ∧ c.Operates globex traces ∧
    ∃ trace ∈ traces, ∃ sent ∈ trace.sent,
      Headers.Precedence [("X-Tenant", "acme")] (some "secret") [("x-tenant", "globex")]
        sent.2.headers := by
  have resolved : acme.resolve = .ok acmeClient := Fallible.toOption_ok.mp (by decide +kernel)
  have opened := OpenedBy.forStore (.ofNat 1) (.resolved resolved)
  obtain ⟨trace, run, there⟩ := check_sends (c := acmeClient.forStore (.ofNat 1)) (o := globex) rfl
    anneReads
  refine ⟨_, [trace], opened, .check run, trace, List.mem_singleton_self trace, _, there, ?_⟩
  have standing : Headers.Ordered acme.headers := List.pairwise_singleton _ _
  have perCall : Headers.Ordered globex.headers := List.pairwise_singleton _ _
  exact (sent_headers_precede standing perCall opened (.check run) trace
    (List.mem_singleton_self trace) _ there).1

end Client

end Rebac
