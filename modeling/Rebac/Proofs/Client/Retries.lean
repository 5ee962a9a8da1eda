import Rebac.Proofs.Client.Calls
import Rebac.Proofs.Client.EachCheck

set_option autoImplicit false

/-! # Retries are repeats, bounded and honestly reported -/

namespace Rebac

open Dispatch Batch

/-! ## Attempts under a policy -/

namespace Dispatch

variable {τ α β : Type}

/-- Whatever a program does, the attempts of its requests are repeats under a policy, which allows
no more than sixteen of them. -/
def Program.Retries (policy : Retry.Policy) (p : Program τ α) : Prop :=
  ∀ traces, p.Runs traces → ∀ trace ∈ traces, ∀ place,
    Repeated policy (trace.attempts place) (trace.answers place) ∧
      (trace.attempts place ≠ [] → policy.maxRetries + 1 ≤ 16)

def Round.Under (policy : Retry.Policy) (r : Round τ) : Prop :=
  r.policy = policy ∧ policy.maxRetries ≤ 15

theorem Program.EveryRound.retries {policy : Retry.Policy} {p : Program τ α}
    (every : p.EveryRound (Round.Under policy)) : p.Retries policy := by
  intro traces run trace mem place
  obtain ⟨r, s, ⟨rfl, few⟩, ran⟩ := every.runs run trace mem
  exact ⟨Round.runs_repeated ran place, fun _ => Nat.succ_le_succ few⟩

/-- An error of a request whose attempts are used up: the request was sent from a place as often as
the policy allows, each time as asked, and the error is what became of the last attempt. -/
def Spent (policy : Retry.Policy) (traces : List Trace) (place : Nat) (e : ClientError)
    (asks : Call → Prop) : Prop :=
  ∃ trace ∈ traces, Round.Exhausted policy trace place e ∧
    ∀ call ∈ trace.attempts place, asks call

theorem Round.final_spent {r : Round τ} {s : Progress τ} {trace : Trace} {traces : List Trace}
    {place : Nat} {q : Request τ} {err : CallError} {asks : Call → Prop} (run : r.Runs s trace)
    (mem : trace ∈ traces) (here : r.requests[place]? = some q)
    (final : trace.final? place = some (.error err)) (passing : (ClientError.ofCall err).Passing)
    (asked : asks q.call) : Spent r.policy traces place (.ofCall err) asks := by
  refine ⟨trace, mem, final_exhausted run final passing, fun call sent => ?_⟩
  rw [attempts_call run here call sent]
  exact asked

theorem Round.ends_error_final {r : Round τ} {trace : Trace} {e : ClientError}
    (ends : r.Ends trace (.error e)) : ∃ place q outcome, r.requests[place]? = some q ∧
      trace.final? place = some outcome ∧ q.settle outcome = .error e := by
  obtain ⟨place, outcome, q, final, here, settled⟩ := (ends_error_iff ends e).mp rfl
  obtain ⟨s, run, -⟩ := ends
  exact ⟨place, q, outcome, here, (final?_eq_some run).mpr final, settled⟩

theorem Round.ends_ok_final {r : Round τ} {trace : Trace} {results : List τ}
    (ends : r.Ends trace (.ok results)) {i : Nat} {x : τ} (got : results[i]? = some x) :
    ∃ q outcome, r.requests[i]? = some q ∧ trace.final? i = some outcome ∧
      q.settle outcome = .ok x := by
  obtain ⟨placed, here, outcome, final, settled⟩ := forall₂_get_right (ends_ok ends).2 got
  rw [Pool.placed_get, Option.map_eq_some_iff] at here
  obtain ⟨q, there, rfl⟩ := here
  exact ⟨q, outcome, there, final, settled⟩

end Dispatch

/-! ## Errors that stand for failures that pass -/

theorem Answer.ofOutcome_passing {α : Type} {decode : Json → Json.Decoded α} {outcome : Outcome}
    {e : ClientError} (failed : ofOutcome decode outcome = .error e) (passing : e.Passing) :
    ∃ err, outcome = .error err ∧ e = .ofCall err := by
  rcases ofOutcome_error.mp failed with ⟨err, rfl, rfl⟩ | ⟨response, reason, -, -, rfl⟩
  · exact ⟨err, rfl, rfl⟩
  · cases passing

theorem CallError.Rejected.not_passing {err : CallError} (rejected : err.Rejected) :
    ¬ (ClientError.ofCall err).Passing := by
  rw [ClientError.passing_ofCall]
  rintro ⟨status, known, passing⟩
  rcases rejected with unknown | forbidden
  · rw [known, Option.some.injEq] at unknown
    omega
  · rw [known, Option.some.injEq] at forbidden
    omega

theorem Batch.settleOne_passing {item : Identified} {outcome : Outcome} {v : Verdict}
    {e : ClientError} (settled : settleOne item outcome = .ok v) (reported : v.error = some e)
    (passing : e.Passing) : ∃ err, outcome = .error err ∧ e = .ofCall err := by
  cases settleOne_ok settled
  cases read : Answer.ofOutcome Answer.check outcome with
  | ok allowed =>
    rw [read] at reported
    cases reported
  | error f =>
    rw [read] at reported
    cases reported
    exact Answer.ofOutcome_passing read passing

theorem Batch.Decides.passing {outcome : Outcome} {id : String} {allowed : Bool} {e : ClientError}
    (decided : Decides outcome id allowed (some e)) (passing : e.Passing) :
    ∃ err, outcome = .error err ∧ e = .ofCall err := by
  generalize given : some e = error at decided
  cases decided with
  | failed _ =>
    cases given
    exact ⟨_, rfl, rfl⟩
  | undecodable _ =>
    cases given
    cases passing
  | answered _ _ _ _ =>
    obtain ⟨fault, -, rfl⟩ := Option.map_eq_some_iff.mp given.symm
    cases passing
  | omitted _ _ _ =>
    cases given
    cases passing

/-! ## The operations -/

def WriteReport.ofSide (report : WriteReport) : WriteSide → Option (List TupleOutcome)
  | .writes => report.writes
  | .deletes => report.deletes

namespace Client

def ChecksOne (c : Client) (o : RequestOptions) (q : Question) (call : Call) : Prop :=
  ∃ p, c.prepare o = .ok p ∧ call = p.checkCall q

def ChecksAmong (c : Client) (o : RequestOptions) (item : Identified) (call : Call) : Prop :=
  ∃ p group, c.prepare o = .ok p ∧ call = p.groupCall group ∧ item ∈ group

def SendsAmong (c : Client) (o : WriteOptions) (side : WriteSide) (tuple : RelationTuple)
    (call : Call) : Prop :=
  ∃ p chunk, c.prepare o.request = .ok p ∧ call = writeCall p (side.only chunk) o.conflict ∧
    tuple ∈ chunk

/-- Every operation retries under its policy, and where it reports an error that stands for a
failure that passes, for an item, for a tuple or as its own, the attempts are used up. -/
structure RetriesHonestly (c : Client) (supply : IdSupply) : Prop where
  check : ∀ q o, (c.check q o).Retries (c.policyFor o)
  check_failed : ∀ q o traces e, (c.check q o).Yields traces (.error e) → e.Passing →
    Spent (c.policyFor o) traces 0 e (c.ChecksOne o q)
  listObjects : ∀ q o, (c.listObjects q o).Retries (c.policyFor o)
  listObjects_failed : ∀ q o traces e, (c.listObjects q o).Yields traces (.error e) → e.Passing →
    Spent (c.policyFor o) traces 0 e fun call =>
      ∃ p, c.prepare o = .ok p ∧ call = p.objectsCall q
  checkEach : ∀ questions o,
    (c.checkEach supply questions o).Retries (c.policyFor o.request)
  checkEach_failed : ∀ questions o traces e,
    (c.checkEach supply questions o).Yields traces (.error e) → ¬ e.Passing
  checkEach_reported : ∀ questions o traces verdicts,
    (c.checkEach supply questions o).Yields traces (.ok verdicts) →
    ∀ i v e, verdicts[i]? = some v → v.error = some e → e.Passing →
      ∃ q, questions[i]? = some q ∧ v.question = { q with correlationId := some v.id } ∧
        Spent (c.policyFor o.request) traces i e (c.ChecksOne o.request q)
  checkGroups : ∀ questions o visits,
    (c.checkGroups supply questions o visits).Retries (c.policyFor o.request)
  checkGroups_failed : ∀ questions o visits traces e,
    (c.checkGroups supply questions o visits).Yields traces (.error e) → ¬ e.Passing
  checkGroups_reported : ∀ questions o visits traces verdicts,
    (c.checkGroups supply questions o visits).Yields traces (.ok verdicts) →
    ∀ v ∈ verdicts, ∀ e, v.error = some e → e.Passing →
      ∃ (i : Nat) (q : Question), questions[i]? = some q ∧
        v.question = { q with correlationId := some v.id } ∧
        Spent (c.policyFor o.request) traces (i / o.maxBatchSize) e
          (c.ChecksAmong o.request ⟨v.id, v.question⟩)
  write : ∀ request o, (c.write request o).Retries (c.policyFor o.request)
  write_failed : ∀ request o traces e, (c.write request o).Yields traces (.error e) → e.Passing →
    Spent (c.policyFor o.request) traces 0 e fun call =>
      ∃ p, c.prepare o.request = .ok p ∧ call = writeCall p request o.conflict
  write_reported : ∀ request o traces report, (c.write request o).Yields traces (.ok report) →
    ∀ side outcomes j x e, report.ofSide side = some outcomes → outcomes[j]? = some x →
      x.error = some e → e.Passing → (side.tuplesOf request)[j]? = some x.tuple ∧
        Spent (c.policyFor o.request) traces (j / o.transaction.maxPerChunk) e
          (c.SendsAmong o side x.tuple)
  listRelations : ∀ q o, (c.listRelations supply q o).Retries (c.policyFor o.request)
  listRelations_failed : ∀ q o traces e,
    (c.listRelations supply q o).Yields traces (.error e) → e.Passing →
      ∃ (i : Nat) (relation : String), q.relations[i]? = some relation ∧
        Spent (c.policyFor o.request) traces i e (c.ChecksOne o.request
          { user := q.user, relation, object := q.object, correlationId := none
            contextual := q.contextual, context := q.context })

variable {c : Client} {supply : IdSupply} {o : RequestOptions} {b : BatchOptions} {p : Prepared}
  {questions : List Question} {items : List Identified} {trace : Trace} {traces : List Trace}
  {e : ClientError}

theorem Prepares.under {τ : Type} (r : Round τ) (prepares : c.Prepares o r) :
    r.Under (c.policyFor o) := by
  obtain ⟨p, ready, eq, -⟩ := prepares
  rw [Round.Under, eq]
  exact prepare_policy ready

/-! ### Single requests -/

theorem single_retries {τ α : Type} (ready : c.prepare o = .ok p) (call : Call)
    (settle : Outcome → Except ClientError τ) (value : List τ → α)
    (events : List τ → List Event) :
    (Program.round (p.single call settle) fun results =>
      .done (.ok (value results)) (events results)).Retries (c.policyFor o) :=
  Program.EveryRound.retries ⟨prepare_policy ready, fun _ => trivial⟩

theorem refuse_retries {τ α : Type} (policy : Retry.Policy) (e : ClientError) :
    (Program.refuse e : Program τ α).Retries policy := by
  intro traces run
  cases run
  simp

theorem single_failed {τ α : Type} {call : Call} {settle : Outcome → Except ClientError τ}
    {value : List τ → α} {events : List τ → List Event} {asks : Call → Prop}
    (ready : c.prepare o = .ok p)
    (run : (Program.round (p.single call settle) fun results =>
      .done (.ok (value results)) (events results)).Yields traces (.error e))
    (passing : e.Passing) (origin : ∀ outcome, settle outcome = .error e →
      ∃ err, outcome = .error err ∧ e = .ofCall err) (asked : asks call) :
    Spent (c.policyFor o) traces 0 e asks := by
  obtain ⟨trace, ending, ends, rfl, eq⟩ := Program.yields_single.mp run
  cases ending with
  | ok results => cases eq
  | error f =>
    cases eq
    obtain ⟨place, q, outcome, here, final, settled⟩ := Round.ends_error_final ends
    obtain ⟨lt, single⟩ := List.getElem?_eq_some_iff.mp here
    have first : place = 0 := by
      simp only [Prepared.single, List.length_singleton] at lt
      omega
    subst first
    cases single
    obtain ⟨err, rfl, rfl⟩ := origin outcome settled
    obtain ⟨s, ran, -⟩ := ends
    rw [← (prepare_policy ready).1]
    exact Round.final_spent ran (List.mem_singleton_self trace) here final passing asked

theorem askOnce_retries {τ α : Type} (c : Client) (o : RequestOptions) (call : Prepared → Call)
    (decode : Json → Json.Decoded τ) (value : List τ → α) (events : List τ → List Event) :
    (c.askOnce o call decode value events).Retries (c.policyFor o) := by
  unfold askOnce
  cases ready : c.prepare o with
  | error cause => exact refuse_retries _ _
  | ok p => exact single_retries ready _ _ _ _

theorem askOnce_spent {τ α : Type} {call : Prepared → Call} {decode : Json → Json.Decoded τ}
    {value : List τ → α} {events : List τ → List Event}
    (run : (c.askOnce o call decode value events).Yields traces (.error e))
    (passing : e.Passing) : Spent (c.policyFor o) traces 0 e fun asked =>
      ∃ p, c.prepare o = .ok p ∧ asked = call p := by
  unfold askOnce at run
  cases ready : c.prepare o with
  | error cause =>
    rw [ready] at run
    cases (Program.yields_refuse.mp run).2
    cases passing
  | ok p =>
    rw [ready] at run
    exact single_failed ready run passing
      (fun outcome failed => Answer.ofOutcome_passing failed passing) ⟨p, rfl, rfl⟩

/-! ### Batches -/

theorem checkEach_under (c : Client) (supply : IdSupply) (questions : List Question)
    (b : BatchOptions) :
    (c.checkEach supply questions b).EveryRound (Round.Under (c.policyFor b.request)) :=
  (checkEach_prepares c supply questions b).mono Prepares.under

theorem checkEach_lasting (run : (c.checkEach supply questions b).Yields traces (.error e)) :
    ¬ e.Passing := by
  rcases checkEach_ended run with ⟨cause, eq⟩ | eq | ⟨items, p, trace, -, -, ends, -⟩
  · cases eq
    exact id
  · cases eq
  · obtain ⟨place, q, outcome, here, -, settled⟩ := Round.ends_error_final ends
    obtain ⟨item, -, rfl⟩ := List.mem_map.mp (List.mem_of_getElem? here)
    obtain ⟨err, -, rejected, rfl⟩ := settleOne_error_iff.mp settled
    exact rejected.not_passing

theorem checkEach_spent {verdicts : List Verdict}
    (run : (c.checkEach supply questions b).Yields traces (.ok verdicts)) {i : Nat} {v : Verdict}
    (got : verdicts[i]? = some v) (reported : v.error = some e) (passing : e.Passing) :
    ∃ q, questions[i]? = some q ∧ v.question = { q with correlationId := some v.id } ∧
      Spent (c.policyFor b.request) traces i e (c.ChecksOne b.request q) := by
  rcases checkEach_ok run with rfl | ⟨items, p, trace, named, ready, ends, rfl⟩
  · cases got
  · obtain ⟨request, outcome, here, final, settled⟩ := Round.ends_ok_final ends got
    have there := here
    rw [eachRound, List.getElem?_map, Option.map_eq_some_iff] at there
    obtain ⟨item, there, rfl⟩ := there
    obtain ⟨q, asked, names⟩ := forall₂_get_right (identify_ok named).1 there
    have settled : settleOne item outcome = .ok v := settled
    have about := Verdict.of_item item (Answer.ofOutcome Answer.check outcome)
    rw [← settleOne_ok settled] at about
    obtain ⟨err, rfl, rfl⟩ := settleOne_passing settled reported passing
    refine ⟨q, asked, by rw [about.2, about.1, names.question], ?_⟩
    have same : p.checkCall item.question = p.checkCall q := by
      rw [names.question]
      rfl
    obtain ⟨s, ran, -⟩ := ends
    rw [← (prepare_policy ready).1]
    exact Round.final_spent ran (List.mem_singleton_self trace) here final passing ⟨p, ready, same⟩

theorem checkGroups_under (c : Client) (supply : IdSupply) (questions : List Question)
    (b : BatchOptions) (visits : List Identified → Visit) :
    (c.checkGroups supply questions b visits).EveryRound
      (Round.Under (c.policyFor b.request)) :=
  (checkGroups_prepares c supply questions b visits).mono Prepares.under

theorem checkGroups_lasting {visits : List Identified → Visit}
    (run : (c.checkGroups supply questions b visits).Yields traces (.error e)) : ¬ e.Passing := by
  rcases checkGroups_ended run with
    ⟨cause, eq⟩ | ⟨-, -, eq⟩ | ⟨items, p, trace, ending, -, -, -, ends, -, eq⟩
  · cases eq
    exact id
  · cases eq
  cases ending with
  | ok results => cases eq
  | error f =>
    cases eq
    obtain ⟨place, group, outcome, -, -, aborts⟩ := ends_failed ends
    cases aborts with
    | rejected rejected => exact rejected.not_passing
    | unknown _ _ _ => exact id

theorem checkGroups_spent {visits : List Identified → Visit} {verdicts : List Verdict}
    (run : (c.checkGroups supply questions b visits).Yields traces (.ok verdicts)) {v : Verdict}
    (mem : v ∈ verdicts) (reported : v.error = some e) (passing : e.Passing) :
    ∃ (i : Nat) (q : Question), questions[i]? = some q ∧
      v.question = { q with correlationId := some v.id } ∧
      Spent (c.policyFor b.request) traces (i / b.maxBatchSize) e
        (c.ChecksAmong b.request ⟨v.id, v.question⟩) := by
  rcases checkGroups_ended run with
    ⟨cause, eq⟩ | ⟨-, -, eq⟩ | ⟨items, p, trace, ending, named, size, ready, ends, rfl, eq⟩
  · cases eq
  · cases eq
    cases mem
  cases ending with
  | error f => cases eq
  | ok answers =>
    cases eq
    obtain ⟨i, q, item, outcome, asked, there, name, final, report⟩ :=
      ends_verdict named size ends mem
    have decided := report.decided
    rw [reported] at decided
    obtain ⟨err, rfl, rfl⟩ := decided.passing passing
    obtain ⟨s, ran, -⟩ := ends
    obtain ⟨request, sent, -⟩ :=
      Round.finals_launched ran ((Round.final?_eq_some ran).mp final)
    obtain ⟨group, formed, rfl⟩ := groupRound_request sent
    have within : (⟨v.id, v.question⟩ : Identified) ∈ group := by
      rw [report.id, report.question]
      exact (carried size (identify_ok named).2 there formed).mpr rfl
    refine ⟨i, q, asked, by rw [report.question, report.id, name.question], ?_⟩
    rw [← (prepare_policy ready).1]
    exact Round.final_spent ran (List.mem_singleton_self trace) sent final passing
      ⟨p, group, ready, rfl, within⟩

/-! ### Writes -/

variable {request : WriteRequest} {w : WriteOptions} {side : WriteSide}
  {tuples : List RelationTuple}

theorem write_under (c : Client) (request : WriteRequest) (w : WriteOptions) :
    (c.write request w).EveryRound (Round.Under (c.policyFor w.request)) :=
  (write_prepares c request w).mono Prepares.under

theorem write_spent (run : (c.write request w).Yields traces (.error e)) (passing : e.Passing) :
    Spent (c.policyFor w.request) traces 0 e fun call =>
      ∃ p, c.prepare w.request = .ok p ∧ call = writeCall p request w.conflict := by
  rcases write_shape c request w with
    ⟨cause, -, eq⟩ | ⟨p, ready, filled, ⟨-, eq⟩ | ⟨chunked, size⟩⟩
  · rw [eq] at run
    cases (Program.yields_refuse.mp run).2
    cases passing
  · rw [eq] at run
    refine single_failed ready run passing (fun outcome failed => ?_) ⟨p, ready, rfl⟩
    cases outcome with
    | ok response => cases failed
    | error err => exact ⟨err, rfl, (Except.error.inj failed).symm⟩
  · have accounted := write_accounted filled chunked size ready run
    obtain ⟨trace, -, place, err, -, rejected, rfl⟩ := (accounted.failed_iff e).mp rfl
    exact absurd passing rejected.not_passing

theorem chunk_spent (size : 0 < w.transaction.maxPerChunk) (some : tuples ≠ [])
    (ready : c.prepare w.request = .ok p) {outcomes : List (List TupleOutcome)}
    (ends : (chunkRound p w side tuples).Ends trace (.ok outcomes)) (mem : trace ∈ traces)
    {j : Nat} {x : TupleOutcome} (got : outcomes.flatten[j]? = .some x)
    (reported : x.error = .some e) (passing : e.Passing) : tuples[j]? = .some x.tuple ∧
      Spent (c.policyFor w.request) traces (j / w.transaction.maxPerChunk) e
        (c.SendsAmong w side x.tuple) := by
  have done := side_done size some ends
  obtain ⟨placed, here, same, alone, outcome, final, report⟩ :=
    forall₂_get_right (done.reported _ rfl) got
  cases List.mem_singleton.mp alone
  rw [Pool.placed_get, Option.map_eq_some_iff] at here
  obtain ⟨tuple, there, rfl⟩ := here
  cases report with
  | accepted => cases reported
  | @refused err _ kept =>
    cases reported
    obtain ⟨s, ran, -⟩ := ends
    obtain ⟨q, sent, -⟩ := Round.finals_launched ran ((Round.final?_eq_some ran).mp final)
    obtain ⟨chunk, formed, rfl⟩ := chunkRound_request sent
    have within : tuple ∈ chunk := by
      have place := groups_place size tuples j
      rw [formed, there] at place
      exact List.mem_of_getElem? place
    refine ⟨there, ?_⟩
    rw [← (prepare_policy ready).1]
    exact Round.final_spent ran mem sent final passing ⟨p, chunk, ready, rfl, within⟩

theorem writeChunks_ended {α : Type} {a : α}
    {next : Option (List TupleOutcome) → Program (List TupleOutcome) α}
    (size : 0 < w.transaction.maxPerChunk)
    (run : (writeChunks p w side tuples next).Yields traces (.ok a)) :
    ∃ first rest report, traces = first ++ rest ∧ (next report).Yields rest (.ok a) ∧
      ∀ outcomes, report = some outcomes → tuples ≠ [] ∧ ∃ trace ∈ first, ∃ answers,
        (chunkRound p w side tuples).Ends trace (.ok answers) ∧ outcomes = answers.flatten := by
  by_cases none : tuples = []
  · rw [writeChunks, if_pos none] at run
    exact ⟨[], traces, .none, rfl, run, by simp⟩
  · rw [writeChunks_round size none] at run
    rcases Program.yields_round.mp run with
      ⟨trace, f, -, -, eq⟩ | ⟨trace, rest, answers, ends, rfl, later⟩
    · cases eq
    · refine ⟨[trace], rest, _, rfl, later, ?_⟩
      rintro outcomes ⟨⟩
      exact ⟨none, trace, List.mem_singleton_self trace, answers, ends, rfl⟩

theorem allSucceeded_error {outcomes : List TupleOutcome} {x : TupleOutcome}
    (listed : allSucceeded tuples = some outcomes) (mem : x ∈ outcomes) : x.error = none := by
  unfold allSucceeded at listed
  split at listed
  · cases listed
  · cases listed
    obtain ⟨tuple, -, rfl⟩ := List.mem_map.mp mem
    rfl

theorem write_reported_spent {report : WriteReport}
    (run : (c.write request w).Yields traces (.ok report)) {outcomes : List TupleOutcome} {j : Nat}
    {x : TupleOutcome} (given : report.ofSide side = some outcomes) (got : outcomes[j]? = some x)
    (reported : x.error = some e) (passing : e.Passing) :
    (side.tuplesOf request)[j]? = some x.tuple ∧
      Spent (c.policyFor w.request) traces (j / w.transaction.maxPerChunk) e
        (c.SendsAmong w side x.tuple) := by
  rcases write_shape c request w with
    ⟨cause, -, eq⟩ | ⟨p, ready, filled, ⟨-, eq⟩ | ⟨chunked, size⟩⟩
  · rw [eq] at run
    cases (Program.yields_refuse.mp run).2
  · rw [eq] at run
    obtain ⟨trace, ending, -, -, eq⟩ := Program.yields_single.mp run
    cases ending with
    | error f => cases eq
    | ok results =>
      cases eq
      have fine : x.error = none := by
        cases side with
        | writes => exact allSucceeded_error given (List.mem_of_getElem? got)
        | deletes => exact allSucceeded_error given (List.mem_of_getElem? got)
      cases reported.symm.trans fine
  · rw [write_chunks filled chunked ready] at run
    obtain ⟨first, rest, writes, rfl, later, written⟩ := writeChunks_ended size run
    obtain ⟨second, last, deletes, rfl, done, deleted⟩ := writeChunks_ended size later
    cases (Program.yields_done.mp done).2
    cases side with
    | writes =>
      obtain ⟨some, trace, mem, answers, ends, rfl⟩ := written outcomes given
      exact chunk_spent size some ready ends (List.mem_append_left _ mem) got reported passing
    | deletes =>
      obtain ⟨some, trace, mem, answers, ends, rfl⟩ := deleted outcomes given
      exact chunk_spent size some ready ends
        (List.mem_append_right _ (List.mem_append_left _ mem)) got reported passing

/-! ### Lists of relations -/

theorem listRelations_under (c : Client) (supply : IdSupply) (q : RelationsQuestion)
    (b : BatchOptions) :
    (c.listRelations supply q b).EveryRound (Round.Under (c.policyFor b.request)) :=
  (listRelations_prepares c supply q b).mono Prepares.under

theorem listRelations_spent {q : RelationsQuestion}
    (run : (c.listRelations supply q b).Yields traces (.error e)) (passing : e.Passing) :
    ∃ (i : Nat) (relation : String), q.relations[i]? = some relation ∧
      Spent (c.policyFor b.request) traces i e (c.ChecksOne b.request (q.about relation)) := by
  unfold listRelations at run
  split at run
  · cases (Program.yields_refuse.mp run).2
    cases passing
  · obtain ⟨first, checked, eq⟩ := Program.yields_andThen.mp run
    cases first with
    | error f =>
      cases eq
      exact absurd passing (checkEach_lasting checked)
    | ok verdicts =>
      simp only [Except.bind] at eq
      split at eq
      · rename_i f found
        cases eq
        obtain ⟨v, mem, reported⟩ := List.exists_of_findSome?_eq_some found
        obtain ⟨i, got⟩ := List.mem_iff_getElem?.mp mem
        obtain ⟨asked, here, -, spent⟩ := checkEach_spent checked got reported passing
        rw [List.getElem?_map, Option.map_eq_some_iff] at here
        obtain ⟨relation, candidate, rfl⟩ := here
        exact ⟨i, relation, candidate, spent⟩
      · cases eq

/-- Whatever the transport answers and in whatever order requests end, the attempts of a request are
repeats of one call, within the bounds of the operation's policy, and a failure that may pass is
reported for no request that could have been sent again. -/
theorem retries_honest (c : Client) (supply : IdSupply) : c.RetriesHonestly supply where
  check q o := by
    rw [check_asks]
    exact askOnce_retries _ _ _ _ _ _
  check_failed q o _ _ run := by
    rw [check_asks] at run
    exact askOnce_spent run
  listObjects q o := by
    rw [listObjects_asks]
    exact askOnce_retries _ _ _ _ _ _
  listObjects_failed q o _ _ run := by
    rw [listObjects_asks] at run
    exact askOnce_spent run
  checkEach questions b := (checkEach_under c supply questions b).retries
  checkEach_failed _ _ _ _ := checkEach_lasting
  checkEach_reported _ _ _ _ run _ _ _ := checkEach_spent run
  checkGroups questions b visits := (checkGroups_under c supply questions b visits).retries
  checkGroups_failed _ _ _ _ _ := checkGroups_lasting
  checkGroups_reported _ _ _ _ _ run _ mem _ := checkGroups_spent run mem
  write request w := (write_under c request w).retries
  write_failed _ _ _ _ := write_spent
  write_reported _ _ _ _ run _ _ _ _ _ := write_reported_spent run
  listRelations q b := (listRelations_under c supply q b).retries
  listRelations_failed _ _ _ _ := listRelations_spent

/-- With one retry, a check that meets an overload and then too many requests has been sent twice
when it reports the latter. -/
theorem overload_retried : ∃ traces e,
    ((ofStore (.ofNat 1)).check anneReads { retry := some ⟨1, .zero, .zero⟩ }).Yields traces
      (.error e) ∧ e = .ofCall (.http 429 none none) ∧
    ∃ trace ∈ traces, (trace.attempts 0).length = 2 := by
  have run : ∃ traces, ((ofStore (.ofNat 1)).check anneReads
      { retry := some ⟨1, .zero, .zero⟩ }).Yields traces
        (.error (.ofCall (.http 429 none none))) :=
    ⟨_, .failed ⟨_, .next (.next (.next (.next .opened (c := .start) rfl)
      (c := .answer 0 (.error (.http 503 none none)) ⟨0, 0⟩) rfl) (c := .wake 0) rfl)
      (c := .answer 0 (.error (.http 429 none none)) ⟨0, 0⟩) rfl, rfl⟩⟩
  obtain ⟨traces, run⟩ := run
  obtain ⟨trace, mem, spent, -⟩ := (retries_honest (ofStore (.ofNat 1)) fun _ => "").check_failed
    _ _ _ _ run trivial
  exact ⟨traces, _, run, rfl, trace, mem, spent.attempts⟩

end Client

end Rebac
