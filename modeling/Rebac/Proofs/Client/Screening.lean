import Rebac.Proofs.Client.ChunkedWrite
import Rebac.Proofs.Client.FailClosed
import Rebac.Proofs.Dispatch.Contract
import Rebac.Proofs.Dispatch.Progress

set_option autoImplicit false

/-!
# Input is rejected before the first call

An operation that finds its input wrong ends at once: its program has no round. One that goes on
has nothing left to find wrong, since no request makes a validation error of any outcome.
-/
namespace Rebac

open Dispatch Batch

/-- An error that no check of the input has found. -/
def ClientError.Remote (e : ClientError) : Prop := ∀ cause, e ≠ .validation cause

/-! ## Programs that screen their input -/

namespace Dispatch

theorem Round.Ends.sent {τ : Type} {r : Round τ} {trace : Trace}
    {ending : Except ClientError (List τ)} (ends : r.Ends trace ending) (some : r.requests ≠ []) :
    trace.sent ≠ [] := by
  have launched : ∃ launch, launch ∈ trace.launches := by
    cases ending with
    | error e =>
      obtain ⟨i, outcome, -, final, -⟩ := (ends_error_iff ends e).mp rfl
      obtain ⟨s, run, -⟩ := ends
      obtain ⟨q, -, launched⟩ := finals_launched run final
      exact ⟨_, launched⟩
    | ok results =>
      rw [(ends_ok ends).1, calls]
      obtain ⟨first, rest, eq⟩ := List.exists_cons_of_ne_nil some
      exact ⟨(0, first.call), by simp [eq, Pool.placed]⟩
  obtain ⟨launch, launched⟩ := launched
  exact List.ne_nil_of_mem (trace.launches_sent.subset launched)

namespace Program

variable {τ α : Type} {rejected idle : Prop} {errors : α → List ClientError}

/-- A result whose errors are remote: its own error, or those that it reports for the parts of the
input. -/
def Remote (errors : α → List ClientError) : Except ClientError α → Prop
  | .error e => e.Remote
  | .ok a => ∀ e ∈ errors a, e.Remote

/-- A program refuses its input if it is to be rejected, and only then, and refuses it before the
first call. Input that is not rejected comes to a call, if there is anything to call for. -/
structure Screens (p : Program τ α) (rejected idle : Prop) (errors : α → List ClientError) :
    Prop where
  refused_iff : ∀ traces result, p.Yields traces result →
    ((∃ cause, result = .error (.validation cause)) ↔ rejected)
  unsent : ∀ traces cause, p.Yields traces (.error (.validation cause)) →
    traces.flatMap Trace.sent = []
  called : ¬ rejected → ¬ idle → ∀ traces result, p.Yields traces result →
    traces.flatMap Trace.sent ≠ []
  remote : ∀ traces a, p.Yields traces (.ok a) → ∀ e ∈ errors a, e.Remote
  /-- There is something to hold all this of: every transport brings a whole run about. -/
  yields : ∀ answer, ∃ traces result, p.Yields traces result ∧
    ∀ trace ∈ traces, trace.AnsweredBy answer

theorem screens_refuse (cause : ValidationError) (wrong : rejected) :
    (refuse (.validation cause) : Program τ α).Screens rejected idle errors where
  refused_iff := by
    intro traces result run
    exact ⟨fun _ => wrong, fun _ => ⟨cause, (yields_refuse.mp run).2⟩⟩
  unsent := by
    intro traces cause run
    rw [(yields_refuse.mp run).1]
    rfl
  called := fun right => absurd wrong right
  remote := by
    intro traces a run
    cases (yields_refuse.mp run).2
  yields := fun answer => yields_some answer _

theorem screens_done {a : α} {events : List Event} (right : ¬ rejected) (nothing : idle)
    (remote : ∀ e ∈ errors a, e.Remote) :
    (done (.ok a) events : Program τ α).Screens rejected idle errors where
  refused_iff := by
    intro traces result run
    obtain ⟨-, rfl⟩ := yields_done.mp run
    refine ⟨?_, fun wrong => absurd wrong right⟩
    rintro ⟨cause, eq⟩
    cases eq
  unsent := by
    intro traces cause run
    cases (yields_done.mp run).2
  called := fun _ some => absurd nothing some
  remote := by
    intro traces b run
    cases (yields_done.mp run).2
    exact remote
  yields := fun answer => yields_some answer _

theorem screens_round {r : Round τ} {next : List τ → Program τ α} {T : τ → Prop}
    (right : ¬ rejected) (some : r.requests ≠ []) (keeps : (round r next).Keeps T (Remote errors)) :
    (round r next).Screens rejected idle errors where
  refused_iff := by
    intro traces result run
    have remote := keeps.yields run
    constructor
    · rintro ⟨cause, rfl⟩
      exact absurd rfl (remote cause)
    · exact fun wrong => absurd wrong right
  unsent := by
    intro traces cause run
    exact absurd rfl (keeps.yields run cause)
  called := by
    intro _ _ traces result run
    rcases yields_round.mp run with
      ⟨trace, e, ends, rfl, -⟩ | ⟨trace, later, results, ends, rfl, -⟩
    · simpa using ends.sent some
    · intro silent
      exact ends.sent some (List.append_eq_nil_iff.mp silent).1
  remote := fun _ _ run => keeps.yields run
  yields := fun answer => yields_some answer _

end Program

end Dispatch

/-! ## No outcome amounts to a validation error -/

theorem ClientError.remote_ofCall (e : CallError) : (ofCall e).Remote := by
  intro cause
  cases e with
  | http status hint body => cases kind : CallError.classOf status <;> simp [ofCall, kind]
  | _ => simp [ofCall]

theorem ClientError.remote_protocol (reason : String) : (protocol reason).Remote := by
  intro cause
  simp

theorem Answer.ofOutcome_remote {α : Type} {decode : Json → Json.Decoded α} {outcome : Outcome}
    {e : ClientError} (failed : ofOutcome decode outcome = .error e) : e.Remote := by
  rcases ofOutcome_error.mp failed with ⟨err, rfl, rfl⟩ | ⟨response, reason, rfl, -, rfl⟩
  · exact ClientError.remote_ofCall err
  · exact ClientError.remote_protocol _

def Verdict.Remote (v : Verdict) : Prop := ∀ e, v.error = some e → e.Remote

def TupleOutcome.Remote (x : TupleOutcome) : Prop := ∀ e, x.error = some e → e.Remote

namespace Batch

variable {outcome : Outcome} {e : ClientError}

theorem settleOne_remote (item : Identified) (outcome : Outcome) :
    (∀ v, settleOne item outcome = .ok v → v.Remote) ∧
      ∀ e, settleOne item outcome = .error e → e.Remote := by
  unfold settleOne
  cases read : Answer.ofOutcome Answer.check outcome with
  | ok allowed => simp [Verdict.answered, Verdict.Remote]
  | error f =>
    have remote := Answer.ofOutcome_remote read
    by_cases fatal : f.fatal = true
    · simpa [fatal] using remote
    · simpa [fatal, Verdict.failed, Verdict.Remote] using remote

theorem Decides.remote {id : String} {allowed : Bool}
    (decided : Decides outcome id allowed (some e)) : e.Remote := by
  generalize given : some e = error at decided
  cases decided with
  | failed _ =>
    cases given
    exact ClientError.remote_ofCall _
  | undecodable _ =>
    cases given
    exact ClientError.remote_protocol _
  | answered _ _ _ _ =>
    obtain ⟨fault, -, rfl⟩ := Option.map_eq_some_iff.mp given.symm
    intro cause
    simp
  | omitted _ _ _ =>
    cases given
    exact ClientError.remote_protocol _

theorem Aborts.remote {group : List Identified} (aborts : Aborts group outcome e) : e.Remote := by
  cases aborts with
  | rejected _ => exact ClientError.remote_ofCall _
  | unknown _ _ _ => exact ClientError.remote_protocol _

theorem settleGroup_remote {visit : Visit} {group : List Identified} {verdicts : List Verdict}
    (once : (group.map Identified.id).Nodup)
    (settled : settleGroup visit group outcome = .ok verdicts) : ∀ v ∈ verdicts, v.Remote := by
  obtain ⟨inOrder, perm, reports⟩ := settleGroup_ok once settled
  intro v mem e reported
  obtain ⟨item, -, report⟩ := forall₂_mem_right reports (perm.mem_iff.mp mem)
  have decided := report.decided
  rw [reported] at decided
  exact decided.remote

end Batch

theorem TupleReported.remote {outcome : Outcome} {tuple : RelationTuple} {x : TupleOutcome}
    (reported : TupleReported outcome tuple x) : x.Remote := by
  cases reported with
  | accepted => simp [TupleOutcome.Remote]
  | @refused err _ kept => simpa [TupleOutcome.Remote] using ClientError.remote_ofCall err

/-! ## The operations -/

def Verdict.errors (verdicts : List Verdict) : List ClientError := verdicts.filterMap Verdict.error

def WriteReport.errors (report : WriteReport) : List ClientError :=
  (report.writes.getD [] ++ report.deletes.getD []).filterMap TupleOutcome.error

namespace Client

def BatchUnready (c : Client) (questions : List Question) (o : BatchOptions) : Prop :=
  questions ≠ [] ∧ (c.Unready o.request ∨ ¬ (declared questions).Nodup)

structure ScreensInput (c : Client) (supply : IdSupply) : Prop where
  check : ∀ q o, (c.check q o).Screens (c.Unready o) False fun _ => []
  listObjects : ∀ q o, (c.listObjects q o).Screens (c.Unready o) False fun _ => []
  checkEach : ∀ questions o, supply.Fresh questions → (c.checkEach supply questions o).Screens
    (c.BatchUnready questions o) (questions = []) Verdict.errors
  checkEach_empty : ∀ o traces result, (c.checkEach supply [] o).Yields traces result ↔
    traces = [] ∧ result = .ok []
  checkGroups : ∀ questions o visits, supply.Fresh questions →
    (c.checkGroups supply questions o visits).Screens
      (o.maxBatchSize = 0 ∨ c.BatchUnready questions o) (questions = []) Verdict.errors
  checkGroups_empty : ∀ o visits traces result, 1 ≤ o.maxBatchSize →
    ((c.checkGroups supply [] o visits).Yields traces result ↔ traces = [] ∧ result = .ok [])
  write : ∀ request o,
    (c.write request o).Screens (c.WriteUnready request o) False WriteReport.errors
  listRelations : ∀ q o, supply.Fresh (q.relations.map q.about) →
    (c.listRelations supply q o).Screens (q.relations = [] ∨ c.Unready o.request) False fun _ => []

variable {c : Client} {supply : IdSupply} {o : RequestOptions} {b : BatchOptions} {p : Prepared}
  {questions : List Question} {items : List Identified}

theorem ready_of_prepare (ready : c.prepare o = .ok p) : ¬ c.Unready o := by
  intro unready
  obtain ⟨cause, refused⟩ := prepare_refuses.mpr unready
  cases refused.symm.trans ready

theorem single_screens {τ α : Type} {rejected idle : Prop} {errors : α → List ClientError}
    {call : Call} {settle : Outcome → Except ClientError τ} {value : List τ → α}
    {events : List τ → List Event} (right : ¬ rejected)
    (failed : ∀ outcome e, settle outcome = .error e → e.Remote)
    (remote : ∀ results, ∀ e ∈ errors (value results), e.Remote) :
    (Program.round (p.single call settle) fun results =>
      .done (.ok (value results)) (events results)).Screens rejected idle errors := by
  apply Program.screens_round (T := fun _ => True) right
  · simp [Prepared.single]
  · refine ⟨?_, fun results _ => remote results⟩
    intro q mem outcome
    cases List.mem_singleton.mp mem
    exact ⟨fun _ _ => trivial, failed outcome⟩

theorem askOnce_screens {τ α : Type} (c : Client) (o : RequestOptions) (call : Prepared → Call)
    (decode : Json → Json.Decoded τ) (value : List τ → α) (events : List τ → List Event) :
    (c.askOnce o call decode value events).Screens (c.Unready o) False fun _ => [] := by
  unfold askOnce
  cases ready : c.prepare o with
  | error cause => exact Program.screens_refuse cause (prepare_refuses.mp ⟨cause, ready⟩)
  | ok p =>
    exact single_screens (ready_of_prepare ready) (fun _ _ => Answer.ofOutcome_remote) (by simp)

/-! ### Batches -/

theorem verdict_errors_remote {verdicts : List Verdict} (remote : ∀ v ∈ verdicts, v.Remote) :
    ∀ e ∈ Verdict.errors verdicts, e.Remote := by
  intro e reported
  obtain ⟨v, mem, has⟩ := List.mem_filterMap.mp reported
  exact remote v mem e has

theorem batch_unready {cause : ValidationError} (fresh : supply.Fresh questions)
    (wrong : questions ≠ [] ∧ (c.Unready b.request ∨ identify supply questions = .error cause)) :
    c.BatchUnready questions b :=
  ⟨wrong.1, wrong.2.imp_right fun repeated => (identify_refuses fresh).mp ⟨cause, repeated⟩⟩

theorem batch_ready (fresh : supply.Fresh questions)
    (named : identify supply questions = .ok items) (ready : c.prepare b.request = .ok p) :
    ¬ c.BatchUnready questions b := by
  rintro ⟨-, unready | repeated⟩
  · exact ready_of_prepare ready unready
  · exact repeated ((identify_eq_ok_iff fresh).mp named).1

theorem eachRound_keeps (p : Prepared) (b : BatchOptions) (items : List Identified)
    (events : List Verdict → List Event) :
    (Program.round (eachRound p b items) fun verdicts =>
        .done (.ok verdicts) (events verdicts)).Keeps
      Verdict.Remote (Program.Remote Verdict.errors) := by
  refine ⟨?_, fun verdicts remote => verdict_errors_remote remote⟩
  intro q mem outcome
  obtain ⟨item, -, rfl⟩ := List.mem_map.mp mem
  exact settleOne_remote item outcome

theorem eachRound_requests (some : items ≠ []) : (eachRound p b items).requests ≠ [] := by
  simpa [eachRound] using some

theorem checkEach_screens (fresh : supply.Fresh questions) :
    (c.checkEach supply questions b).Screens (c.BatchUnready questions b) (questions = [])
      Verdict.errors := by
  rcases checkEach_shape c supply questions b with
    ⟨cause, wrong, eq⟩ | ⟨none, eq⟩ | ⟨items, p, events, filled, named, ready, eq⟩
  · rw [eq]
    exact Program.screens_refuse cause (batch_unready fresh wrong)
  · rw [eq]
    exact Program.screens_done (fun unready => unready.1 none) none (by simp [Verdict.errors])
  · rw [eq]
    exact Program.screens_round (batch_ready fresh named ready) (eachRound_requests filled)
      (eachRound_keeps p b items events)

theorem groupRound_keeps {visits : List Identified → Visit} (size : 0 < b.maxBatchSize)
    (once : (items.map Identified.id).Nodup) (events : List (List Verdict) → List Event) :
    (Program.round (groupRound p b visits items) fun answers =>
        .done (.ok answers.flatten) (events answers)).Keeps
      (fun verdicts => ∀ v ∈ verdicts, v.Remote) (Program.Remote Verdict.errors) := by
  constructor
  · intro q mem outcome
    obtain ⟨group, there, rfl⟩ := List.mem_map.mp mem
    exact ⟨fun verdicts => settleGroup_remote (group_nodup size once there),
      fun e settled => (settleGroup_error settled).remote⟩
  · intro answers remote
    apply verdict_errors_remote
    intro v mem
    obtain ⟨verdicts, there, listed⟩ := List.mem_flatten.mp mem
    exact remote verdicts there v listed

theorem checkGroups_screens {visits : List Identified → Visit} (fresh : supply.Fresh questions) :
    (c.checkGroups supply questions b visits).Screens
      (b.maxBatchSize = 0 ∨ c.BatchUnready questions b) (questions = []) Verdict.errors := by
  rcases checkGroups_shape c supply questions b visits with
    ⟨cause, wrong, eq⟩ | ⟨none, size, eq⟩ | ⟨items, p, events, filled, named, size, ready, eq⟩
  · rw [eq]
    exact Program.screens_refuse cause (wrong.imp_right (batch_unready fresh))
  · have right : ¬ (b.maxBatchSize = 0 ∨ c.BatchUnready questions b) :=
      not_or.mpr ⟨Nat.ne_of_gt size, fun unready => unready.1 none⟩
    rw [eq]
    exact Program.screens_done right none (by simp [Verdict.errors])
  · have right : ¬ (b.maxBatchSize = 0 ∨ c.BatchUnready questions b) :=
      not_or.mpr ⟨Nat.ne_of_gt size, batch_ready fresh named ready⟩
    rw [eq]
    refine Program.screens_round right ?_ (groupRound_keeps size (identify_ok named).2 events)
    simp [groupRound, groups_eq size filled]

/-! ### Writes -/

theorem write_errors_remote {report : WriteReport}
    (writes : ∀ x ∈ report.writes.getD [], x.Remote)
    (deletes : ∀ x ∈ report.deletes.getD [], x.Remote) : ∀ e ∈ report.errors, e.Remote := by
  intro e reported
  obtain ⟨x, mem, has⟩ := List.mem_filterMap.mp reported
  rcases List.mem_append.mp mem with written | deleted
  · exact writes x written e has
  · exact deletes x deleted e has

variable {request : WriteRequest} {w : WriteOptions} {side : WriteSide}
  {tuples : List RelationTuple}
  {next : Option (List TupleOutcome) → Program (List TupleOutcome) WriteReport}

theorem writeChunks_keeps (size : 0 < w.transaction.maxPerChunk)
    (goes : ∀ report : Option (List TupleOutcome), (∀ x ∈ report.getD [], x.Remote) →
      (next report).Keeps (fun outcomes => ∀ x ∈ outcomes, x.Remote)
        (Program.Remote WriteReport.errors)) :
    (writeChunks p w side tuples next).Keeps (fun outcomes => ∀ x ∈ outcomes, x.Remote)
      (Program.Remote WriteReport.errors) := by
  by_cases none : tuples = []
  · rw [writeChunks, if_pos none]
    exact goes .none (by simp)
  rw [writeChunks_round size none]
  constructor
  · intro q mem outcome
    obtain ⟨chunk, -, rfl⟩ := List.mem_map.mp mem
    constructor
    · intro outcomes settled x listed
      obtain ⟨tuple, -, reported⟩ := forall₂_mem_right (settleChunk_ok settled) listed
      exact reported.remote
    · intro e settled
      obtain ⟨err, -, -, rfl⟩ := settleChunk_error_iff.mp settled
      exact ClientError.remote_ofCall err
  · intro outcomes remote
    apply goes
    intro x listed
    obtain ⟨chunk, there, within⟩ := List.mem_flatten.mp listed
    exact remote chunk there x within

theorem writeChunks_screens {rejected : Prop} (right : ¬ rejected)
    (size : 0 < w.transaction.maxPerChunk) (some : tuples ≠ [])
    (keeps : (writeChunks p w side tuples next).Keeps (fun outcomes => ∀ x ∈ outcomes, x.Remote)
      (Program.Remote WriteReport.errors)) :
    (writeChunks p w side tuples next).Screens rejected False WriteReport.errors := by
  rw [writeChunks_round size some] at keeps ⊢
  refine Program.screens_round right ?_ keeps
  simp [chunkRound, groups_eq size some]

theorem write_chunks_screens (right : ¬ c.WriteUnready request w) (filled : request.isEmpty = false)
    (chunked : w.transaction.transactional = false) (size : 0 < w.transaction.maxPerChunk)
    (ready : c.prepare w.request = .ok p) :
    (c.write request w).Screens (c.WriteUnready request w) False WriteReport.errors := by
  have deletes (writes : Option (List TupleOutcome)) (fine : ∀ x ∈ writes.getD [], x.Remote) :
      (writeChunks p w .deletes request.deletes fun deletes => .done (.ok ⟨writes, deletes⟩)
        [.chunksWritten (WriteReport.failures ⟨writes, deletes⟩).length]).Keeps
        (fun outcomes => ∀ x ∈ outcomes, x.Remote) (Program.Remote WriteReport.errors) :=
    writeChunks_keeps size fun deletes fine' => by exact write_errors_remote fine fine'
  rw [write_chunks filled chunked ready]
  by_cases none : request.writes = []
  · have some : request.deletes ≠ [] := fun none' => right (.inl ⟨none, none'⟩)
    rw [none, writeChunks, if_pos rfl]
    exact writeChunks_screens right size some (deletes .none (by simp))
  · exact writeChunks_screens right size none (writeChunks_keeps size deletes)

theorem write_ready (filled : request.isEmpty = false) (ready : c.prepare w.request = .ok p)
    (sized : w.transaction.transactional = false → 0 < w.transaction.maxPerChunk) :
    ¬ c.WriteUnready request w := by
  rintro (⟨none, none'⟩ | unready | ⟨chunked, zero⟩)
  · simp [WriteRequest.isEmpty, none, none'] at filled
  · exact ready_of_prepare ready unready
  · exact Nat.ne_of_gt (sized chunked) zero

theorem allSucceeded_remote (tuples : List RelationTuple) :
    ∀ x ∈ (allSucceeded tuples).getD [], x.Remote := by
  unfold allSucceeded
  split <;> simp [TupleOutcome.Remote, TupleOutcome.success]

theorem write_screens (c : Client) (request : WriteRequest) (w : WriteOptions) :
    (c.write request w).Screens (c.WriteUnready request w) False WriteReport.errors := by
  rcases write_shape c request w with
    ⟨cause, wrong, eq⟩ | ⟨p, ready, filled, ⟨whole, eq⟩ | ⟨chunked, size⟩⟩
  · rw [eq]
    exact Program.screens_refuse cause wrong
  · have right : ¬ c.WriteUnready request w :=
      write_ready filled ready fun chunked => by cases whole.symm.trans chunked
    rw [eq]
    refine single_screens right ?_ fun results =>
      write_errors_remote (allSucceeded_remote _) (allSucceeded_remote _)
    intro outcome e failed
    cases outcome with
    | ok response => cases failed
    | error err =>
      cases failed
      exact ClientError.remote_ofCall err
  · exact write_chunks_screens (write_ready filled ready fun _ => size) filled chunked size ready

/-! ### Lists of relations -/

theorem declared_about (q : RelationsQuestion) : declared (q.relations.map q.about) = [] := by
  simp [declared, RelationsQuestion.about]

theorem listRelations_screens {q : RelationsQuestion}
    (fresh : supply.Fresh (q.relations.map q.about)) :
    (c.listRelations supply q b).Screens (q.relations = [] ∨ c.Unready b.request) False
      fun _ => [] := by
  unfold listRelations
  by_cases none : q.relations = []
  · rw [if_pos none]
    exact Program.screens_refuse _ (.inl none)
  rw [if_neg none]
  rcases checkEach_shape c supply (q.relations.map q.about) b with
    ⟨cause, ⟨-, unready | repeated⟩, eq⟩ | ⟨empty, -⟩ | ⟨items, p, events, filled, -, ready, eq⟩
  · rw [eq]
    exact Program.screens_refuse cause (.inr unready)
  · have twice := (identify_refuses fresh).mp ⟨cause, repeated⟩
    rw [declared_about] at twice
    exact absurd List.nodup_nil twice
  · exact absurd (List.map_eq_nil_iff.mp empty) none
  · rw [eq]
    refine Program.screens_round (not_or.mpr ⟨none, ready_of_prepare ready⟩)
      (eachRound_requests filled) (Program.Keeps.andThen (eachRound_keeps p b items events) ?_)
    intro first remote
    cases first with
    | error e => exact remote
    | ok verdicts =>
      simp only [Except.bind]
      split
      · rename_i e found
        obtain ⟨v, mem, has⟩ := List.exists_of_findSome?_eq_some found
        exact remote e (List.mem_filterMap.mpr ⟨v, mem, has⟩)
      · intro e mem
        cases mem

/-- Whatever the transport answers and in whatever order requests end, every operation rejects
just the input that fails a check, and rejects it before the first call. -/
theorem input_screened (c : Client) (supply : IdSupply) : c.ScreensInput supply where
  check q o := by
    rw [check_asks]
    exact askOnce_screens _ _ _ _ _ _
  listObjects q o := by
    rw [listObjects_asks]
    exact askOnce_screens _ _ _ _ _ _
  checkEach _ _ := checkEach_screens
  checkEach_empty _ _ _ := Program.yields_done
  checkGroups _ _ _ := checkGroups_screens
  checkGroups_empty _ _ _ _ size := by
    rw [checkGroups_empty rfl size]
    exact Program.yields_done
  write := write_screens c
  listRelations _ _ := listRelations_screens

/-- A batch that declares an id twice is refused, and one that does not comes to a call. -/
theorem repeated_id_screened :
    (∀ traces result,
      ((ofStore (.ofNat 1)).checkEach (fun _ => "") [anneReads, anneReads] {}).Yields traces result →
        ∃ cause, result = .error (.validation cause)) ∧
    ∃ traces result, ((ofStore (.ofNat 1)).checkEach (fun _ => "") [anneReads, bobReads] {}).Yields
      traces result ∧ traces.flatMap Trace.sent ≠ [] := by
  have screens := input_screened (ofStore (.ofNat 1)) fun _ => ""
  constructor
  · have fresh : IdSupply.Fresh (fun _ => "") [anneReads, anneReads] := by
      constructor <;> simp [generatedFrom, generatedCount, anneReads]
    intro traces result run
    refine ((screens.checkEach _ _ fresh).refused_iff _ _ run).mpr ⟨by simp, .inr ?_⟩
    simp [declared, anneReads]
  · have fresh : IdSupply.Fresh (fun _ => "") [anneReads, bobReads] := by
      constructor <;> simp [generatedFrom, generatedCount, anneReads, bobReads]
    have fine := screens.checkEach _ {} fresh
    obtain ⟨traces, result, run, -⟩ := fine.yields fun _ => .ok ⟨200, .null⟩
    refine ⟨traces, result, run, fine.called ?_ (by simp) _ _ run⟩
    rintro ⟨-, unready | repeated⟩
    · obtain ⟨p, ready⟩ := ofStore_ready (.ofNat 1)
      exact ready_of_prepare ready unready
    · exact repeated (by decide)

end Client

end Rebac
