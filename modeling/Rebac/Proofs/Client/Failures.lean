import Rebac.Proofs.Client.Relations
import Rebac.Proofs.Client.Retries

set_option autoImplicit false

/-! # Failed calls are told -/

namespace Rebac

open Dispatch Batch

/-- An error ends an operation if it is fatal, and else is noted in what the operation returns. -/
def Blames {α : Type} (e : ClientError) (noted : α → Prop) (result : Except ClientError α) : Prop :=
  (e.fatal = true → result = .error e) ∧ ∀ a, result = .ok a → noted a

namespace Dispatch

theorem Program.not_mem_done {τ α : Type} {given result : Except ClientError α}
    {events : List Event} {trace : Trace} {traces : List Trace}
    (run : (.done given events : Program τ α).Yields traces result) : trace ∉ traces := by
  rw [(yields_done.mp run).1]
  exact List.not_mem_nil

end Dispatch

namespace Dispatch.Round

variable {τ : Type} {r : Round τ} {trace : Trace} {place : Nat} {outcome : Outcome}

theorem ends_final {result : Except ClientError (List τ)} (ends : r.Ends trace result)
    (final : trace.final? place = some outcome) : ∃ q, r.requests[place]? = some q ∧
      (∀ e, q.settle outcome = .error e → result = .error e) ∧
      ∀ results, result = .ok results → ∃ x, results[place]? = some x ∧
        q.settle outcome = .ok x := by
  have ended := ends
  obtain ⟨s, run, -⟩ := ended
  have mem := (final?_eq_some run).mp final
  obtain ⟨q, here, -⟩ := final_exchange run mem
  refine ⟨q, here, fun e settled => (ends_error_iff ends e).mpr
    ⟨place, outcome, q, mem, here, settled⟩, ?_⟩
  rintro results rfl
  have placed : (Pool.placed r.requests)[place]? = some (place, q) := by
    rw [Pool.placed_get, here]
    rfl
  obtain ⟨x, got, other, same, settled⟩ := forall₂_get_right (ends_ok ends).2.flip placed
  cases final.symm.trans same
  exact ⟨x, got, settled⟩

end Dispatch.Round

namespace Client

def AnsweredBut (trace : Trace) (place : Nat) : Prop :=
  ∀ i outcome, trace.final? i = some outcome → i ≠ place →
    ∃ allowed, Answer.ofOutcome Answer.check outcome = .ok allowed

/-- Where a request has ended in an outcome, the operation tells of an error: it is the operation's
own, or it is reported for all that the request was about. -/
structure TellsFailure (c : Client) (supply : IdSupply) (outcome : Outcome) (e : ClientError) :
    Prop where
  check : ∀ q o traces result, (c.check q o).Yields traces result →
    ∀ trace ∈ traces, ∀ place, trace.final? place = some outcome → result = .error e
  listObjects : ∀ q o traces result, (c.listObjects q o).Yields traces result →
    ∀ trace ∈ traces, ∀ place, trace.final? place = some outcome → result = .error e
  checkEach : ∀ questions o traces result, (c.checkEach supply questions o).Yields traces result →
    ∀ trace ∈ traces, ∀ place, trace.final? place = some outcome →
      Blames e (fun verdicts => ∃ q v, questions[place]? = some q ∧ verdicts[place]? = some v ∧
        v.question = { q with correlationId := some v.id } ∧ v.allowed = false ∧
        v.error = some e) result
  checkGroups : ∀ questions o visits traces result,
    (c.checkGroups supply questions o visits).Yields traces result →
    ∀ trace ∈ traces, ∀ place, trace.final? place = some outcome →
      Blames e (fun verdicts => ∀ (j : Nat) q, questions[j]? = some q →
        j / o.maxBatchSize = place → ∃ v ∈ verdicts,
          v.question = { q with correlationId := some v.id } ∧ v.allowed = false ∧
          v.error = some e) result
  writeAtOnce : ∀ request o traces result, o.transaction.transactional = true →
    (c.write request o).Yields traces result →
    ∀ trace ∈ traces, ∀ place, trace.final? place = some outcome → result = .error e
  writeChunks : ∀ request o traces result, o.transaction.transactional = false →
    (c.write request o).Yields traces result →
    ∀ trace ∈ traces, ∀ place, trace.final? place = some outcome →
      ∃ side : WriteSide, (∀ sent ∈ trace.sent, ∃ p chunk, side.Carries p chunk sent.2) ∧
        Blames e (fun report => ∃ outcomes, report.ofSide side = some outcomes ∧
          ∀ (j : Nat) tuple, (side.tuplesOf request)[j]? = some tuple →
            j / o.transaction.maxPerChunk = place →
            outcomes[j]? = some (.failure e tuple)) result
  /-- A list fails, and by this error if it is fatal or no other check has failed. -/
  listRelations : ∀ q o traces result, (c.listRelations supply q o).Yields traces result →
    ∀ trace ∈ traces, ∀ place, trace.final? place = some outcome →
      (∃ f, result = .error f) ∧
      (e.fatal = true ∨ AnsweredBut trace place → result = .error e)

variable {c : Client} {supply : IdSupply} {o : RequestOptions} {b : BatchOptions}
  {w : WriteOptions} {p : Prepared} {questions : List Question} {request : WriteRequest}
  {trace : Trace} {traces : List Trace} {place : Nat} {err : CallError} {e : ClientError}

/-! ## Single requests -/

theorem single_told {τ α : Type} {call : Call} {settle : Outcome → Except ClientError τ}
    {value : List τ → α} {events : List τ → List Event} {outcome : Outcome}
    {result : Except ClientError α}
    (run : (Program.round (p.single call settle) fun results =>
      .done (.ok (value results)) (events results)).Yields traces result)
    (mem : trace ∈ traces) (final : trace.final? place = some outcome)
    (fails : settle outcome = .error e) : result = .error e := by
  obtain ⟨only, ending, ends, rfl, rfl⟩ := Program.yields_single.mp run
  cases List.mem_singleton.mp mem
  obtain ⟨q, here, failed, -⟩ := Round.ends_final ends final
  cases List.mem_singleton.mp (List.mem_of_getElem? here)
  rw [failed e fails]
  rfl

theorem askOnce_told {τ α : Type} {call : Prepared → Call} {decode : Json → Json.Decoded τ}
    {value : List τ → α} {events : List τ → List Event} {result : Except ClientError α}
    (run : (c.askOnce o call decode value events).Yields traces result)
    (mem : trace ∈ traces) (final : trace.final? place = some (.error err)) :
    result = .error (.ofCall err) := by
  unfold askOnce at run
  cases ready : c.prepare o with
  | error cause =>
    rw [ready] at run
    exact absurd mem (Program.not_mem_done run)
  | ok p =>
    rw [ready] at run
    exact single_told run mem final rfl

theorem writeAtOnce_told {result : Except ClientError WriteReport}
    (whole : w.transaction.transactional = true) (run : (c.write request w).Yields traces result)
    (mem : trace ∈ traces) (final : trace.final? place = some (.error err)) :
    result = .error (.ofCall err) := by
  rcases write_shape c request w with
    ⟨cause, -, eq⟩ | ⟨p, -, -, ⟨-, eq⟩ | ⟨chunked, -⟩⟩
  · rw [eq] at run
    exact absurd mem (Program.not_mem_done run)
  · rw [eq] at run
    exact single_told run mem final rfl
  · cases whole.symm.trans chunked

/-! ## Batches -/

theorem checkEach_traced {result : Except ClientError (List Verdict)}
    (run : (c.checkEach supply questions b).Yields traces result) (mem : trace ∈ traces) :
    ∃ items p, identify supply questions = .ok items ∧ (eachRound p b items).Ends trace result := by
  rcases checkEach_shape c supply questions b with
    ⟨cause, -, eq⟩ | ⟨-, eq⟩ | ⟨items, p, events, -, named, -, eq⟩
  · rw [eq] at run
    exact absurd mem (Program.not_mem_done run)
  · rw [eq] at run
    exact absurd mem (Program.not_mem_done run)
  · rw [eq] at run
    obtain ⟨only, ending, ends, rfl, eq⟩ := Program.yields_single.mp run
    have same : result = ending := by cases ending <;> exact eq
    cases List.mem_singleton.mp mem
    exact ⟨items, p, named, same ▸ ends⟩

theorem eachRound_request {items : List Identified} {i : Nat} {q : Request Verdict}
    (here : (eachRound p b items).requests[i]? = some q) :
    ∃ item, items[i]? = some item ∧ q = questionRequest p item := by
  rw [eachRound, List.getElem?_map, Option.map_eq_some_iff] at here
  obtain ⟨item, there, rfl⟩ := here
  exact ⟨item, there, rfl⟩

theorem checkEach_told {result : Except ClientError (List Verdict)}
    (run : (c.checkEach supply questions b).Yields traces result) (mem : trace ∈ traces)
    (final : trace.final? place = some (.error err)) :
    Blames (.ofCall err) (fun verdicts => ∃ q v, questions[place]? = some q ∧
      verdicts[place]? = some v ∧ v.question = { q with correlationId := some v.id } ∧
      v.allowed = false ∧ v.error = some (.ofCall err)) result := by
  obtain ⟨items, p, named, ends⟩ := checkEach_traced run mem
  obtain ⟨request, here, failed, done⟩ := Round.ends_final ends final
  obtain ⟨item, there, rfl⟩ := eachRound_request here
  obtain ⟨q, asked, names⟩ := forall₂_get_right (identify_ok named).1 there
  refine ⟨fun fatal => failed _ (if_pos fatal), fun verdicts ok => ?_⟩
  obtain ⟨v, got, settled⟩ := done verdicts ok
  have settled : settleOne item (.error err) = .ok v := settled
  have eq : v = .failed item (.ofCall err) := settleOne_ok settled
  exact ⟨q, v, asked, got, by rw [eq]; exact names.question, by rw [eq]; rfl, by rw [eq]; rfl⟩

theorem checkGroups_traced {visits : List Identified → Visit}
    {result : Except ClientError (List Verdict)}
    (run : (c.checkGroups supply questions b visits).Yields traces result)
    (mem : trace ∈ traces) : ∃ items p ending, identify supply questions = .ok items ∧
      0 < b.maxBatchSize ∧ (groupRound p b visits items).Ends trace ending ∧
      result = ending.map List.flatten := by
  rcases checkGroups_shape c supply questions b visits with
    ⟨cause, -, eq⟩ | ⟨-, -, eq⟩ | ⟨items, p, events, -, named, size, -, eq⟩
  · rw [eq] at run
    exact absurd mem (Program.not_mem_done run)
  · rw [eq] at run
    exact absurd mem (Program.not_mem_done run)
  · rw [eq] at run
    obtain ⟨only, ending, ends, rfl, eq⟩ := Program.yields_single.mp run
    cases List.mem_singleton.mp mem
    exact ⟨items, p, ending, named, size, ends, eq⟩

theorem Reports.failed {item : Identified} {v : Verdict} (report : Reports (.error err) item v) :
    v.allowed = false ∧ v.error = some (.ofCall err) := by
  have decided := report.decided
  generalize v.allowed = allowed at decided ⊢
  generalize v.error = error at decided ⊢
  cases decided
  exact ⟨rfl, rfl⟩

theorem checkGroups_told {visits : List Identified → Visit}
    {result : Except ClientError (List Verdict)}
    (run : (c.checkGroups supply questions b visits).Yields traces result)
    (mem : trace ∈ traces) (final : trace.final? place = some (.error err)) :
    Blames (.ofCall err) (fun verdicts => ∀ (j : Nat) q, questions[j]? = some q →
      j / b.maxBatchSize = place → ∃ v ∈ verdicts,
        v.question = { q with correlationId := some v.id } ∧ v.allowed = false ∧
        v.error = some (.ofCall err)) result := by
  obtain ⟨items, p, ending, named, size, ends, rfl⟩ := checkGroups_traced run mem
  obtain ⟨names, once⟩ := identify_ok named
  constructor
  · intro fatal
    obtain ⟨request, here, failed, -⟩ := Round.ends_final ends final
    obtain ⟨group, -, rfl⟩ := groupRound_request here
    rw [failed _ (if_pos fatal)]
    rfl
  · intro verdicts ok j q asked carried
    cases ending with
    | error f => cases ok
    | ok answers =>
      cases ok
      obtain ⟨item, there, name⟩ := forall₂_get_right names.flip asked
      obtain ⟨inOrder, perm, reports⟩ := ends_reported size once ends
      have placed : (Pool.placed items)[j]? = some (j, item) := by
        rw [Pool.placed_get, there]
        rfl
      obtain ⟨v, got, outcome, same, report⟩ := forall₂_get_right reports.flip placed
      rw [carried, final] at same
      cases same
      refine ⟨v, perm.mem_iff.mpr (List.mem_of_getElem? got), ?_, Reports.failed report⟩
      rw [report.question, report.id]
      exact name.question

/-! ## Writes in chunks -/

theorem writeChunks_traced {α : Type} {side : WriteSide} {tuples : List RelationTuple}
    {next : Option (List TupleOutcome) → Program (List TupleOutcome) α}
    {result : Except ClientError α} (size : 0 < w.transaction.maxPerChunk)
    (run : (writeChunks p w side tuples next).Yields traces result) (mem : trace ∈ traces) :
    (∃ ending, (chunkRound p w side tuples).Ends trace ending ∧
      (∀ e, ending = .error e → result = .error e) ∧
      ∀ answers, ending = .ok answers →
        ∃ rest, (next (some answers.flatten)).Yields rest result) ∨
    ∃ report rest, trace ∈ rest ∧ (next report).Yields rest result := by
  by_cases none : tuples = []
  · rw [writeChunks, if_pos none] at run
    exact .inr ⟨.none, traces, mem, run⟩
  · rw [writeChunks_round size none] at run
    rcases Program.yields_round.mp run with
      ⟨only, f, ends, rfl, rfl⟩ | ⟨first, rest, answers, ends, rfl, later⟩
    · cases List.mem_singleton.mp mem
      refine .inl ⟨.error f, ends, fun e eq => ?_, fun answers eq => ?_⟩
      · cases eq
        rfl
      · cases eq
    · rcases List.mem_cons.mp mem with rfl | mem
      · refine .inl ⟨.ok answers, ends, fun e eq => ?_, fun others eq => ?_⟩
        · cases eq
        · cases eq
          exact ⟨rest, later⟩
      · exact .inr ⟨_, rest, mem, later⟩

theorem write_traced {result : Except ClientError WriteReport}
    (chunked : w.transaction.transactional = false)
    (run : (c.write request w).Yields traces result) (mem : trace ∈ traces) :
    ∃ p side ending, 0 < w.transaction.maxPerChunk ∧
      (chunkRound p w side (side.tuplesOf request)).Ends trace ending ∧
      (∀ e, ending = .error e → result = .error e) ∧
      ∀ report, result = .ok report → ∃ answers, ending = .ok answers ∧
        report.ofSide side = some answers.flatten := by
  rcases write_shape c request w with
    ⟨cause, -, eq⟩ | ⟨p, ready, filled, ⟨whole, -⟩ | ⟨-, size⟩⟩
  · rw [eq] at run
    exact absurd mem (Program.not_mem_done run)
  · cases whole.symm.trans chunked
  rw [write_chunks filled chunked ready] at run
  rcases writeChunks_traced size run mem with
    ⟨ending, ends, failed, goes⟩ | ⟨writes, rest, mem, run⟩
  · refine ⟨p, .writes, ending, size, ends, failed, ?_⟩
    rintro report rfl
    cases ending with
    | error f => cases failed f rfl
    | ok answers =>
      obtain ⟨rest, later⟩ := goes answers rfl
      obtain ⟨_, _, deletes, -, done, -⟩ := writeChunks_ended size later
      cases (Program.yields_done.mp done).2
      exact ⟨answers, rfl, rfl⟩
  · rcases writeChunks_traced size run mem with
      ⟨ending, ends, failed, goes⟩ | ⟨deletes, rest, mem, done⟩
    · refine ⟨p, .deletes, ending, size, ends, failed, ?_⟩
      rintro report rfl
      cases ending with
      | error f => cases failed f rfl
      | ok answers =>
        obtain ⟨rest, done⟩ := goes answers rfl
        cases (Program.yields_done.mp done).2
        exact ⟨answers, rfl, rfl⟩
    · exact absurd mem (Program.not_mem_done done)

theorem writeChunks_told {result : Except ClientError WriteReport}
    (chunked : w.transaction.transactional = false)
    (run : (c.write request w).Yields traces result) (mem : trace ∈ traces)
    (final : trace.final? place = some (.error err)) :
    ∃ side : WriteSide, (∀ sent ∈ trace.sent, ∃ p chunk, side.Carries p chunk sent.2) ∧
      Blames (.ofCall err) (fun report => ∃ outcomes, report.ofSide side = some outcomes ∧
        ∀ (j : Nat) tuple, (side.tuplesOf request)[j]? = some tuple →
          j / w.transaction.maxPerChunk = place →
          outcomes[j]? = some (.failure (.ofCall err) tuple)) result := by
  obtain ⟨p, side, ending, size, ends, failed, done⟩ := write_traced chunked run mem
  refine ⟨side, ?_, ?_, ?_⟩
  · intro sent there
    obtain ⟨s, ran, -⟩ := ends
    exact ⟨p, chunkRound_carries size (Round.sent_calls ran there)⟩
  · intro fatal
    obtain ⟨request, here, fails, -⟩ := Round.ends_final ends final
    obtain ⟨chunk, -, rfl⟩ := chunkRound_request here
    exact failed _ (fails _ (if_pos fatal))
  · intro report ok
    obtain ⟨answers, rfl, given⟩ := done report ok
    refine ⟨_, given, fun j tuple there carried => ?_⟩
    have some : side.tuplesOf request ≠ [] := by
      rintro none
      rw [none] at there
      cases there
    have placed : (Pool.placed (side.tuplesOf request))[j]? = .some (j, tuple) := by
      rw [Pool.placed_get, there]
      rfl
    obtain ⟨x, got, other, only, outcome, same, reported⟩ :=
      forall₂_get_right ((side_done size some ends).reported _ rfl).flip placed
    cases List.mem_singleton.mp only
    rw [carried, final] at same
    cases same
    cases reported
    exact got

/-! ## Lists of relations -/

theorem eachRound_reported {items : List Identified} {verdicts : List Verdict}
    (ends : (eachRound p b items).Ends trace (.ok verdicts)) (alone : AnsweredBut trace place)
    {i : Nat} {v : Verdict} (got : verdicts[i]? = some v) (reported : v.error = some e) :
    i = place := by
  obtain ⟨request, outcome, here, final, settled⟩ := Round.ends_ok_final ends got
  obtain ⟨item, -, rfl⟩ := eachRound_request here
  have settled : settleOne item outcome = .ok v := settled
  by_contra other
  obtain ⟨allowed, read⟩ := alone i outcome final other
  rw [settleOne_ok settled, read] at reported
  cases reported

theorem eachRound_failed {items : List Identified}
    (ends : (eachRound p b items).Ends trace (.error e)) (alone : AnsweredBut trace place)
    (final : trace.final? place = some (.error err)) : e = .ofCall err := by
  obtain ⟨i, request, outcome, here, failed, settled⟩ := Round.ends_error_final ends
  obtain ⟨item, -, rfl⟩ := eachRound_request here
  obtain ⟨other, rfl, -, rfl⟩ := settleOne_error_iff.mp settled
  by_cases same : i = place
  · rw [same, final] at failed
    cases failed
    rfl
  · obtain ⟨allowed, read⟩ := alone i _ failed same
    cases read

theorem listRelations_told {q : RelationsQuestion} {result : Except ClientError (List String)}
    (run : (c.listRelations supply q b).Yields traces result) (mem : trace ∈ traces)
    (final : trace.final? place = some (.error err)) :
    (∃ f, result = .error f) ∧ ((ClientError.ofCall err).fatal = true ∨ AnsweredBut trace place →
      result = .error (.ofCall err)) := by
  by_cases filled : q.relations = []
  · rw [listRelations, if_pos filled] at run
    exact absurd mem (Program.not_mem_done run)
  obtain ⟨f, eq, collects⟩ := listRelations_collects c supply b filled
  rw [eq] at run
  obtain ⟨first, checked, rfl⟩ := Program.yields_andThen.mp run
  obtain ⟨items, p, -, ends⟩ := checkEach_traced checked mem
  obtain ⟨ended, noted⟩ := checkEach_told checked mem final
  cases first with
  | error g =>
    refine ⟨⟨g, rfl⟩, ?_⟩
    rintro (fatal | alone)
    · rw [ended fatal]
      rfl
    · rw [eachRound_failed ends alone final]
      rfl
  | ok verdicts =>
    obtain ⟨asked, v, -, got, -, -, reported⟩ := noted verdicts rfl
    cases found : verdicts.findSome? Verdict.error with
    | none =>
      have none := List.findSome?_eq_none_iff.mp found v (List.mem_of_getElem? got)
      cases reported.symm.trans none
    | some g =>
      have failed : ((.ok verdicts : Except ClientError (List Verdict)).bind fun a => (f a).1) =
          .error g := by
        change (f verdicts).1 = .error g
        rw [collects, collect, found]
      refine ⟨⟨g, failed⟩, ?_⟩
      rintro (fatal | alone)
      · cases ended fatal
      · obtain ⟨v', within, reported'⟩ := List.exists_of_findSome?_eq_some found
        obtain ⟨i, there⟩ := List.mem_iff_getElem?.mp within
        rw [eachRound_reported ends alone there reported', got] at there
        cases there
        cases reported.symm.trans reported'
        exact failed

/-- The error of a call that has failed for good is told, whichever operation the call belongs to,
whatever else is answered and in whatever order the requests end. -/
theorem failures_told (c : Client) (supply : IdSupply) (err : CallError) :
    c.TellsFailure supply (.error err) (.ofCall err) where
  check q o _ _ run _ mem _ final := by
    rw [check_asks] at run
    exact askOnce_told run mem final
  listObjects q o _ _ run _ mem _ final := by
    rw [listObjects_asks] at run
    exact askOnce_told run mem final
  checkEach _ _ _ _ run _ mem _ := checkEach_told run mem
  checkGroups _ _ _ _ _ run _ mem _ := checkGroups_told run mem
  writeAtOnce _ _ _ _ whole run _ mem _ := writeAtOnce_told whole run mem
  writeChunks _ _ _ _ chunked run _ mem _ := writeChunks_told chunked run mem
  listRelations _ _ _ _ run _ mem _ := listRelations_told run mem

end Client

end Rebac
