import Rebac.Client.Write
import Rebac.Proofs.Batch.Groups
import Rebac.Proofs.Client.Prepare
import Rebac.Proofs.Dispatch.Program
import Rebac.Proofs.Json.Members
import Rebac.Proofs.Question.Answer
import Rebac.Proofs.Tuple.Forms

set_option autoImplicit false

/-! # Writes in chunks -/

namespace Rebac

open Dispatch Batch

/-! ## The requests of a side -/

namespace WriteSide

/-- A tuple as its side names it: a deletion leaves out the condition. -/
def form : WriteSide → RelationTuple → Json
  | .writes, t => t.toJson
  | .deletes, t => t.key.toJson

def told : WriteSide → RelationTuple → RelationTuple
  | .writes, t => t
  | .deletes, t => { t with condition := none }

def named? (side : WriteSide) (body : Json) : Option (List Json) :=
  match (body.member? side.text).bind (Json.member? "tuple_keys") with
  | some (.array keys) => some keys
  | _ => none

theorem form_reads (side : WriteSide) (t : RelationTuple) :
    RelationTuple.Reads (side.form t) (side.told t) := by
  cases side with
  | writes => exact t.toJson_reads
  | deletes => exact t.key_reads

def tuplesOf : WriteSide → WriteRequest → List RelationTuple
  | .writes, request => request.writes
  | .deletes, request => request.deletes

def conflictName : WriteSide → String
  | .writes => "on_duplicate"
  | .deletes => "on_missing"

def conflictOf : WriteSide → ConflictPolicy → OnConflict
  | .writes, conflict => conflict.onDuplicate
  | .deletes, conflict => conflict.onMissing

def members (side : WriteSide) (tuples : List RelationTuple) (conflict : ConflictPolicy) :
    List (String × Json) :=
  [("tuple_keys", .array (tuples.map side.form)),
    (side.conflictName, .string (side.conflictOf conflict).text)]

theorem member?_write (side : WriteSide) (request : WriteRequest) (conflict : ConflictPolicy)
    (modelId : Option String) : (Body.write request conflict modelId).member? side.text =
      if side.tuplesOf request = [] then none
      else some (Json.ofMembers (side.members (side.tuplesOf request) conflict)) := by
  have parts := Json.member?_ofPresent
    [("writes", Body.writes request.writes conflict.onDuplicate),
      ("deletes", Body.deletes request.deletes conflict.onMissing),
      ("authorization_model_id", modelId.map .string)] (by simp)
  cases side with
  | writes => exact parts "writes"
  | deletes => exact parts "deletes"

theorem member?_members (side : WriteSide) (tuples : List RelationTuple)
    (conflict : ConflictPolicy) (name : String) :
    (Json.ofMembers (side.members tuples conflict)).member? name =
      (side.members tuples conflict).lookup name :=
  Json.member?_ofMembers _ (by cases side <;> simp [members, conflictName]) name

theorem named?_write (side : WriteSide) (request : WriteRequest) (conflict : ConflictPolicy)
    (modelId : Option String) : side.named? (Body.write request conflict modelId) =
      if side.tuplesOf request = [] then none
      else some ((side.tuplesOf request).map side.form) := by
  rw [named?, member?_write]
  by_cases none : side.tuplesOf request = []
  · simp [none]
  · rw [if_neg none, if_neg none, Option.bind_some, member?_members]
    rfl

/-- A call that writes the tuples on their side, and has none on the other. -/
structure Carries (p : Prepared) (side : WriteSide) (tuples : List RelationTuple) (call : Call) :
    Prop where
  path : call.path = p.storePath ++ "/write"
  named : side.named? call.body = some (tuples.map side.form)
  /-- What is named reads as the tuples, those to delete without their conditions. -/
  read : ∀ keys, side.named? call.body = some keys →
    List.Forall₂ (fun key t => RelationTuple.Reads key (side.told t)) keys tuples
  alone : ∀ other, other ≠ side → other.named? call.body = none

theorem carries_chunk (p : Prepared) (conflict : ConflictPolicy) (side : WriteSide)
    {tuples : List RelationTuple} (some : tuples ≠ []) :
    Carries p side tuples (Client.writeCall p (side.only tuples) conflict) := by
  have path : p.storePath ++ "/" ++ "write" = p.storePath ++ "/write" := by
    rw [String.append_assoc]
    rfl
  have named : side.named? (Client.writeCall p (side.only tuples) conflict).body =
      .some (tuples.map side.form) := by
    rw [Client.writeCall, Prepared.call, named?_write]
    cases side <;> simp [only, tuplesOf, some]
  refine ⟨path, named, ?_, ?_⟩
  · intro keys given
    cases named.symm.trans given
    rw [List.forall₂_map_left_iff, List.forall₂_same]
    exact fun t _ => side.form_reads t
  · intro other differs
    rw [Client.writeCall, Prepared.call, named?_write]
    cases side <;> cases other <;> simp [only, tuplesOf] at differs ⊢

end WriteSide

inductive TupleReported : Outcome → RelationTuple → TupleOutcome → Prop where
  | accepted {response : Response} {tuple : RelationTuple} :
      TupleReported (.ok response) tuple ⟨tuple, true, none⟩
  | refused {e : CallError} {tuple : RelationTuple} :
      ¬ e.Rejected → TupleReported (.error e) tuple ⟨tuple, false, some (.ofCall e)⟩

def Dispatch.Trace.RejectedWith (trace : Trace) (e : ClientError) : Prop :=
  ∃ place err, (place, .error err) ∈ trace.finals ∧ err.Rejected ∧ e = .ofCall err

namespace Client

variable {c : Client} {request : WriteRequest} {o : WriteOptions} {p : Prepared} {side : WriteSide}
  {tuples : List RelationTuple} {traces : List Trace} {trace : Trace}

def chunkRound (p : Prepared) (o : WriteOptions) (side : WriteSide) (tuples : List RelationTuple) :
    Round (List TupleOutcome) where
  policy := p.policy
  limit := o.transaction.maxParallel
  requests := (groups o.transaction.maxPerChunk tuples).map (chunkRequest p o.conflict side)

/-- The requests that were sent for a side: one for each chunk, in their order. -/
def SideSent (p : Prepared) (size : Nat) (side : WriteSide) (tuples : List RelationTuple)
    (traces : List Trace) : Prop :=
  List.Forall₂ (fun chunk launch => launch.1 = chunk.1 ∧ side.Carries p chunk.2 launch.2)
    (Pool.placed (groups size tuples)) (traces.flatMap Trace.launches)

structure SideDone (p : Prepared) (size : Nat) (side : WriteSide) (tuples : List RelationTuple)
    (traces : List Trace) (report : Option (List TupleOutcome)) : Prop where
  cut : Cut size tuples (groups size tuples)
  sent : SideSent p size side tuples traces
  finished : ∀ trace ∈ traces, ∀ launch ∈ trace.launches, ∃ outcome,
    trace.final? launch.1 = some outcome
  absent : report = none ↔ tuples = []
  reported : ∀ outcomes, report = some outcomes →
    List.Forall₂ (fun placed x => ∃ trace ∈ traces, ∃ outcome,
      trace.final? (placed.1 / size) = some outcome ∧ TupleReported outcome placed.2 x)
      (Pool.placed tuples) outcomes

/-! ## One side -/

theorem settleChunk_ok {outcome : Outcome} {outcomes : List TupleOutcome}
    (settled : WriteSide.settleChunk tuples outcome = .ok outcomes) :
    List.Forall₂ (TupleReported outcome) tuples outcomes := by
  cases outcome with
  | ok response =>
    cases settled
    rw [List.forall₂_map_right_iff, List.forall₂_same]
    exact fun _ _ => .accepted
  | error e =>
    unfold WriteSide.settleChunk at settled
    by_cases fatal : (ClientError.ofCall e).fatal = true
    · simp [fatal] at settled
    · simp only [fatal, Bool.false_eq_true, ↓reduceIte, Except.ok.injEq] at settled
      rw [← settled, List.forall₂_map_right_iff, List.forall₂_same]
      exact fun _ _ => .refused fun rejected => fatal ((ClientError.fatal_ofCall e).mpr rejected)

theorem settleChunk_error_iff {outcome : Outcome} {e : ClientError} :
    WriteSide.settleChunk tuples outcome = .error e ↔
      ∃ err, outcome = .error err ∧ err.Rejected ∧ e = .ofCall err := by
  cases outcome with
  | ok response => simp [WriteSide.settleChunk]
  | error err =>
    unfold WriteSide.settleChunk
    by_cases fatal : (ClientError.ofCall err).fatal = true
    · have rejected := (ClientError.fatal_ofCall err).mp fatal
      simp [fatal, rejected, eq_comm]
    · have kept : ¬ err.Rejected := fun rejected =>
        fatal ((ClientError.fatal_ofCall err).mpr rejected)
      simp [fatal, kept]

theorem chunkRound_calls : (chunkRound p o side tuples).calls =
    (Pool.placed (groups o.transaction.maxPerChunk tuples)).map fun g =>
      (g.1, writeCall p (side.only g.2) o.conflict) := by
  rw [Round.calls, chunkRound, Pool.placed_map, List.map_map]
  rfl

theorem chunkRound_request {i : Nat} {q : Request (List TupleOutcome)}
    (here : (chunkRound p o side tuples).requests[i]? = some q) :
    ∃ chunk, (groups o.transaction.maxPerChunk tuples)[i]? = some chunk ∧
      q = chunkRequest p o.conflict side chunk := by
  rw [chunkRound, List.getElem?_map, Option.map_eq_some_iff] at here
  obtain ⟨chunk, got, eq⟩ := here
  exact ⟨chunk, got, eq.symm⟩

theorem chunkRound_error_iff {ending : Except ClientError (List (List TupleOutcome))}
    (ends : (chunkRound p o side tuples).Ends trace ending) (e : ClientError) :
    ending = .error e ↔ trace.RejectedWith e := by
  rw [Round.ends_error_iff ends]
  constructor
  · rintro ⟨i, outcome, q, final, here, settle⟩
    obtain ⟨chunk, -, rfl⟩ := chunkRound_request here
    obtain ⟨err, rfl, rejected, eq⟩ := settleChunk_error_iff.mp settle
    exact ⟨i, err, final, rejected, eq⟩
  · rintro ⟨i, err, final, rejected, eq⟩
    obtain ⟨s, run, -⟩ := ends
    obtain ⟨q, here, -⟩ := Round.finals_launched run final
    refine ⟨i, .error err, q, final, here, ?_⟩
    obtain ⟨chunk, -, rfl⟩ := chunkRound_request here
    exact settleChunk_error_iff.mpr ⟨err, rfl, rejected, eq⟩

theorem chunkRound_carries (size : 0 < o.transaction.maxPerChunk) {launch : Nat × Call}
    (mem : launch ∈ (chunkRound p o side tuples).calls) :
    ∃ chunk, side.Carries p chunk launch.2 := by
  rw [chunkRound_calls] at mem
  obtain ⟨⟨i, chunk⟩, placed, rfl⟩ := List.mem_map.mp mem
  have there := List.mem_of_getElem? (Pool.mem_placed.mp placed)
  exact ⟨chunk, WriteSide.carries_chunk p o.conflict side (groups_bounds size there).1⟩

theorem side_empty (size : 0 < o.transaction.maxPerChunk) :
    SideDone p o.transaction.maxPerChunk side [] [] none where
  cut := groups_cut size []
  sent := by simp [SideSent, groups, Pool.placed]
  finished := by simp
  absent := by simp
  reported := by simp

theorem side_done (size : 0 < o.transaction.maxPerChunk) (some : tuples ≠ [])
    {outcomes : List (List TupleOutcome)}
    (ends : (chunkRound p o side tuples).Ends trace (.ok outcomes)) :
    SideDone p o.transaction.maxPerChunk side tuples [trace] (.some outcomes.flatten) where
  cut := groups_cut size tuples
  sent := by
    rw [SideSent, List.flatMap_singleton, (Round.ends_ok ends).1, chunkRound_calls,
      List.forall₂_map_right_iff, List.forall₂_same]
    rintro ⟨i, chunk⟩ placed
    have there := List.mem_of_getElem? (Pool.mem_placed.mp placed)
    exact ⟨rfl, WriteSide.carries_chunk p o.conflict side (groups_bounds size there).1⟩
  finished := by
    intro other mem
    cases List.mem_singleton.mp mem
    exact Round.ends_ok_finals ends
  absent := by simp [some]
  reported := by
    rintro listed eq
    cases eq
    obtain ⟨-, settled⟩ := Round.ends_ok ends
    rw [chunkRound, Pool.placed_map, List.forall₂_map_left_iff] at settled
    have each := forall₂_groups (R := fun i tuple x => ∃ outcome, trace.final? i = .some outcome ∧
      TupleReported outcome tuple x) size (settled.imp ?_)
    · refine each.imp ?_
      rintro placed x ⟨outcome, final, report⟩
      exact ⟨trace, List.mem_singleton_self trace, outcome, final, report⟩
    · rintro ⟨i, chunk⟩ listed ⟨outcome, final, settle⟩
      exact (settleChunk_ok settle).imp fun tuple x report => ⟨outcome, final, report⟩

/-! ## Both sides -/

variable {α : Type} {next : Option (List TupleOutcome) → Program (List TupleOutcome) α}

theorem writeChunks_round (size : 0 < o.transaction.maxPerChunk) (some : tuples ≠ []) :
    writeChunks p o side tuples next =
      .round (chunkRound p o side tuples) fun outcomes => next (.some outcomes.flatten) := by
  rw [writeChunks, if_neg some, chunk, if_neg (Nat.ne_of_gt size)]
  rfl

theorem writeChunks_zero (zero : o.transaction.maxPerChunk = 0) (some : tuples ≠ []) :
    writeChunks p o side tuples next = .refuse (.validation (.invalidChunkSize 0)) := by
  rw [writeChunks, if_neg some, chunk, if_pos zero, zero]

theorem writeChunks_yields (size : 0 < o.transaction.maxPerChunk) {result : Except ClientError α}
    (run : (writeChunks p o side tuples next).Yields traces result) :
    (∃ first rest report, traces = first ++ rest ∧
      SideDone p o.transaction.maxPerChunk side tuples first report ∧
      (∀ trace ∈ first, ∀ e, ¬ trace.RejectedWith e) ∧ (next report).Yields rest result) ∨
    ∃ trace e, traces = [trace] ∧ result = .error e ∧ ∀ f, e = f ↔ trace.RejectedWith f := by
  by_cases none : tuples = []
  · subst none
    rw [writeChunks, if_pos rfl] at run
    exact .inl ⟨[], traces, .none, rfl, side_empty size, by simp, run⟩
  · rw [writeChunks_round size none] at run
    rcases Program.yields_round.mp run with
      ⟨trace, e, ends, rfl, rfl⟩ | ⟨trace, rest, outcomes, ends, rfl, later⟩
    · refine .inr ⟨trace, e, rfl, rfl, ?_⟩
      intro f
      rw [← chunkRound_error_iff ends, Except.error.injEq]
    · refine .inl ⟨[trace], rest, _, rfl, side_done size none ends, ?_, later⟩
      intro other mem e rejected
      cases List.mem_singleton.mp mem
      cases (chunkRound_error_iff ends e).mpr rejected

theorem writeChunks_runs (size : 0 < o.transaction.maxPerChunk)
    (run : (writeChunks p o side tuples next).Runs traces) :
    (∃ first rest report, traces = first ++ rest ∧
      SideDone p o.transaction.maxPerChunk side tuples first report ∧ (next report).Runs rest) ∨
    ∀ trace ∈ traces, ∀ launch ∈ trace.launches, ∃ chunk, side.Carries p chunk launch.2 := by
  by_cases none : tuples = []
  · subst none
    rw [writeChunks, if_pos rfl] at run
    exact .inl ⟨[], traces, .none, rfl, side_empty size, run⟩
  · rw [writeChunks_round size none] at run
    cases run with
    | idle => exact .inr (by simp)
    | within run =>
      right
      intro trace mem launch launched
      cases List.mem_singleton.mp mem
      rw [Round.launches_eq run] at launched
      exact chunkRound_carries size (List.mem_of_mem_take launched)
    | beyond ends later => exact .inl ⟨[_], _, _, rfl, side_done size none ends, later⟩

/-- No delete is sent before every write is finished: first come the traces of the writes, and any
others only after the requests of all chunks of the writes have been sent and are finished. -/
def DeletesLast (p : Prepared) (size : Nat) (request : WriteRequest) (traces : List Trace) : Prop :=
  ∃ first rest, traces = first ++ rest ∧
    (∀ trace ∈ first, ∀ launch ∈ trace.launches, WriteSide.deletes.named? launch.2.body = none) ∧
    (∀ trace ∈ rest, ∀ launch ∈ trace.launches, WriteSide.writes.named? launch.2.body = none) ∧
    (rest ≠ [] → SideSent p size .writes request.writes first ∧
      ∀ trace ∈ first, ∀ launch ∈ trace.launches, ∃ outcome, trace.final? launch.1 = some outcome)

structure WriteAccounted (p : Prepared) (size : Nat) (request : WriteRequest)
    (traces : List Trace) (result : Except ClientError WriteReport) : Prop where
  /-- Rejected credentials fail the write, and nothing else does. -/
  failed_iff : ∀ e, result = .error e ↔ ∃ trace ∈ traces, trace.RejectedWith e
  reported : ∀ report, result = .ok report → ∃ first rest, traces = first ++ rest ∧
    SideDone p size .writes request.writes first report.writes ∧
    SideDone p size .deletes request.deletes rest report.deletes

theorem SideSent.carries {size : Nat} (sent : SideSent p size side tuples traces) :
    ∀ trace ∈ traces, ∀ launch ∈ trace.launches, ∃ chunk, side.Carries p chunk launch.2 := by
  intro trace mem launch launched
  obtain ⟨chunk, -, -, carries⟩ :=
    forall₂_mem_right sent (List.mem_flatMap.mpr ⟨trace, mem, launched⟩)
  exact ⟨chunk.2, carries⟩

theorem write_chunks (some : request.isEmpty = false)
    (chunked : o.transaction.transactional = false) (ready : c.prepare o.request = .ok p) :
    c.write request o =
      writeChunks p o .writes request.writes fun writes =>
        writeChunks p o .deletes request.deletes fun deletes =>
          .done (.ok ⟨writes, deletes⟩)
            [.chunksWritten (WriteReport.failures ⟨writes, deletes⟩).length] := by
  simp [write, some, chunked, ready]

def WriteUnready (c : Client) (request : WriteRequest) (o : WriteOptions) : Prop :=
  (request.writes = [] ∧ request.deletes = []) ∨ c.Unready o.request ∨
    (o.transaction.transactional = false ∧ o.transaction.maxPerChunk = 0)

theorem write_shape (c : Client) (request : WriteRequest) (o : WriteOptions) :
    (∃ cause, c.WriteUnready request o ∧ c.write request o = .refuse (.validation cause)) ∨
    ∃ p, c.prepare o.request = .ok p ∧ request.isEmpty = false ∧
      ((o.transaction.transactional = true ∧ c.write request o = writeAtOnce p request o) ∨
        (o.transaction.transactional = false ∧ 0 < o.transaction.maxPerChunk)) := by
  cases filled : request.isEmpty with
  | true =>
    have empty : request.writes = [] ∧ request.deletes = [] := by
      simpa [WriteRequest.isEmpty] using filled
    exact .inl ⟨.missingField "writes or deletes", .inl empty, by simp [write, filled]⟩
  | false =>
    cases ready : c.prepare o.request with
    | error cause =>
      exact .inl ⟨cause, .inr (.inl (prepare_refuses.mp ⟨cause, ready⟩)), by
        simp [write, filled, ready]⟩
    | ok p =>
      cases whole : o.transaction.transactional with
      | true => exact .inr ⟨p, rfl, rfl, .inl ⟨rfl, by simp [write, filled, ready, whole]⟩⟩
      | false =>
        by_cases zero : o.transaction.maxPerChunk = 0
        · refine .inl ⟨.invalidChunkSize 0, .inr (.inr ⟨whole, zero⟩), ?_⟩
          rw [write_chunks filled whole ready]
          by_cases none : request.writes = []
          · have some : request.deletes ≠ [] := by
              intro none'
              simp [WriteRequest.isEmpty, none, none'] at filled
            rw [none, writeChunks, if_pos rfl, writeChunks_zero zero some]
          · rw [writeChunks_zero zero none]
        · exact .inr ⟨p, rfl, rfl, .inr ⟨rfl, Nat.pos_of_ne_zero zero⟩⟩

theorem write_deletes_last (some : request.isEmpty = false)
    (chunked : o.transaction.transactional = false) (size : 0 < o.transaction.maxPerChunk)
    (ready : c.prepare o.request = .ok p) (run : (c.write request o).Runs traces) :
    DeletesLast p o.transaction.maxPerChunk request traces := by
  rw [write_chunks some chunked ready] at run
  have alone {side other : WriteSide} {traces : List Trace} (differs : other ≠ side)
      (carried : ∀ trace ∈ traces, ∀ launch ∈ trace.launches, ∃ chunk,
        side.Carries p chunk launch.2) :
      ∀ trace ∈ traces, ∀ launch ∈ trace.launches, other.named? launch.2.body = none := by
    intro trace mem launch launched
    obtain ⟨chunk, carries⟩ := carried trace mem launch launched
    exact carries.alone other differs
  rcases writeChunks_runs size run with ⟨first, rest, report, rfl, done, later⟩ | carried
  · have late : ∀ trace ∈ rest, ∀ launch ∈ trace.launches, ∃ chunk,
        WriteSide.deletes.Carries p chunk launch.2 := by
      -- after the writes comes the round of the deletes, at work or over, and then no more
      rcases writeChunks_runs size later with ⟨second, tail, report', rfl, done', last⟩ | carried
      · cases last
        rw [List.append_nil]
        exact done'.sent.carries
      · exact carried
    exact ⟨first, rest, rfl, alone (by decide) done.sent.carries, alone (by decide) late,
      fun _ => ⟨done.sent, done.finished⟩⟩
  · exact ⟨traces, [], by simp, alone (by decide) carried, by simp, by simp⟩

theorem done_accounted {size : Nat} {first rest : List Trace} {report : WriteReport}
    (writes : SideDone p size .writes request.writes first report.writes)
    (deletes : SideDone p size .deletes request.deletes rest report.deletes)
    (clean : ∀ trace ∈ first ++ rest, ∀ e, ¬ trace.RejectedWith e) :
    WriteAccounted p size request (first ++ rest) (.ok report) where
  failed_iff := by
    intro e
    constructor
    · intro eq
      cases eq
    · rintro ⟨trace, mem, rejected⟩
      exact absurd rejected (clean trace mem e)
  reported := by
    intro given eq
    cases eq
    exact ⟨first, rest, rfl, writes, deletes⟩

theorem aborted_accounted {size : Nat} {first : List Trace} {e : ClientError}
    (clean : ∀ trace ∈ first, ∀ e, ¬ trace.RejectedWith e)
    (only : ∀ f, e = f ↔ trace.RejectedWith f) :
    WriteAccounted p size request (first ++ [trace]) (.error e) where
  failed_iff := by
    intro f
    rw [Except.error.injEq, only]
    constructor
    · intro rejected
      exact ⟨trace, by simp, rejected⟩
    · rintro ⟨other, mem, rejected⟩
      rcases List.mem_append.mp mem with early | late
      · exact absurd rejected (clean other early f)
      · rwa [← List.mem_singleton.mp late]
  reported := by
    intro report eq
    cases eq

theorem write_accounted (some : request.isEmpty = false)
    (chunked : o.transaction.transactional = false) (size : 0 < o.transaction.maxPerChunk)
    (ready : c.prepare o.request = .ok p) {result : Except ClientError WriteReport}
    (run : (c.write request o).Yields traces result) :
    WriteAccounted p o.transaction.maxPerChunk request traces result := by
  rw [write_chunks some chunked ready] at run
  rcases writeChunks_yields size run with
    ⟨first, rest, writes, rfl, done, clean, later⟩ | ⟨trace, e, rfl, rfl, only⟩
  · rcases writeChunks_yields size later with
      ⟨second, tail, deletes, rfl, done', clean', last⟩ | ⟨trace, e, rfl, rfl, only⟩
    · obtain ⟨rfl, rfl⟩ := Program.yields_done.mp last
      rw [List.append_nil]
      apply done_accounted done done'
      intro trace mem
      rcases List.mem_append.mp mem with early | late
      · exact clean trace early
      · exact clean' trace late
    · exact aborted_accounted clean only
  · change WriteAccounted p _ request ([] ++ [trace]) (.error e)
    exact aborted_accounted (by simp) only

/-- A write in chunks reports to each tuple the outcome of its own request, fails by rejected
credentials only, and sends its deletes last, whatever the transport answers and in whatever order
its requests end. -/
theorem chunked_write_accounted (some : request.isEmpty = false)
    (chunked : o.transaction.transactional = false) (size : 0 < o.transaction.maxPerChunk)
    (ready : c.prepare o.request = .ok p) :
    (∀ traces, (c.write request o).Runs traces →
      DeletesLast p o.transaction.maxPerChunk request traces) ∧
    ∀ traces result, (c.write request o).Yields traces result →
      WriteAccounted p o.transaction.maxPerChunk request traces result :=
  ⟨fun _ => write_deletes_last some chunked size ready,
    fun _ _ => write_accounted some chunked size ready⟩

def anneOwns : RelationTuple := ⟨"anne", "owner", "plan", none⟩

def bobOwns : RelationTuple := ⟨"bob", "owner", "plan", none⟩

def oneByOne : WriteOptions := { transaction := .chunked 1 2 }

theorem refused_chunk_accounted : ∃ p traces, (ofStore (.ofNat 1)).prepare {} = .ok p ∧
    DeletesLast p 1 ⟨[anneOwns, bobOwns], [anneOwns]⟩ traces ∧
    WriteAccounted p 1 ⟨[anneOwns, bobOwns], [anneOwns]⟩ traces
      (.ok ⟨some [.success anneOwns, .failure (.ofCall (.http 400 none none)) bobOwns],
        some [.success anneOwns]⟩) := by
  obtain ⟨p, ready⟩ := ofStore_ready (.ofNat 1)
  have filled : (WriteRequest.mk [anneOwns, bobOwns] [anneOwns]).isEmpty = false := rfl
  have size : 0 < oneByOne.transaction.maxPerChunk := by decide
  have writes : ∃ trace, (chunkRound p oneByOne .writes [anneOwns, bobOwns]).Ends trace
      (.ok [[.success anneOwns], [.failure (.ofCall (.http 400 none none)) bobOwns]]) := by
    have cut : groups oneByOne.transaction.maxPerChunk [anneOwns, bobOwns] =
        [[anneOwns], [bobOwns]] := by simp [groups, oneByOne, TransactionPolicy.chunked]
    rw [chunkRound, cut]
    exact ⟨_, _, .next (.next (.next (.next .opened (c := .start) rfl) (c := .start) rfl)
      (c := .answer 1 (.error (.http 400 none none)) ⟨0, 0⟩) rfl)
      (c := .answer 0 (.ok ⟨200, .null⟩) ⟨0, 0⟩) rfl, rfl⟩
  have deletes : ∃ trace, (chunkRound p oneByOne .deletes [anneOwns]).Ends trace
      (.ok [[.success anneOwns]]) := by
    have cut : groups oneByOne.transaction.maxPerChunk [anneOwns] = [[anneOwns]] := by
      simp [groups]
    rw [chunkRound, cut]
    exact ⟨_, _, .next (.next .opened (c := .start) rfl)
      (c := .answer 0 (.ok ⟨200, .null⟩) ⟨0, 0⟩) rfl, rfl⟩
  obtain ⟨first, writes⟩ := writes
  obtain ⟨second, deletes⟩ := deletes
  have run : ((ofStore (.ofNat 1)).write ⟨[anneOwns, bobOwns], [anneOwns]⟩ oneByOne).Yields
      [first, second] (.ok ⟨some [.success anneOwns,
        .failure (.ofCall (.http 400 none none)) bobOwns], some [.success anneOwns]⟩) := by
    rw [write_chunks filled rfl ready, writeChunks_round size (by simp)]
    apply Program.Yields.finished writes
    rw [writeChunks_round size (by simp)]
    exact .finished deletes .done
  obtain ⟨ordered, accounted⟩ := chunked_write_accounted filled rfl size ready
  exact ⟨p, _, ready, ordered _ run.runs, accounted _ _ run⟩

end Client

end Rebac
