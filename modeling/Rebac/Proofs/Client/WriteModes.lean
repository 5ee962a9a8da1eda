import Rebac.Proofs.Client.Calls
import Rebac.Proofs.Dispatch.Progress
import Rebac.Proofs.Dispatch.Success
import Rebac.Proofs.Question.Body

set_option autoImplicit false

/-! # Writes at once and in chunks -/

namespace Rebac

open Dispatch Batch

/-! ## What the body of a write names -/

namespace WriteSide

/-- The tuples that the body of a write names on a side; a side that is left out has none. -/
def keys (side : WriteSide) (body : Json) : List Json := (side.named? body).getD []

def conflict? (side : WriteSide) (body : Json) : Option String :=
  ((body.member? side.text).bind (Json.member? side.conflictName)).bind Json.text?

variable (side other : WriteSide) (request : WriteRequest) (conflict : ConflictPolicy)
  (modelId : Option String)

theorem tuplesOf_only (tuples : List RelationTuple) :
    side.tuplesOf (other.only tuples) = if side = other then tuples else [] := by
  cases side <;> cases other <;> rfl

theorem keys_write :
    side.keys (Body.write request conflict modelId) = (side.tuplesOf request).map side.form := by
  rw [keys, named?_write]
  split
  · rename_i none
    rw [none]
    rfl
  · rfl

theorem conflict?_write : side.conflict? (Body.write request conflict modelId) =
    if side.tuplesOf request = [] then none else some (side.conflictOf conflict).text := by
  rw [conflict?, member?_write]
  by_cases none : side.tuplesOf request = []
  · rw [if_pos none, if_pos none]
    rfl
  · rw [if_neg none, if_neg none, Option.bind_some, member?_members]
    cases side <;> rfl

end WriteSide

/-- The calls of chunks name in their order what one call names. Each of them is for one side, and
but for its tuples it is as the one call: under the same model, with the same conflicts allowed,
and sent in the same way. -/
structure Split (whole : Call) (chunks : List Call) : Prop where
  keys : ∀ side : WriteSide, chunks.flatMap (fun call => side.keys call.body) = side.keys whole.body
  side : ∀ call ∈ chunks, ∃ side : WriteSide, side.keys call.body ≠ [] ∧
    side.conflict? call.body = side.conflict? whole.body ∧
    ∀ other : WriteSide, other ≠ side → other.named? call.body = none
  model : ∀ call ∈ chunks, Body.model? call.body = Body.model? whole.body
  sent : ∀ call ∈ chunks, { call with body := whole.body } = whole

namespace WriteOptions

def atOnce (o : WriteOptions) : WriteOptions :=
  { o with transaction := { o.transaction with transactional := true } }

def inChunks (o : WriteOptions) : WriteOptions :=
  { o with transaction := { o.transaction with transactional := false } }

end WriteOptions

namespace Client

variable {c : Client} {p : Prepared} {request : WriteRequest} {o : WriteOptions} {side : WriteSide}
  {tuples : List RelationTuple} {conflict : ConflictPolicy} {size : Nat} {trace : Trace}
  {traces : List Trace} {result : Except ClientError WriteReport}

def sideSucceeded (tuples : List RelationTuple) : Option (List TupleOutcome) :=
  if tuples = [] then none
  else some (tuples.map fun t => { tuple := t, succeeded := true, error := none })

def succeeded (request : WriteRequest) : WriteReport :=
  ⟨sideSucceeded request.writes, sideSucceeded request.deletes⟩

/-! ## Calls of chunks -/

def chunkCalls (p : Prepared) (conflict : ConflictPolicy) (size : Nat) (side : WriteSide)
    (tuples : List RelationTuple) : List Call :=
  (groups size tuples).map fun chunk => writeCall p (side.only chunk) conflict

theorem chunkCalls_keys (pos : 0 < size) (other : WriteSide) :
    (chunkCalls p conflict size side tuples).flatMap (fun call => other.keys call.body) =
      if other = side then tuples.map side.form else [] := by
  have each (chunk : List RelationTuple) :
      other.keys (writeCall p (side.only chunk) conflict).body =
        if other = side then chunk.map side.form else [] := by
    rw [writeCall, Prepared.call, WriteSide.keys_write, WriteSide.tuplesOf_only]
    split
    · rename_i same
      rw [same]
    · rfl
  rw [chunkCalls, List.flatMap_map]
  simp only [each]
  split
  · rw [List.flatMap_def, ← List.map_flatten, groups_flatten pos]
  · simp

theorem chunkCalls_one (pos : 0 < size) {call : Call}
    (mem : call ∈ chunkCalls p conflict size side (side.tuplesOf request)) :
    side.keys call.body ≠ [] ∧
      side.conflict? call.body = side.conflict? (writeCall p request conflict).body ∧
      ∀ other : WriteSide, other ≠ side → other.named? call.body = none := by
  obtain ⟨chunk, formed, rfl⟩ := List.mem_map.mp mem
  have filled := (groups_bounds pos formed).1
  have some : side.tuplesOf request ≠ [] := by
    intro none
    rw [none, groups] at formed
    cases formed
  have carries := WriteSide.carries_chunk p conflict side filled
  refine ⟨?_, ?_, carries.alone⟩
  · rw [WriteSide.keys, carries.named]
    simpa using filled
  · rw [writeCall, Prepared.call, writeCall, Prepared.call, WriteSide.conflict?_write,
      WriteSide.conflict?_write, WriteSide.tuplesOf_only, if_pos rfl, if_neg filled, if_neg some]

def splitCalls (p : Prepared) (conflict : ConflictPolicy) (size : Nat) (request : WriteRequest) :
    List Call :=
  chunkCalls p conflict size .writes request.writes ++
    chunkCalls p conflict size .deletes request.deletes

theorem splitCalls_side {call : Call} (mem : call ∈ splitCalls p conflict size request) :
    ∃ side : WriteSide, call ∈ chunkCalls p conflict size side (side.tuplesOf request) := by
  rcases List.mem_append.mp mem with written | deleted
  · exact ⟨.writes, written⟩
  · exact ⟨.deletes, deleted⟩

theorem splitCalls_split (pos : 0 < size) :
    Split (writeCall p request conflict) (splitCalls p conflict size request) where
  keys side := by
    rw [splitCalls, List.flatMap_append, chunkCalls_keys pos, chunkCalls_keys pos, writeCall,
      Prepared.call, WriteSide.keys_write]
    cases side
    · exact List.append_nil _
    · rfl
  side call mem := by
    obtain ⟨side, mem⟩ := splitCalls_side mem
    exact ⟨side, chunkCalls_one pos mem⟩
  model call mem := by
    obtain ⟨side, mem⟩ := splitCalls_side mem
    obtain ⟨chunk, -, rfl⟩ := List.mem_map.mp mem
    exact (Body.model?_write _ _ _).trans (Body.model?_write _ _ _).symm
  sent call mem := by
    obtain ⟨side, mem⟩ := splitCalls_side mem
    obtain ⟨chunk, -, rfl⟩ := List.mem_map.mp mem
    rfl

/-! ## A write in chunks that is accepted -/

variable {α : Type} {next : Option (List TupleOutcome) → Program (List TupleOutcome) α}

theorem chunkRound_welcomed {ending : Except ClientError (List (List TupleOutcome))}
    (ends : (chunkRound p o side tuples).Ends trace ending) (welcomed : trace.Welcomed) :
    trace.sent.map Prod.snd =
        chunkCalls p o.conflict o.transaction.maxPerChunk side tuples ∧
      ending = .ok ((groups o.transaction.maxPerChunk tuples).map (List.map .success)) := by
  have settles : ∀ q ∈ (chunkRound p o side tuples).requests, ∀ response,
      ∃ x, q.settle (.ok response) = .ok x := by
    intro q mem response
    obtain ⟨chunk, -, rfl⟩ := List.mem_map.mp mem
    exact ⟨_, rfl⟩
  obtain ⟨sent, results, rfl, settled⟩ := Round.ends_welcomed ends welcomed settles
  constructor
  · rw [sent, chunkRound_calls, List.map_map, chunkCalls,
      ← Round.placed_requests (groups o.transaction.maxPerChunk tuples), List.map_map,
      Round.placed_requests]
    rfl
  · refine congrArg Except.ok (map_of_forall₂ ((List.forall₂_map_left_iff.mp settled).imp ?_))
    rintro chunk x ⟨response, eq⟩
    exact (Except.ok.inj eq).symm

theorem writeChunks_welcomed (pos : 0 < o.transaction.maxPerChunk) {result : Except ClientError α}
    (run : (writeChunks p o side tuples next).Yields traces result)
    (welcomed : ∀ trace ∈ traces, trace.Welcomed) : ∃ first rest, traces = first ++ rest ∧
      (first.flatMap Trace.sent).map Prod.snd =
        chunkCalls p o.conflict o.transaction.maxPerChunk side tuples ∧
      (next (allSucceeded tuples)).Yields rest result := by
  by_cases none : tuples = []
  · subst none
    rw [writeChunks, if_pos rfl] at run
    exact ⟨[], traces, rfl, by simp [chunkCalls, groups], run⟩
  · rw [writeChunks_round pos none] at run
    have flat : ((groups o.transaction.maxPerChunk tuples).map
        (List.map TupleOutcome.success)).flatten = tuples.map .success := by
      rw [← List.map_flatten, groups_flatten pos]
    rcases Program.yields_round.mp run with
      ⟨trace, e, ends, rfl, rfl⟩ | ⟨trace, rest, outcomes, ends, rfl, later⟩
    · cases (chunkRound_welcomed ends (welcomed trace (List.mem_singleton_self trace))).2
    · obtain ⟨sent, eq⟩ := chunkRound_welcomed ends (welcomed trace List.mem_cons_self)
      cases eq
      refine ⟨[trace], rest, rfl, by rwa [List.flatMap_singleton], ?_⟩
      rwa [allSucceeded, if_neg none, ← flat]

theorem inChunks_welcomed (filled : request.isEmpty = false)
    (pos : 0 < o.transaction.maxPerChunk) (ready : c.prepare o.request = .ok p)
    (run : (c.write request o.inChunks).Yields traces result)
    (welcomed : ∀ trace ∈ traces, trace.Welcomed) : result = .ok (succeeded request) ∧
      Split (writeCall p request o.conflict) ((traces.flatMap Trace.sent).map Prod.snd) := by
  rw [write_chunks (o := o.inChunks) filled rfl ready] at run
  obtain ⟨first, rest, rfl, written, later⟩ :=
    writeChunks_welcomed (o := o.inChunks) pos run welcomed
  obtain ⟨second, last, rfl, deleted, done⟩ := writeChunks_welcomed (o := o.inChunks) pos later
    fun trace mem => welcomed trace (List.mem_append_right _ mem)
  obtain ⟨rfl, rfl⟩ := Program.yields_done.mp done
  refine ⟨rfl, ?_⟩
  rw [List.append_nil, List.flatMap_append, List.map_append, written, deleted]
  exact splitCalls_split pos

theorem writeChunks_bounded (p : Prepared) (o : WriteOptions) (side : WriteSide)
    (tuples : List RelationTuple) : ∃ more, ∀ {α : Type} {bound : Nat}
      {next : Option (List TupleOutcome) → Program (List TupleOutcome) α},
      (∀ report, (next report).Bounded bound) →
        (writeChunks p o side tuples next).Bounded (more + bound) := by
  by_cases none : tuples = []
  · refine ⟨0, fun goes => ?_⟩
    rw [writeChunks, if_pos none, Nat.zero_add]
    exact goes _
  · by_cases zero : o.transaction.maxPerChunk = 0
    · refine ⟨0, fun goes traces run => ?_⟩
      rw [writeChunks_zero zero none] at run
      cases run
      exact Nat.zero_le _
    · refine ⟨(chunkRound p o side tuples).mostChoices, fun goes => ?_⟩
      rw [writeChunks_round (Nat.pos_of_ne_zero zero) none]
      exact Program.bounded_round fun outcomes => goes _

theorem inChunks_bounded (filled : request.isEmpty = false) (ready : c.prepare o.request = .ok p) :
    ∃ bound, (c.write request o.inChunks).Bounded bound := by
  obtain ⟨deletes, deleted⟩ := writeChunks_bounded p o.inChunks .deletes request.deletes
  obtain ⟨writes, written⟩ := writeChunks_bounded p o.inChunks .writes request.writes
  refine ⟨writes + (deletes + 0), ?_⟩
  rw [write_chunks (o := o.inChunks) filled rfl ready]
  exact written fun _ => deleted fun _ => Program.bounded_done

/-! ## A write at once -/

def wholeRound (p : Prepared) (request : WriteRequest) (conflict : ConflictPolicy) :
    Round (List TupleOutcome) :=
  p.single (writeCall p request conflict) fun outcome =>
    match outcome with
    | .ok _ => .ok []
    | .error e => .error (.ofCall e)

theorem write_atOnce (filled : request.isEmpty = false) (ready : c.prepare o.request = .ok p) :
    c.write request o.atOnce = .round (wholeRound p request o.conflict) fun _ =>
      .done (.ok (succeeded request)) [.writeCommitted] := by
  have given : c.prepare o.atOnce.request = .ok p := ready
  simp only [write, filled, Bool.false_eq_true, ↓reduceIte, given]
  rfl

theorem atOnce_yields (filled : request.isEmpty = false) (ready : c.prepare o.request = .ok p)
    (run : (c.write request o.atOnce).Yields traces result) : ∃ trace ending, traces = [trace] ∧
      (wholeRound p request o.conflict).Ends trace ending ∧
      result = ending.map fun _ => succeeded request := by
  rw [write_atOnce filled ready] at run
  obtain ⟨trace, ending, ends, eq, rfl⟩ := Program.yields_single.mp run
  exact ⟨trace, ending, eq, ends, rfl⟩

theorem atOnce_welcomed (filled : request.isEmpty = false) (ready : c.prepare o.request = .ok p)
    (run : (c.write request o.atOnce).Yields traces result)
    (welcomed : ∀ trace ∈ traces, trace.Welcomed) : result = .ok (succeeded request) ∧
      traces.flatMap Trace.sent = [(0, writeCall p request o.conflict)] := by
  obtain ⟨trace, ending, rfl, ends, rfl⟩ := atOnce_yields filled ready run
  have settles : ∀ q ∈ (wholeRound p request o.conflict).requests, ∀ response,
      ∃ x, q.settle (.ok response) = .ok x := by
    intro q mem response
    cases List.mem_singleton.mp mem
    exact ⟨_, rfl⟩
  obtain ⟨sent, results, rfl, -⟩ :=
    Round.ends_welcomed ends (welcomed trace (List.mem_singleton_self trace)) settles
  refine ⟨rfl, ?_⟩
  rw [List.flatMap_singleton, sent]
  rfl

theorem atOnce_sent (filled : request.isEmpty = false) (ready : c.prepare o.request = .ok p)
    (run : (c.write request o.atOnce).Runs traces) :
    ∀ trace ∈ traces, ∀ sent ∈ trace.sent, sent.2 = writeCall p request o.conflict := by
  have every : (c.write request o.atOnce).EveryRound
      (Round.Asks fun call => call = writeCall p request o.conflict) := by
    rw [write_atOnce filled ready]
    refine ⟨fun q mem => ?_, fun _ => trivial⟩
    rw [List.mem_singleton.mp mem]
  exact every.asks run

/-! ## Both modes -/

structure ModesAgree (c : Client) (p : Prepared) (request : WriteRequest) (o : WriteOptions) :
    Prop where
  /-- Where every call is accepted, a write at once is one call and succeeds for every tuple. -/
  atOnce : ∀ traces result, (c.write request o.atOnce).Yields traces result →
    (∀ trace ∈ traces, trace.Welcomed) → result = .ok (succeeded request) ∧
      traces.flatMap Trace.sent = [(0, writeCall p request o.conflict)]
  inChunks : ∀ traces result, (c.write request o.inChunks).Yields traces result →
    (∀ trace ∈ traces, trace.Welcomed) → result = .ok (succeeded request) ∧
      Split (writeCall p request o.conflict) ((traces.flatMap Trace.sent).map Prod.snd)
  returns : ∀ answer : Call → Outcome, (∀ call, ∃ response, answer call = .ok response) →
    (c.write request o.atOnce).Returns answer (· = .ok (succeeded request)) ∧
      (c.write request o.inChunks).Returns answer (· = .ok (succeeded request))
  resent : ∀ traces, (c.write request o.atOnce).Runs traces →
    ∀ trace ∈ traces, ∀ sent ∈ trace.sent, sent.2 = writeCall p request o.conflict
  /-- Whatever is answered, a write at once fails or has succeeded for every tuple. -/
  unmixed : ∀ traces result, (c.write request o.atOnce).Yields traces result →
    result = .ok (succeeded request) ∨ ∃ e, result = .error e

/-- A write at once and a write in chunks agree where every call is accepted, whatever the request,
the conflicts allowed, the size of the chunks and the schedule. -/
theorem write_modes_agree (filled : request.isEmpty = false)
    (pos : 0 < o.transaction.maxPerChunk) (ready : c.prepare o.request = .ok p) :
    ModesAgree c p request o where
  atOnce _ _ := atOnce_welcomed filled ready
  inChunks _ _ := inChunks_welcomed filled pos ready
  returns answer accepts := by
    have whole : ∃ bound, (c.write request o.atOnce).Bounded bound := by
      rw [write_atOnce filled ready]
      exact ⟨_, Program.bounded_round fun _ => Program.bounded_done⟩
    obtain ⟨most, bounded⟩ := whole
    obtain ⟨most', bounded'⟩ := inChunks_bounded filled ready
    have welcomed {traces : List Trace} (honest : ∀ trace ∈ traces, trace.AnsweredBy answer) :
        ∀ trace ∈ traces, trace.Welcomed := fun trace mem => (honest trace mem).welcomed accepts
    exact ⟨bounded.returns fun _ _ run honest =>
        (atOnce_welcomed filled ready run (welcomed honest)).1,
      bounded'.returns fun _ _ run honest =>
        (inChunks_welcomed filled pos ready run (welcomed honest)).1⟩
  resent _ := atOnce_sent filled ready
  unmixed traces result run := by
    obtain ⟨trace, ending, -, -, rfl⟩ := atOnce_yields filled ready run
    cases ending with
    | ok results => exact .inl rfl
    | error e => exact .inr ⟨e, rfl⟩

def bothOwned : WriteRequest := ⟨[anneOwns, bobOwns], [anneOwns]⟩

def bothReported : WriteReport :=
  ⟨some [⟨anneOwns, true, none⟩, ⟨bobOwns, true, none⟩], some [⟨anneOwns, true, none⟩]⟩

def accepted : Outcome := .ok ⟨200, .object []⟩

theorem whole_accepted (p : Prepared) : ∃ trace,
    (wholeRound p bothOwned oneByOne.conflict).Ends trace (.ok [[]]) ∧ trace.sent.length = 1 :=
  ⟨_, ⟨_, .next (.next .opened (c := .start) rfl) (c := .answer 0 accepted ⟨0, 0⟩) rfl, rfl⟩, rfl⟩

/-- The second chunk of the writes is answered before the first. -/
theorem writes_accepted (p : Prepared) : ∃ trace,
    (chunkRound p oneByOne.inChunks .writes bothOwned.writes).Ends trace
      (.ok [[⟨anneOwns, true, none⟩], [⟨bobOwns, true, none⟩]]) ∧
    trace.sent.length = 2 ∧ trace.Welcomed := by
  have cut : groups oneByOne.inChunks.transaction.maxPerChunk bothOwned.writes =
      [[anneOwns], [bobOwns]] := by
    simp [groups, bothOwned, oneByOne, WriteOptions.inChunks, TransactionPolicy.chunked]
  rw [chunkRound, cut]
  exact ⟨_, ⟨_, .next (.next (.next (.next .opened (c := .start) rfl) (c := .start) rfl)
    (c := .answer 1 accepted ⟨0, 0⟩) rfl) (c := .answer 0 accepted ⟨0, 0⟩) rfl, rfl⟩, rfl,
    .answer (.answer (.start (.start .nil)))⟩

theorem deletes_accepted (p : Prepared) : ∃ trace,
    (chunkRound p oneByOne.inChunks .deletes bothOwned.deletes).Ends trace
      (.ok [[⟨anneOwns, true, none⟩]]) ∧ trace.sent.length = 1 ∧ trace.Welcomed := by
  have cut : groups oneByOne.inChunks.transaction.maxPerChunk bothOwned.deletes = [[anneOwns]] := by
    simp [groups, bothOwned]
  rw [chunkRound, cut]
  exact ⟨_, ⟨_, .next (.next .opened (c := .start) rfl) (c := .answer 0 accepted ⟨0, 0⟩) rfl, rfl⟩,
    rfl, .answer (.start .nil)⟩

/-- Two tuples to write and one to delete, by one call and by one call for each of them. -/
theorem one_by_one_agrees : ∃ p whole chunks, (ofStore (.ofNat 1)).prepare {} = .ok p ∧
    ModesAgree (ofStore (.ofNat 1)) p bothOwned oneByOne ∧
    ((ofStore (.ofNat 1)).write bothOwned oneByOne.atOnce).Yields whole (.ok bothReported) ∧
    ((ofStore (.ofNat 1)).write bothOwned oneByOne.inChunks).Yields chunks (.ok bothReported) ∧
    (whole.flatMap Trace.sent).length = 1 ∧ (chunks.flatMap Trace.sent).length = 3 ∧
    Split (writeCall p bothOwned oneByOne.conflict)
      ((chunks.flatMap Trace.sent).map Prod.snd) := by
  obtain ⟨p, ready⟩ := ofStore_ready (.ofNat 1)
  have filled : bothOwned.isEmpty = false := rfl
  have size : 0 < oneByOne.transaction.maxPerChunk := by decide
  have agree := write_modes_agree (o := oneByOne) filled size ready
  obtain ⟨only, ended, one⟩ := whole_accepted p
  obtain ⟨first, wrote, two, fine⟩ := writes_accepted p
  obtain ⟨second, deleted, last, fine'⟩ := deletes_accepted p
  have whole : ((ofStore (.ofNat 1)).write bothOwned oneByOne.atOnce).Yields [only]
      (.ok bothReported) := by
    rw [write_atOnce filled ready]
    exact .finished ended .done
  have chunks : ((ofStore (.ofNat 1)).write bothOwned oneByOne.inChunks).Yields [first, second]
      (.ok bothReported) := by
    rw [write_chunks (o := oneByOne.inChunks) filled rfl ready,
      writeChunks_round (o := oneByOne.inChunks) size (by simp [bothOwned])]
    apply Program.Yields.finished wrote
    rw [writeChunks_round (o := oneByOne.inChunks) size (by simp [bothOwned])]
    exact .finished deleted .done
  have welcomed : ∀ trace ∈ [first, second], trace.Welcomed := by simp [fine, fine']
  refine ⟨p, _, _, ready, agree, whole, chunks, ?_, ?_, (agree.inChunks _ _ chunks welcomed).2⟩
  · simp [one]
  · simp [two, last]

end Client

end Rebac
