import Rebac.Proofs.Client.ChunkedWrite
import Rebac.Proofs.Client.FailClosed
import Rebac.Proofs.Dispatch.Reworded

set_option autoImplicit false

/-! # What failures say changes nothing -/

namespace Rebac

open Dispatch Batch

/-! ## Requests -/

theorem Batch.settleOne_mute (item : Identified) (outcome : Outcome) :
    muted Verdict.mute (settleOne item outcome.mute) =
      muted Verdict.mute (settleOne item outcome) := by
  cases outcome with
  | ok response => rfl
  | error e =>
    simp only [Outcome.mute, settleOne, Answer.ofOutcome, ClientError.fatal_ofCall_mute]
    split
    · exact congrArg Except.error (ClientError.mute_ofCall e)
    · simp only [muted, Verdict.mute, Verdict.failed, Option.map_some, ClientError.mute_ofCall]

theorem Batch.reportOne_mute (item : Identified) (outcome : Outcome) :
    (reportOne item outcome.mute).map Event.mute = (reportOne item outcome).map Event.mute := by
  cases outcome with
  | ok response => rfl
  | error e =>
    simp only [Outcome.mute, reportOne, Answer.ofOutcome, ClientError.fatal_ofCall_mute]
    split <;> rfl

theorem Batch.settleGroup_mute (visit : Visit) (group : List Identified) (outcome : Outcome) :
    muted (List.map Verdict.mute) (settleGroup visit group outcome.mute) =
      muted (List.map Verdict.mute) (settleGroup visit group outcome) := by
  cases outcome with
  | ok response => rfl
  | error e =>
    simp only [Outcome.mute, settleGroup, Answer.ofOutcome, ClientError.fatal_ofCall_mute]
    split
    · exact congrArg Except.error (ClientError.mute_ofCall e)
    · simp only [muted, List.map_map, Function.comp_def, Verdict.mute, Verdict.failed,
        Option.map_some, ClientError.mute_ofCall]

theorem Batch.reportGroup_mute (visit : Visit) (group : List Identified) (outcome : Outcome) :
    (reportGroup visit group outcome.mute).map Event.mute =
      (reportGroup visit group outcome).map Event.mute := by
  cases outcome with
  | ok response => rfl
  | error e =>
    simp only [Outcome.mute, reportGroup, Answer.ofOutcome, ClientError.fatal_ofCall_mute]
    split <;> rfl

theorem WriteSide.settleChunk_mute (tuples : List RelationTuple) (outcome : Outcome) :
    muted (List.map TupleOutcome.mute) (settleChunk tuples outcome.mute) =
      muted (List.map TupleOutcome.mute) (settleChunk tuples outcome) := by
  cases outcome with
  | ok response => rfl
  | error e =>
    simp only [Outcome.mute, settleChunk, ClientError.fatal_ofCall_mute]
    split
    · exact congrArg Except.error (ClientError.mute_ofCall e)
    · simp only [muted, List.map_map, Function.comp_def, TupleOutcome.mute, TupleOutcome.failure,
        Option.map_some, ClientError.mute_ofCall]

theorem WriteSide.reportChunk_mute (side : WriteSide) (tuples : List RelationTuple)
    (outcome : Outcome) : (side.reportChunk tuples outcome.mute).map Event.mute =
      (side.reportChunk tuples outcome).map Event.mute := by
  cases outcome with
  | ok response => rfl
  | error e =>
    simp only [Outcome.mute, reportChunk, ClientError.fatal_ofCall_mute]
    split <;> rfl

theorem Prepared.single_deaf {τ : Type} {f : τ → τ} {p : Prepared} {call : Call}
    {settle : Outcome → Except ClientError τ}
    (deaf : ∀ outcome : Outcome, muted f (settle outcome.mute) = muted f (settle outcome)) :
    (p.single call settle).Deaf f := by
  intro q mem
  rw [List.mem_singleton.mp mem]
  exact ⟨deaf, fun _ => rfl⟩

/-! ## Operations -/

namespace Client

variable {c : Client} {p : Prepared} {o : RequestOptions}

theorem refuse_alike {τ α : Type} {f : τ → τ} {g : α → α} (e : ClientError) :
    (Program.refuse e : Program τ α).Alike f g (.refuse e) := .done rfl

theorem askOnce_alike {τ α : Type} (c : Client) (o : RequestOptions) (call : Prepared → Call)
    (decode : Json → Json.Decoded τ) (value : List τ → α) (events : List τ → List Event) :
    (c.askOnce o call decode value events).Alike id id
      (c.askOnce o call decode value events) := by
  unfold askOnce
  cases c.prepare o with
  | error cause => exact refuse_alike _
  | ok p =>
    refine .round (Prepared.single_deaf (Answer.ofOutcome_mute decode)) fun xs ys same => ?_
    rw [List.map_id, List.map_id] at same
    exact .done (by rw [same])

theorem checkEach_alike (c : Client) (supply : IdSupply) (questions : List Question)
    (b : BatchOptions) : (c.checkEach supply questions b).Alike Verdict.mute
      (List.map Verdict.mute) (c.checkEach supply questions b) := by
  rcases checkEach_shape c supply questions b with
    ⟨cause, -, eq⟩ | ⟨-, eq⟩ | ⟨items, p, events, -, -, -, eq⟩
  · rw [eq]
    exact refuse_alike _
  · rw [eq]
    exact .done rfl
  · rw [eq]
    refine .round ?_ fun xs ys same => .done (congrArg Except.ok same)
    intro q mem
    obtain ⟨item, -, rfl⟩ := List.mem_map.mp mem
    exact ⟨settleOne_mute item, reportOne_mute item⟩

theorem checkGroups_alike (c : Client) (supply : IdSupply) (questions : List Question)
    (b : BatchOptions) (visits : List Identified → Visit) :
    (c.checkGroups supply questions b visits).Alike (List.map Verdict.mute)
      (List.map Verdict.mute) (c.checkGroups supply questions b visits) := by
  rcases checkGroups_shape c supply questions b visits with
    ⟨cause, -, eq⟩ | ⟨-, -, eq⟩ | ⟨items, p, events, -, -, -, -, eq⟩
  · rw [eq]
    exact refuse_alike _
  · rw [eq]
    exact .done rfl
  · rw [eq]
    refine .round ?_ fun xs ys same => .done (congrArg Except.ok ?_)
    · intro q mem
      obtain ⟨group, -, rfl⟩ := List.mem_map.mp mem
      exact ⟨settleGroup_mute (visits group) group, reportGroup_mute (visits group) group⟩
    · rw [List.map_flatten, List.map_flatten, same]

theorem writeChunks_alike {α : Type} {g : α → α} {w : WriteOptions} {side : WriteSide}
    {tuples : List RelationTuple}
    {next next' : Option (List TupleOutcome) → Program (List TupleOutcome) α}
    (goes : ∀ report report',
      report.map (List.map TupleOutcome.mute) = report'.map (List.map TupleOutcome.mute) →
        (next report).Alike (List.map TupleOutcome.mute) g (next' report')) :
    (writeChunks p w side tuples next).Alike (List.map TupleOutcome.mute) g
      (writeChunks p w side tuples next') := by
  unfold writeChunks
  split
  · exact goes none none rfl
  · split
    · exact refuse_alike _
    · refine .round ?_ fun xs ys same => goes _ _ (congrArg some ?_)
      · intro q mem
        obtain ⟨chunk, -, rfl⟩ := List.mem_map.mp mem
        exact ⟨WriteSide.settleChunk_mute chunk, side.reportChunk_mute chunk⟩
      · rw [List.map_flatten, List.map_flatten, same]

theorem write_alike (c : Client) (request : WriteRequest) (w : WriteOptions) :
    (c.write request w).Alike (List.map TupleOutcome.mute) WriteReport.mute
      (c.write request w) := by
  rcases write_shape c request w with ⟨cause, -, eq⟩ | ⟨p, ready, filled, ⟨-, eq⟩ | ⟨chunked, -⟩⟩
  · rw [eq]
    exact refuse_alike _
  · rw [eq]
    refine .round (Prepared.single_deaf fun outcome => ?_) fun _ _ _ => .done rfl
    cases outcome with
    | ok response => rfl
    | error e => exact congrArg Except.error (ClientError.mute_ofCall e)
  · rw [write_chunks filled chunked ready]
    refine writeChunks_alike fun writes writes' written => ?_
    refine writeChunks_alike fun deletes deletes' deleted => .done (congrArg Except.ok ?_)
    rw [WriteReport.mute, WriteReport.mute, written, deleted]

/-! ### Lists of relations -/

theorem findSome?_mute (verdicts : List Verdict) :
    (verdicts.map Verdict.mute).findSome? Verdict.error =
      (verdicts.findSome? Verdict.error).map ClientError.mute := by
  rw [List.findSome?_map, List.map_findSome?]
  rfl

theorem allowed_mute (verdicts : List Verdict) :
    ((verdicts.map Verdict.mute).filter Verdict.allowed).map (fun v => v.question.relation) =
      (verdicts.filter Verdict.allowed).map fun v => v.question.relation := by
  rw [List.filter_map, List.map_map]
  rfl

theorem listRelations_alike (c : Client) (supply : IdSupply) (q : RelationsQuestion)
    (b : BatchOptions) : (c.listRelations supply q b).Alike Verdict.mute id
      (c.listRelations supply q b) := by
  unfold listRelations
  split
  · exact refuse_alike _
  · refine (checkEach_alike c supply _ b).andThen fun verdicts verdicts' same => ?_
    have errors : (verdicts.findSome? Verdict.error).map ClientError.mute =
        (verdicts'.findSome? Verdict.error).map ClientError.mute := by
      rw [← findSome?_mute, same, findSome?_mute]
    have relations : (verdicts.filter Verdict.allowed).map (fun v => v.question.relation) =
        (verdicts'.filter Verdict.allowed).map fun v => v.question.relation := by
      rw [← allowed_mute, same, allowed_mute]
    cases first : verdicts.findSome? Verdict.error with
    | some d =>
      rw [first, Option.map_some, eq_comm, Option.map_eq_some_iff] at errors
      obtain ⟨e, first', apart⟩ := errors
      simp only [first']
      exact congrArg Except.error apart.symm
    | none =>
      rw [first, Option.map_none, eq_comm, Option.map_eq_none_iff] at errors
      simp only [errors, relations]

/-! ## Every operation -/

/-- Every operation is deaf to what failures say: it sends the same calls with the same waits, ends
well or badly alike, and reports the same but for the texts of its errors. -/
structure TextsIgnored (c : Client) (supply : IdSupply) : Prop where
  check : ∀ q o, (c.check q o).Deaf id
  listObjects : ∀ q o, (c.listObjects q o).Deaf id
  checkEach : ∀ questions o, (c.checkEach supply questions o).Deaf (List.map Verdict.mute)
  checkGroups : ∀ questions o visits,
    (c.checkGroups supply questions o visits).Deaf (List.map Verdict.mute)
  write : ∀ request o, (c.write request o).Deaf WriteReport.mute
  listRelations : ∀ q o, (c.listRelations supply q o).Deaf id

/-- What a server says with a failure has no influence on any operation, whatever the schedule and
the other answers are. -/
theorem failure_texts_ignored (c : Client) (supply : IdSupply) : c.TextsIgnored supply where
  check q o := by
    rw [check_asks]
    exact (askOnce_alike _ _ _ _ _ _).deaf
  listObjects q o := by
    rw [listObjects_asks]
    exact (askOnce_alike _ _ _ _ _ _).deaf
  checkEach questions o := (checkEach_alike c supply questions o).deaf
  checkGroups questions o visits := (checkGroups_alike c supply questions o visits).deaf
  write request o := (write_alike c request o).deaf
  listRelations q o := (listRelations_alike c supply q o).deaf

/-- A check that is refused without a word, and one that is told why, fail in the same way. -/
theorem told_why_ignored : ∃ traces traces' d e,
    ((ofStore (.ofNat 1)).check anneReads {}).Yields traces (.error d) ∧
    ((ofStore (.ofNat 1)).check anneReads {}).Yields traces' (.error e) ∧
    d ≠ e ∧ d.mute = e.mute ∧ traces.map Trace.mute = traces'.map Trace.mute := by
  have fails (body : Option ErrorBody) : ∃ trace,
      ((ofStore (.ofNat 1)).check anneReads {}).Yields [trace]
        (.error (.ofCall (.http 400 none body))) ∧
      trace.choices = [.answer 0 (.error (.http 400 none body)) ⟨0, 0⟩, .start] :=
    ⟨_, .failed ⟨_, .next (.next .opened (c := .start) rfl)
      (c := .answer 0 (.error (.http 400 none body)) ⟨0, 0⟩) rfl, rfl⟩, rfl⟩
  obtain ⟨trace, run, made⟩ := fails none
  obtain ⟨trace', run', made'⟩ := fails (some ⟨some "type_not_found", some "no such type"⟩)
  have heard : [trace].map Trace.heard = [trace'].map Trace.heard := by
    rw [List.map_singleton, List.map_singleton, Trace.heard, Trace.heard, made, made']
    rfl
  have deaf := (failure_texts_ignored (ofStore (.ofNat 1)) fun _ => "").check anneReads {}
  exact ⟨_, _, _, _, run, run', by decide, Except.error.inj (deaf.yields _ _ _ _ run run' heard),
    deaf.runs _ _ run.runs run'.runs heard⟩

end Client

end Rebac
