import Rebac.Proofs.Dispatch.Attempts
import Rebac.Proofs.Dispatch.Program
import Rebac.Proofs.Muted

set_option autoImplicit false

/-! # Two runs that differ in the texts of failures -/

namespace Rebac.Dispatch

def Choice.mute : Choice → Choice
  | .answer place outcome now => .answer place outcome.mute now
  | c => c

def Effect.mute : Effect → Effect
  | .completed place outcome => .completed place outcome.mute
  | .noted event => .noted event.mute
  | e => e

namespace Trace

def choices (trace : Trace) : List Choice := trace.map Prod.fst

def heard (trace : Trace) : List Choice := trace.choices.map Choice.mute

def mute (trace : Trace) : Trace :=
  trace.map fun change => (change.1.mute, change.2.map Effect.mute)

end Trace

variable {τ α β : Type} {f : τ → τ}

/-! ## One choice -/

def Pool.mute (f : τ → τ) (pool : Pool (Request τ) (Task τ) τ) : Pool (Request τ) (Task τ) τ :=
  { pool with slots := pool.slots.map (Option.map f) }

def Progress.mute (f : τ → τ) : Progress τ → Progress τ
  | .active pool => .active (pool.mute f)
  | .failed e => .failed e.mute

/-- A request that makes the same of an outcome whatever a failure says, but for the texts. -/
structure Request.Deaf (f : τ → τ) (q : Request τ) : Prop where
  settle : ∀ outcome : Outcome, muted f (q.settle outcome.mute) = muted f (q.settle outcome)
  report : ∀ outcome : Outcome,
    (q.report outcome.mute).map Event.mute = (q.report outcome).map Event.mute

def Round.Deaf (f : τ → τ) (r : Round τ) : Prop := ∀ q ∈ r.requests, q.Deaf f

def muteChange (f : τ → τ) (change : Progress τ × List Effect) : Progress τ × List Effect :=
  (change.1.mute f, change.2.map Effect.mute)

namespace Pool

variable {pool pool' : Pool (Request τ) (Task τ) τ}

theorem mute_eq (eq : pool.mute f = pool'.mute f) : ∃ slots, pool' = { pool with slots := slots } ∧
    pool.slots.map (Option.map f) = slots.map (Option.map f) := by
  obtain ⟨limit, waiting, running, slots⟩ := pool
  obtain ⟨limit', waiting', running', slots'⟩ := pool'
  simp only [mute, Pool.mk.injEq] at eq
  obtain ⟨rfl, rfl, rfl, same⟩ := eq
  exact ⟨slots', rfl, same⟩

theorem mute_update (eq : pool.mute f = pool'.mute f) (place : Nat) (task : Task τ) :
    (pool.update place task).mute f = (pool'.update place task).mute f := by
  obtain ⟨slots, rfl, same⟩ := mute_eq eq
  simp only [mute, update, same]

theorem mute_complete (eq : pool.mute f = pool'.mute f) (place : Nat) {x y : τ}
    (alike : f x = f y) : (pool.complete place x).mute f = (pool'.complete place y).mute f := by
  obtain ⟨slots, rfl, same⟩ := mute_eq eq
  simp only [mute, complete, List.map_set, same, Option.map_some, alike]

theorem mute_start (eq : pool.mute f = pool'.mute f) {place : Nat} {task : Task τ}
    {next : Pool (Request τ) (Task τ) τ}
    (start : pool.start? Round.launch = some (place, task, next)) :
    ∃ next', pool'.start? Round.launch = some (place, task, next') ∧
      next.mute f = next'.mute f := by
  obtain ⟨slots, rfl, same⟩ := mute_eq eq
  obtain ⟨request, rest, waits, room, rfl, rfl⟩ := start?_eq_some.mp start
  refine ⟨_, start?_eq_some.mpr ⟨request, rest, waits, room, rfl, rfl⟩, ?_⟩
  simp only [mute, same]

theorem mute_results (eq : pool.mute f = pool'.mute f) :
    pool.results.map f = pool'.results.map f := by
  obtain ⟨slots, rfl, same⟩ := mute_eq eq
  have taken (pool : Pool (Request τ) (Task τ) τ) :
      pool.results.map f = (pool.slots.map (Option.map f)).filterMap id := by
    rw [results, List.map_filterMap, List.filterMap_map]
    rfl
  rw [taken, taken, same]

end Pool

namespace Round

variable {r : Round τ} {s s' t : Progress τ} {c c' : Choice} {trace trace' : Trace}

theorem mute_notes (notes : List Event) :
    (notes.map Effect.noted).map Effect.mute = (notes.map Event.mute).map Effect.noted := by
  rw [List.map_map, List.map_map]
  rfl

theorem react_alike (policy : Retry.Policy) (attempt : Nat) (now : Instant) {o o' : Outcome}
    (same : o.mute = o'.mute) :
    (policy.react attempt now o).mute = (policy.react attempt now o').mute := by
  rw [← Retry.Policy.react_mute, same, Retry.Policy.react_mute]

theorem react_again_alike {policy : Retry.Policy} {attempt : Nat} {now : Instant}
    {o o' : Outcome} {wait : Duration} (same : o.mute = o'.mute)
    (again : policy.react attempt now o = .again wait) :
    policy.react attempt now o' = .again wait := by
  have alike := react_alike policy attempt now same
  rw [again] at alike
  cases reaction : policy.react attempt now o' with
  | again other =>
    rw [reaction] at alike
    exact alike.symm
  | final last =>
    rw [reaction] at alike
    cases alike

theorem react_final_alike {policy : Retry.Policy} {attempt : Nat} {now : Instant}
    {o o' last : Outcome} (same : o.mute = o'.mute)
    (final : policy.react attempt now o = .final last) :
    last = o ∧ policy.react attempt now o' = .final o' := by
  refine ⟨react_final final, ?_⟩
  cases reaction : policy.react attempt now o' with
  | again wait =>
    rw [react_again_alike same.symm reaction] at final
    cases final
  | final other => rw [react_final reaction]

theorem onAnswer_alike {policy : Retry.Policy} {pool pool' : Pool (Request τ) (Task τ) τ}
    {place : Nat} {task : Task τ} {o o' : Outcome} (deaf : task.request.Deaf f)
    (eq : pool.mute f = pool'.mute f) (same : o.mute = o'.mute) (now : Instant) :
    muteChange f (onAnswer policy pool place task o now) =
      muteChange f (onAnswer policy pool' place task o' now) := by
  have notes : (policy.notes task.failures now o).map Event.mute =
      (policy.notes task.failures now o').map Event.mute := by
    rw [← Retry.Policy.notes_mute, same, Retry.Policy.notes_mute]
  have settles : muted f (task.request.settle o) = muted f (task.request.settle o') := by
    rw [← deaf.settle, same, deaf.settle]
  have reports : (task.request.report o).map Event.mute =
      (task.request.report o').map Event.mute := by
    rw [← deaf.report, same, deaf.report]
  unfold onAnswer
  cases reaction : policy.react task.failures now o with
  | again wait =>
    simp only [react_again_alike same reaction, muteChange, Progress.mute, List.map_append,
      mute_notes, notes, Pool.mute_update eq]
  | final last =>
    obtain ⟨rfl, reaction'⟩ := react_final_alike same reaction
    have effects : [Effect.completed place last].map Effect.mute =
        [Effect.completed place o'].map Effect.mute := by
      simp only [List.map_singleton, Effect.mute, same]
    cases settled : task.request.settle last with
    | ok x =>
      obtain ⟨y, settled', alike⟩ := muted_ok (settled ▸ settles)
      simp only [settled, reaction', settled', muteChange, Progress.mute, List.map_append,
        mute_notes, notes, reports, effects, Pool.mute_complete eq place alike]
    | error d =>
      obtain ⟨e, settled', alike⟩ := muted_error (settled ▸ settles)
      simp only [settled, reaction', settled', muteChange, Progress.mute, List.map_append,
        mute_notes, notes, reports, effects, alike]

theorem next?_alike {policy : Retry.Policy} {change : Progress τ × List Effect}
    (deaf : ∀ pool, s = .active pool → ∀ place task, pool.find? place = some task →
      task.request.Deaf f)
    (eq : s.mute f = s'.mute f) (same : c.mute = c'.mute)
    (next : next? policy s c = some change) :
    ∃ change', next? policy s' c' = some change' ∧ muteChange f change = muteChange f change' := by
  cases s with
  | failed e => cases next
  | active pool =>
    cases s' with
    | failed e => cases eq
    | active pool' =>
      have eq : pool.mute f = pool'.mute f := State.active.inj eq
      have found (place : Nat) : pool'.find? place = pool.find? place := by
        obtain ⟨slots, rfl, -⟩ := Pool.mute_eq eq
        rfl
      cases c with
      | start =>
        cases c' <;> cases same
        simp only [next?, Option.map_eq_some_iff] at next
        obtain ⟨⟨place, task, pool₁⟩, start, rfl⟩ := next
        obtain ⟨pool₂, start', alike⟩ := Pool.mute_start eq start
        refine ⟨(.active pool₂, [.sent place task.request.call]), by simp [next?, start'], ?_⟩
        simp only [muteChange, Progress.mute, alike]
      | answer place outcome now =>
        cases c' with
        | start => cases same
        | wake _ => cases same
        | answer place' outcome' now' =>
          simp only [Choice.mute, Choice.answer.injEq] at same
          obtain ⟨rfl, same, rfl⟩ := same
          cases there : pool.find? place with
          | none => simp [next?, there] at next
          | some task =>
            have phase := answer_phase next there
            rw [next?_answer there phase] at next
            cases next
            exact ⟨_, next?_answer ((found place).trans there) phase outcome' now,
              onAnswer_alike (deaf pool rfl place task there) eq same now⟩
      | wake place =>
        cases c' <;> cases same
        cases there : pool.find? place with
        | none => simp [next?, there] at next
        | some task =>
          have phase := wake_phase next there
          rw [next?_wake there phase] at next
          cases next
          refine ⟨_, next?_wake ((found place).trans there) phase, ?_⟩
          simp only [muteChange, Progress.mute, Pool.mute_update eq]

/-! ## Whole runs -/

theorem Deaf.underway (deaf : r.Deaf f) (run : r.Runs s trace) :
    ∀ pool, s = .active pool → ∀ place task, pool.find? place = some task →
      task.request.Deaf f := by
  rintro pool rfl place task found
  obtain ⟨moves, bareRun, -⟩ := runs_bare run
  exact deaf _ (List.mem_of_getElem? (request_at bareRun found).2)

/-- If the failures of a run had said something else, the same calls would have been sent, with the
same waits. -/
theorem runs_reworded (deaf : r.Deaf f) (run : r.Runs s trace) {choices : List Choice}
    (eq : trace.heard = choices.map Choice.mute) : ∃ s' trace', r.Runs s' trace' ∧
      trace'.choices = choices ∧ s.mute f = s'.mute f ∧ trace.mute = trace'.mute := by
  induction run generalizing choices with
  | opened =>
    cases choices with
    | nil => exact ⟨_, [], .opened, rfl, rfl, rfl⟩
    | cons _ _ => cases eq
  | @next s t c effects trace run next ih =>
    cases choices with
    | nil => cases eq
    | cons c' choices =>
      obtain ⟨same, rest⟩ := List.cons.inj eq
      obtain ⟨s', trace', run', made, alike, trails⟩ := ih rest
      obtain ⟨⟨t', effects'⟩, next', change⟩ := next?_alike (deaf.underway run) alike same next
      obtain ⟨states, done⟩ := Prod.mk.inj change
      refine ⟨t', (c', effects') :: trace', run'.next next', congrArg (c' :: ·) made, states, ?_⟩
      change (c.mute, effects.map Effect.mute) :: trace.mute =
        (c'.mute, effects'.map Effect.mute) :: trace'.mute
      rw [same, done, trails]

theorem runs_determined (run : r.Runs s trace) (run' : r.Runs s' trace')
    (eq : trace.choices = trace'.choices) : s = s' ∧ trace = trace' := by
  induction run generalizing s' trace' with
  | opened =>
    cases run' with
    | opened => exact ⟨rfl, rfl⟩
    | next _ _ => cases eq
  | next run next ih =>
    cases run' with
    | opened => cases eq
    | next run' next' =>
      obtain ⟨same, rest⟩ := List.cons.inj eq
      obtain ⟨rfl, rfl⟩ := ih run' rest
      cases same
      cases next.symm.trans next'
      exact ⟨rfl, rfl⟩

theorem runs_alike (deaf : r.Deaf f) (run : r.Runs s trace) (run' : r.Runs s' trace')
    (eq : trace.heard = trace'.heard) : s.mute f = s'.mute f ∧ trace.mute = trace'.mute := by
  obtain ⟨s'', trace'', run'', made, states, trails⟩ := runs_reworded deaf run eq
  obtain ⟨rfl, rfl⟩ := runs_determined run'' run' made
  exact ⟨states, trails⟩

theorem ending?_alike (eq : s.mute f = s'.mute f) :
    s.ending?.map (muted (List.map f)) = s'.ending?.map (muted (List.map f)) := by
  cases s with
  | failed d =>
    cases s' with
    | active pool => cases eq
    | failed e =>
      have same : d.mute = e.mute := State.failed.inj eq
      simp only [State.ending?, Option.map_some, muted, same]
  | active pool =>
    cases s' with
    | failed e => cases eq
    | active pool' =>
      have eq : pool.mute f = pool'.mute f := State.active.inj eq
      have results := Pool.mute_results eq
      have finished : pool.isFinished = pool'.isFinished := by
        obtain ⟨slots, rfl, -⟩ := Pool.mute_eq eq
        rfl
      simp only [State.ending?, finished]
      split
      · simp only [Option.map_some, muted, results]
      · rfl

theorem ends_alike {ending ending' : Except ClientError (List τ)} (deaf : r.Deaf f)
    (ends : r.Ends trace ending) (ends' : r.Ends trace' ending')
    (eq : trace.heard = trace'.heard) :
    trace.mute = trace'.mute ∧ muted (List.map f) ending = muted (List.map f) ending' := by
  obtain ⟨s, run, ended⟩ := ends
  obtain ⟨s', run', ended'⟩ := ends'
  obtain ⟨states, trails⟩ := runs_alike deaf run run' eq
  have endings := ending?_alike states
  rw [ended, ended'] at endings
  exact ⟨trails, Option.some.inj endings⟩

theorem ends_reworded {ending : Except ClientError (List τ)} (deaf : r.Deaf f)
    (ends : r.Ends trace ending) {choices : List Choice}
    (eq : trace.heard = choices.map Choice.mute) : ∃ trace' ending', r.Ends trace' ending' ∧
      trace'.choices = choices ∧ muted (List.map f) ending = muted (List.map f) ending' := by
  obtain ⟨s, run, ended⟩ := ends
  obtain ⟨s', trace', run', made, states, -⟩ := runs_reworded deaf run eq
  have endings := ending?_alike states
  rw [ended, Option.map_some, eq_comm, Option.map_eq_some_iff] at endings
  obtain ⟨ending', ended', same⟩ := endings
  exact ⟨trace', ending', ⟨s', run', ended'⟩, made, same.symm⟩

end Round

/-! ## Programs -/

namespace Program

/-- Programs that go on alike after results that differ in such texts alone. -/
inductive Alike (f : τ → τ) (g : α → α) : Program τ α → Program τ α → Prop where
  | done {result result' : Except ClientError α} {events events' : List Event} :
      muted g result = muted g result' → Alike f g (.done result events) (.done result' events')
  | round {r : Round τ} {next next' : List τ → Program τ α} : r.Deaf f →
      (∀ xs ys, xs.map f = ys.map f → Alike f g (next xs) (next' ys)) →
      Alike f g (.round r next) (.round r next')

variable {g : α → α} {p p' : Program τ α} {traces traces' : List Trace}
  {result result' : Except ClientError α}

theorem Alike.runs (alike : Alike f g p p') (run : p.Runs traces) (run' : p'.Runs traces')
    (eq : traces.map Trace.heard = traces'.map Trace.heard) :
    traces.map Trace.mute = traces'.map Trace.mute := by
  induction alike generalizing traces traces' with
  | done _ =>
    cases run
    cases run'
    rfl
  | round deaf _ ih =>
    cases traces with
    | nil => rw [List.map_eq_nil_iff.mp eq.symm]
    | cons trace rest =>
      cases traces' with
      | nil => cases eq
      | cons trace' rest' =>
        obtain ⟨same, later⟩ := List.cons.inj eq
        obtain ⟨s, first⟩ := runs_first run
        obtain ⟨s', first'⟩ := runs_first run'
        -- where one run has gone no further than its first round, neither has the other
        have others : rest.map Trace.mute = rest'.map Trace.mute := by
          rcases runs_rest run with rfl | ⟨results, ends, run⟩
          · rw [List.map_eq_nil_iff.mp later.symm]
          · rcases runs_rest run' with rfl | ⟨results', ends', run'⟩
            · rw [List.map_eq_nil_iff.mp later]
            · have alike := Except.ok.inj (Round.ends_alike deaf ends ends' same).2
              exact ih _ _ alike run run' later
        rw [List.map_cons, List.map_cons, (Round.runs_alike deaf first first' same).2, others]

theorem Alike.yields (alike : Alike f g p p') (run : p.Yields traces result)
    (run' : p'.Yields traces' result') (eq : traces.map Trace.heard = traces'.map Trace.heard) :
    muted g result = muted g result' := by
  induction alike generalizing traces traces' with
  | done same =>
    obtain ⟨-, rfl⟩ := yields_done.mp run
    obtain ⟨-, rfl⟩ := yields_done.mp run'
    exact same
  | @round r next next' deaf _ ih =>
    cases run with
    | failed ends =>
      cases run' with
      | failed ends' =>
        exact congrArg Except.error
          (Except.error.inj (Round.ends_alike deaf ends ends' (List.cons.inj eq).1).2)
      | finished ends' _ => cases (Round.ends_alike deaf ends ends' (List.cons.inj eq).1).2
    | finished ends rest =>
      cases run' with
      | failed ends' => cases (Round.ends_alike deaf ends ends' (List.cons.inj eq).1).2
      | finished ends' rest' =>
        obtain ⟨same, later⟩ := List.cons.inj eq
        obtain ⟨-, endings⟩ := Round.ends_alike deaf ends ends' same
        exact ih _ _ (Except.ok.inj endings) rest rest' later

theorem Alike.reworded (alike : Alike f g p p') (run : p.Yields traces result)
    {choices : List (List Choice)}
    (eq : traces.map Trace.heard = choices.map (List.map Choice.mute)) :
    ∃ traces' result', p'.Yields traces' result' ∧ traces'.map Trace.choices = choices := by
  induction alike generalizing traces choices with
  | done _ =>
    obtain ⟨rfl, rfl⟩ := yields_done.mp run
    rw [List.map_eq_nil_iff.mp eq.symm]
    exact ⟨[], _, .done, rfl⟩
  | @round r next next' deaf _ ih =>
    cases run with
    | failed ends =>
      cases choices with
      | nil => cases eq
      | cons first later =>
        obtain ⟨same, none⟩ := List.cons.inj eq
        obtain ⟨trace', ending', ends', made, endings⟩ := Round.ends_reworded deaf ends same
        obtain ⟨e, rfl, -⟩ := muted_error endings
        exact ⟨[trace'], _, .failed ends', by
          rw [List.map_eq_nil_iff.mp none.symm, List.map_singleton, made]⟩
    | finished ends rest =>
      cases choices with
      | nil => cases eq
      | cons first later =>
        obtain ⟨same, others⟩ := List.cons.inj eq
        obtain ⟨trace', ending', ends', made, endings⟩ := Round.ends_reworded deaf ends same
        obtain ⟨results', rfl, results⟩ := muted_ok endings
        obtain ⟨traces', result', rest', made'⟩ := ih _ _ results rest others
        exact ⟨trace' :: traces', result', .finished ends' rest', by
          rw [List.map_cons, made, made']⟩

theorem Alike.andThen {h : β → β} {after after' : α → Except ClientError β × List Event}
    (alike : Alike f g p p')
    (goes : ∀ a b, g a = g b → muted h (after a).1 = muted h (after' b).1) :
    Alike f h (p.andThen after) (p'.andThen after') := by
  induction alike with
  | @done result result' events events' same =>
    cases result with
    | error d =>
      obtain ⟨e, rfl, apart⟩ := muted_error same
      exact .done (congrArg Except.error apart)
    | ok a =>
      obtain ⟨b, rfl, apart⟩ := muted_ok same
      exact .done (goes a b apart)
  | round deaf _ ih => exact .round deaf ih

/-- What failures say changes nothing that a program does, and of its results no more than the
texts that `g` takes away. -/
structure Deaf (g : α → α) (p : Program τ α) : Prop where
  /-- Two runs with the same schedule and the same answers, but for such texts, send the same calls
  and make the same waits. -/
  runs : ∀ traces traces', p.Runs traces → p.Runs traces' →
    traces.map Trace.heard = traces'.map Trace.heard →
      traces.map Trace.mute = traces'.map Trace.mute
  yields : ∀ traces traces' result result', p.Yields traces result → p.Yields traces' result' →
    traces.map Trace.heard = traces'.map Trace.heard → muted g result = muted g result'
  /-- A whole run stays a whole run if its failures say something else. -/
  reworded : ∀ traces result (choices : List (List Choice)), p.Yields traces result →
    traces.map Trace.heard = choices.map (List.map Choice.mute) →
      ∃ traces' result', p.Yields traces' result' ∧ traces'.map Trace.choices = choices

theorem Alike.deaf (alike : Alike f g p p) : p.Deaf g where
  runs _ _ := alike.runs
  yields _ _ _ _ := alike.yields
  reworded _ _ _ run := alike.reworded run

end Program

end Rebac.Dispatch
