import Rebac.Proofs.Dispatch.Pool
import Rebac.Proofs.Dispatch.Trace
import Rebac.Proofs.Fallible
import Mathlib.Data.List.Nodup

set_option autoImplicit false

/-!
# Rounds under every schedule

`Change` says once what a round can do. A round is a bounded pool whose items take several turns:
forgetting the turns maps every run of a round to a run of the pool, so what holds of pools under
every schedule holds of rounds.
-/
namespace Rebac.Dispatch

variable {α σ ρ τ : Type}

/-! ## Changes -/

namespace Round

theorem react_final {policy : Retry.Policy} {attempt : Nat} {now : Instant}
    {outcome result : Outcome} (h : policy.react attempt now outcome = .final result) :
    result = outcome := by
  cases outcome with
  | ok response => exact (Retry.Reaction.final.inj h).symm
  | error e =>
    simp only [Retry.Policy.react] at h
    split at h
    · cases h
    · exact (Retry.Reaction.final.inj h).symm

/-- What a round can do, one case for each kind of change. -/
inductive Change (policy : Retry.Policy) :
    Progress τ → Choice → Progress τ → List Effect → Prop where
  | started {pool pool' : Pool (Request τ) (Task τ) τ} {place : Nat} {task : Task τ} :
      pool.start? launch = some (place, task, pool') →
      Change policy (.active pool) .start (.active pool') [.sent place task.request.call]
  | paused {pool : Pool (Request τ) (Task τ) τ} {place : Nat} {task : Task τ} {outcome : Outcome}
      {now : Instant} {wait : Duration} :
      pool.find? place = some task →
      policy.react task.failures now outcome = .again wait →
      Change policy (.active pool) (.answer place outcome now)
        (.active (pool.update place { task with failures := task.failures + 1, phase := .pausing }))
        ((policy.notes task.failures now outcome).map .noted ++ [.paused place wait])
  | settled {pool : Pool (Request τ) (Task τ) τ} {place : Nat} {task : Task τ} {outcome : Outcome}
      {now : Instant} {result : τ} {notes : List Event} :
      pool.find? place = some task →
      policy.react task.failures now outcome = .final outcome →
      task.request.settle outcome = .ok result →
      Change policy (.active pool) (.answer place outcome now)
        (.active (pool.complete place result)) (notes.map .noted ++ [.completed place outcome])
  | failed {pool : Pool (Request τ) (Task τ) τ} {place : Nat} {task : Task τ} {outcome : Outcome}
      {now : Instant} {e : ClientError} {notes : List Event} :
      pool.find? place = some task →
      policy.react task.failures now outcome = .final outcome →
      task.request.settle outcome = .error e →
      Change policy (.active pool) (.answer place outcome now) (.failed e)
        (notes.map .noted ++ [.completed place outcome])
  | woken {pool : Pool (Request τ) (Task τ) τ} {place : Nat} {task : Task τ} :
      pool.find? place = some task →
      Change policy (.active pool) (.wake place)
        (.active (pool.update place { task with phase := .awaiting }))
        [.sent place task.request.call]

theorem onAnswer_change {policy : Retry.Policy} {pool : Pool (Request τ) (Task τ) τ}
    {place : Nat} {task : Task τ} (found : pool.find? place = some task) (outcome : Outcome)
    (now : Instant) :
    Change policy (.active pool) (.answer place outcome now)
      (onAnswer policy pool place task outcome now).1
      (onAnswer policy pool place task outcome now).2 := by
  unfold onAnswer
  cases reaction : policy.react task.failures now outcome with
  | again wait => exact .paused found reaction
  | final result =>
    have same := react_final reaction
    subst same
    cases settled : task.request.settle result with
    | ok x =>
      simp only [settled, ← List.map_append]
      exact .settled found reaction settled
    | error e =>
      simp only [settled, ← List.map_append]
      exact .failed found reaction settled

theorem next?_change {policy : Retry.Policy} {s t : Progress τ} {c : Choice}
    {effects : List Effect} (h : next? policy s c = some (t, effects)) :
    Change policy s c t effects := by
  cases s with
  | failed e => cases h
  | active pool =>
    cases c with
    | start =>
      simp only [next?, Option.map_eq_some_iff] at h
      obtain ⟨⟨place, task, pool'⟩, start, eq⟩ := h
      cases eq
      exact .started start
    | answer place outcome now =>
      simp only [next?] at h
      split at h
      · rename_i task found
        split at h
        · have change : Change policy _ _ _ _ := onAnswer_change found outcome now
          rw [Option.some.inj h] at change
          exact change
        · cases h
      · cases h
    | wake place =>
      simp only [next?] at h
      split at h
      · rename_i task found
        split at h
        · cases h
          exact .woken found
        · cases h
      · cases h

end Round

/-! ## The pool of a round -/

namespace Pool

def mapStates (f : σ → ρ) (p : Pool α σ τ) : Pool α ρ τ :=
  { limit := p.limit, waiting := p.waiting, running := p.running.map fun r => (r.1, f r.2)
    slots := p.slots }

theorem mem_mapStates {f : σ → ρ} {p : Pool α σ τ} {i : Nat} {s : σ} (h : (i, s) ∈ p.running) :
    (i, f s) ∈ (p.mapStates f).running :=
  List.mem_map.mpr ⟨(i, s), h, rfl⟩

theorem find?_mapStates {f : σ → ρ} {p : Pool α σ τ} {i : Nat} {s : σ}
    (h : p.find? i = some s) : (p.mapStates f).find? i = some (f s) := by
  obtain ⟨before, after, eq, first⟩ := List.lookup_eq_some_iff.mp h
  apply List.lookup_eq_some_iff.mpr
  refine ⟨before.map fun r => (r.1, f r.2), after.map fun r => (r.1, f r.2), ?_, ?_⟩
  · simp [mapStates, eq]
  · intro r mem
    obtain ⟨r, there, rfl⟩ := List.mem_map.mp mem
    exact first r there

theorem complete_mapStates (f : σ → ρ) (p : Pool α σ τ) (i : Nat) (r : τ) :
    (p.complete i r).mapStates f = (p.mapStates f).complete i r := by
  simp only [mapStates, complete, List.filter_map]
  rfl

theorem update_mapStates {f : σ → ρ} {p : Pool α σ τ} {i : Nat} {s t : σ}
    (once : (p.running.map Prod.fst).Nodup) (found : p.find? i = some s) (same : f t = f s) :
    (p.update i t).mapStates f = p.mapStates f := by
  simp only [mapStates, update, List.map_map, Pool.mk.injEq, true_and, and_true]
  apply List.map_congr_left
  intro r mem
  by_cases here : r.1 = i
  · have eq : r = (i, s) := List.inj_on_of_nodup_map once mem (mem_of_find? found) here
    subst eq
    simp [same]
  · simp [here]

theorem isFinished_mapStates (f : σ → ρ) (p : Pool α σ τ) :
    (p.mapStates f).isFinished = p.isFinished := by
  simp [isFinished, mapStates]

end Pool

namespace Round

/-- A round without the turns of its requests. -/
def bare : Progress τ → State (Request τ) (Request τ) τ ClientError
  | .active pool => .active (pool.mapStates Task.request)
  | .failed e => .failed e

def settledAt (r : Round τ) (final : Nat × Outcome) : Nat × Option (Except ClientError τ) :=
  (final.1, (r.requests[final.1]?).map fun q => q.settle final.2)

structure Recounts (r : Round τ) (trace : Trace)
    (moves : List (Move (Request τ) τ ClientError)) : Prop where
  launched : trace.launches = (starts moves).map fun m => (m.1, m.2.call)
  settled : trace.finals.map (settledAt r) = (consumed moves).map fun c => (c.1, some c.2)

variable {r : Round τ} {s t : Progress τ} {trace : Trace}
  {moves : List (Move (Request τ) τ ClientError)}

theorem request_at {pool : Pool (Request τ) (Task τ) τ} {place : Nat} {task : Task τ}
    (run : Dispatch.Runs r.limit r.requests moves (bare (.active pool)))
    (found : pool.find? place = some task) :
    (place, task.request) ∈ starts moves ∧ r.requests[place]? = some task.request := by
  have tracks : Tracks r.limit r.requests moves (pool.mapStates Task.request) := runs_follow run
  have flying := tracks.running ▸ Pool.mem_mapStates (f := Task.request) (Pool.mem_of_find? found)
  have started := (mem_inFlight.mp flying).1
  exact ⟨started, (tracks.starts_get started).2⟩

theorem bare_update {pool : Pool (Request τ) (Task τ) τ} {place : Nat} {task : Task τ}
    (run : Dispatch.Runs r.limit r.requests moves (bare (.active pool)))
    (found : pool.find? place = some task) (task' : Task τ) (same : task'.request = task.request) :
    bare (.active (pool.update place task')) = bare (.active pool) := by
  have tracks : Tracks r.limit r.requests moves (pool.mapStates Task.request) := runs_follow run
  have once : (pool.running.map Prod.fst).Nodup := by
    have nodup := tracks.inFlight_nodup
    rw [← tracks.running] at nodup
    simpa [Pool.mapStates, Function.comp_def] using nodup
  rw [bare, Pool.update_mapStates once found same]
  rfl

theorem change_bare {c : Choice} {effects : List Effect}
    (run : Dispatch.Runs r.limit r.requests moves (bare s)) (recounts : Recounts r trace moves)
    (change : Change r.policy s c t effects) :
    ∃ moves', Dispatch.Runs r.limit r.requests moves' (bare t) ∧
      Recounts r ((c, effects) :: trace) moves' := by
  obtain ⟨launched, settled⟩ := recounts
  cases change with
  | @started pool pool' place task start =>
    obtain ⟨request, rest, waits, room, rfl, rfl⟩ := Pool.start?_eq_some.mp start
    have step : Step (bare (.active pool)) (.start place request) (bare (.active
        { pool with waiting := rest, running := pool.running ++ [(place, launch request)] })) := by
      apply Step.start
      apply Pool.start?_eq_some.mpr
      refine ⟨request, rest, waits, ?_, rfl, ?_⟩
      · simpa [Pool.mapStates] using room
      · simp [Pool.mapStates, launch]
    refine ⟨_, run.next step, ?_, ?_⟩
    · simp [Trace.launches, launched, launch, Effect.sent?]
    · simpa [Trace.finals_sent] using settled
  | @paused pool place task outcome now wait found again =>
    -- a retry is another turn of the same request, which the bare pool does not see
    have eq := bare_update run found
      { task with failures := task.failures + 1, phase := .pausing } rfl
    exact ⟨moves, eq ▸ run, launched, by rwa [Trace.finals_paused]⟩
  | @settled pool place task outcome now result notes found final settle =>
    have here := (request_at run found).2
    have step : Step (bare (.active pool)) (.consume place (.ok result))
        (bare (.active (pool.complete place result))) := by
      simp only [bare, Pool.complete_mapStates]
      exact .finish (Pool.find?_mapStates found)
    refine ⟨_, run.next step, ?_, ?_⟩
    · simpa [Trace.launches] using launched
    · simp [Trace.finals_completed, settled, settledAt, here, settle]
  | @failed pool place task outcome now e notes found final settle =>
    have here := (request_at run found).2
    have step : Step (bare (.active pool)) (.consume place (.error e)) (bare (.failed e)) :=
      .fail (Pool.find?_mapStates found)
    refine ⟨_, run.next step, ?_, ?_⟩
    · simpa [Trace.launches] using launched
    · simp [Trace.finals_completed, settled, settledAt, here, settle]
  | @woken pool place task found =>
    have eq := bare_update run found { task with phase := .awaiting } rfl
    exact ⟨moves, eq ▸ run, launched, by rwa [Trace.finals_sent]⟩

theorem runs_bare (run : r.Runs s trace) :
    ∃ moves, Dispatch.Runs r.limit r.requests moves (bare s) ∧ Recounts r trace moves := by
  induction run with
  | opened => exact ⟨[], .opened, rfl, rfl⟩
  | next _ next ih =>
    obtain ⟨moves, run, recounts⟩ := ih
    exact change_bare run recounts (next?_change next)

/-! ## What holds of every trace -/

theorem Recounts.mem_consumed (h : Recounts r trace moves) {i : Nat} {x : Except ClientError τ} :
    (i, x) ∈ consumed moves ↔
      ∃ o q, (i, o) ∈ trace.finals ∧ r.requests[i]? = some q ∧ q.settle o = x := by
  have mem : (i, x) ∈ consumed moves ↔ (i, some x) ∈ trace.finals.map (settledAt r) := by
    rw [h.settled]
    simp
  rw [mem, List.mem_map]
  constructor
  · rintro ⟨⟨j, o⟩, final, eq⟩
    simp only [settledAt, Prod.mk.injEq, Option.map_eq_some_iff] at eq
    obtain ⟨rfl, q, here, settle⟩ := eq
    exact ⟨o, q, final, here, settle⟩
  · rintro ⟨o, q, final, here, settle⟩
    exact ⟨(i, o), final, by simp [settledAt, here, settle]⟩

theorem Recounts.places (h : Recounts r trace moves) :
    trace.finals.map Prod.fst = (consumed moves).map Prod.fst := by
  have eq := congrArg (List.map Prod.fst) h.settled
  simpa [settledAt, Function.comp_def] using eq

def calls (r : Round τ) : List (Nat × Call) :=
  (Pool.placed r.requests).map fun p => (p.1, p.2.call)

theorem runs_tally (run : r.Runs s trace) : ∃ moves : List (Move (Request τ) τ ClientError),
    Tally r.limit r.requests moves ∧ Recounts r trace moves := by
  obtain ⟨moves, run, recounts⟩ := runs_bare run
  have follows := runs_follow run
  cases s with
  | active pool => exact ⟨moves, Tracks.toTally follows, recounts⟩
  | failed e => exact ⟨moves, follows.1, recounts⟩

theorem launches_eq (run : r.Runs s trace) :
    trace.launches = r.calls.take trace.launches.length := by
  obtain ⟨moves, tally, recounts⟩ := runs_tally run
  have len : trace.launches.length = (starts moves).length := by simp [recounts.launched]
  rw [len, recounts.launched, calls, ← List.map_take, ← tally.started]

theorem finals_once (run : r.Runs s trace) : (trace.finals.map Prod.fst).Nodup := by
  obtain ⟨moves, tally, recounts⟩ := runs_tally run
  rw [recounts.places]
  exact tally.once

theorem finals_launched (run : r.Runs s trace) {i : Nat} {o : Outcome}
    (mem : (i, o) ∈ trace.finals) :
    ∃ q, r.requests[i]? = some q ∧ (i, q.call) ∈ trace.launches := by
  obtain ⟨moves, tally, recounts⟩ := runs_tally run
  have place : i ∈ (starts moves).map Prod.fst := by
    have consumed : i ∈ (consumed moves).map Prod.fst := by
      rw [← recounts.places]
      exact List.mem_map.mpr ⟨_, mem, rfl⟩
    obtain ⟨c, landed, rfl⟩ := List.mem_map.mp consumed
    rw [tally.starts_places]
    exact List.mem_range.mpr (tally.begun c landed)
  obtain ⟨⟨i, q⟩, started, rfl⟩ := List.mem_map.mp place
  refine ⟨q, (tally.starts_get started).2, ?_⟩
  rw [recounts.launched]
  exact List.mem_map.mpr ⟨(i, q), started, rfl⟩

theorem lastCall?_request (run : r.Runs s trace) {place : Nat} {call : Call}
    (last : trace.lastCall? place = some call) :
    ∃ q, r.requests[place]? = some q ∧ q.call = call := by
  induction run with
  | opened => cases last
  | next run next ih =>
    obtain ⟨moves, run, -⟩ := runs_bare run
    cases next?_change next with
    | started start =>
      rw [Trace.lastCall?_sent] at last
      split at last
      · rename_i same
        subst same
        obtain ⟨q, rest, waits, -, rfl, -⟩ := Pool.start?_eq_some.mp start
        refine ⟨q, ?_, Option.some.inj last⟩
        have tracks : Tracks r.limit r.requests moves (Pool.mapStates Task.request _) :=
          runs_follow run
        have next : (place, q) ∈ Pool.placed r.requests := by
          apply List.mem_of_mem_drop
          rw [← tracks.waiting]
          exact waits ▸ List.mem_cons_self
        exact Pool.mem_placed.mp next
      · exact ih last
    | paused found again =>
      rw [Trace.lastCall?_paused] at last
      exact ih last
    | settled found final settle =>
      rw [Trace.lastCall?_completed] at last
      exact ih last
    | failed found final settle =>
      rw [Trace.lastCall?_completed] at last
      exact ih last
    | woken found =>
      rw [Trace.lastCall?_sent] at last
      split at last
      · rename_i same
        subst same
        exact ⟨_, (request_at run found).2, Option.some.inj last⟩
      · exact ih last

theorem lastCall?_task {pool : Pool (Request τ) (Task τ) τ} {place : Nat} {task : Task τ}
    (run : r.Runs (.active pool) trace) (found : pool.find? place = some task) :
    trace.lastCall? place = some task.request.call := by
  obtain ⟨moves, bareRun, recounts⟩ := runs_bare run
  obtain ⟨started, here⟩ := request_at bareRun found
  have launched : (place, task.request.call) ∈ trace.launches := by
    rw [recounts.launched]
    exact List.mem_map.mpr ⟨_, started, rfl⟩
  obtain ⟨other, last⟩ := Trace.lastCall?_launched launched
  obtain ⟨q, there, eq⟩ := lastCall?_request run last
  rw [here] at there
  rw [last, ← eq, ← Option.some.inj there]

theorem exchange_answered {pool : Pool (Request τ) (Task τ) τ} {place : Nat} {task : Task τ}
    (run : r.Runs (.active pool) trace) (found : pool.find? place = some task) (outcome : Outcome)
    (now : Instant) (effects : List Effect) : (place, task.request.call, outcome) ∈
      Trace.exchanges ((.answer place outcome now, effects) :: trace) := by
  apply List.mem_append_right
  rw [lastCall?_task run found]
  exact List.mem_singleton.mpr rfl

theorem final_exchange (run : r.Runs s trace) {place : Nat} {o : Outcome}
    (mem : (place, o) ∈ trace.finals) :
    ∃ q, r.requests[place]? = some q ∧ (place, q.call, o) ∈ trace.exchanges := by
  induction run with
  | opened => cases mem
  | @next s t c effects trace run next ih =>
    have kept (old : (place, o) ∈ Trace.finals trace) : ∃ q, r.requests[place]? = some q ∧
        (place, q.call, o) ∈ Trace.exchanges ((c, effects) :: trace) := by
      obtain ⟨q, here, exchanged⟩ := ih old
      exact ⟨q, here, Trace.exchanges_kept _ exchanged⟩
    -- only the two changes that complete a request add a final outcome
    cases next?_change next with
    | started start =>
      rw [Trace.finals_sent] at mem
      exact kept mem
    | paused found again =>
      rw [Trace.finals_paused] at mem
      exact kept mem
    | settled found final settle =>
      rw [Trace.finals_completed] at mem
      rcases List.mem_append.mp mem with old | new
      · exact kept old
      · cases List.mem_singleton.mp new
        obtain ⟨moves, bareRun, -⟩ := runs_bare run
        exact ⟨_, (request_at bareRun found).2, exchange_answered run found o _ _⟩
    | failed found final settle =>
      rw [Trace.finals_completed] at mem
      rcases List.mem_append.mp mem with old | new
      · exact kept old
      · cases List.mem_singleton.mp new
        obtain ⟨moves, bareRun, -⟩ := runs_bare run
        exact ⟨_, (request_at bareRun found).2, exchange_answered run found o _ _⟩
    | woken found =>
      rw [Trace.finals_sent] at mem
      exact kept mem

theorem final?_eq_some (run : r.Runs s trace) {place : Nat} {o : Outcome} :
    trace.final? place = some o ↔ (place, o) ∈ trace.finals := by
  constructor
  · intro found
    obtain ⟨before, after, eq, -⟩ := List.lookup_eq_some_iff.mp found
    rw [eq]
    simp
  · intro mem
    cases found : trace.final? place with
    | none =>
      have absent := List.lookup_eq_none_iff.mp found _ mem
      simp at absent
    | some x =>
      obtain ⟨before, after, eq, -⟩ := List.lookup_eq_some_iff.mp found
      have also : (place, x) ∈ trace.finals := by
        rw [eq]
        simp
      have same := List.inj_on_of_nodup_map (finals_once run) also mem rfl
      cases same
      rfl

/-- A round that ends well has launched every request, and has the result of each in its place. -/
theorem ends_ok {results : List τ} (ends : r.Ends trace (.ok results)) :
    trace.launches = r.calls ∧ List.Forall₂ (fun p x => ∃ o, trace.final? p.1 = some o ∧
      p.2.settle o = .ok x) (Pool.placed r.requests) results := by
  obtain ⟨s, run, ended⟩ := ends
  obtain ⟨moves, bareRun, recounts⟩ := runs_bare run
  have follows := runs_follow bareRun
  cases s with
  | failed e => cases ended
  | active pool =>
    simp only [State.ending?] at ended
    split at ended
    · rename_i finished
      cases ended
      change Tracks r.limit r.requests moves (pool.mapStates Task.request) at follows
      rw [← Pool.isFinished_mapStates Task.request] at finished
      obtain ⟨len, got⟩ := follows.results_get finished
      change pool.results.length = _ at len
      change ∀ i x, pool.results[i]? = some x ↔ _ at got
      constructor
      · rw [recounts.launched, (follows.finished_iff.mp finished).1]
        rfl
      · apply List.forall₂_iff_get.mpr
        refine ⟨by rw [Pool.placed_length, len], ?_⟩
        intro i hi hx
        have consumed := (got i _).mp (List.getElem?_eq_getElem hx)
        obtain ⟨o, q, final, here, settle⟩ := recounts.mem_consumed.mp consumed
        have place : (Pool.placed r.requests)[i]? = some (i, q) := by
          rw [Pool.placed_get, here]
          rfl
        obtain ⟨_, eq⟩ := List.getElem?_eq_some_iff.mp place
        rw [List.get_eq_getElem, eq]
        exact ⟨o, (final?_eq_some run).mpr final, settle⟩
    · cases ended

theorem ends_ok_answer {results : List τ} (ends : r.Ends trace (.ok results)) {i : Nat} {x : τ}
    (got : results[i]? = some x) : ∃ q o, r.requests[i]? = some q ∧
      (i, q.call, o) ∈ trace.exchanges ∧ q.settle o = .ok x := by
  obtain ⟨-, settled⟩ := ends_ok ends
  obtain ⟨placed, here, o, final, settle⟩ := forall₂_get_right settled got
  rw [Pool.placed_get, Option.map_eq_some_iff] at here
  obtain ⟨q, there, rfl⟩ := here
  obtain ⟨s, run, -⟩ := ends
  obtain ⟨q', there', exchanged⟩ := final_exchange run ((final?_eq_some run).mp final)
  rw [there] at there'
  cases there'
  exact ⟨q, o, there, exchanged, settle⟩

theorem ends_ok_finals {results : List τ} (ends : r.Ends trace (.ok results)) :
    ∀ launch ∈ trace.launches, ∃ o, trace.final? launch.1 = some o := by
  obtain ⟨launched, settled⟩ := ends_ok ends
  rw [launched]
  intro launch mem
  obtain ⟨placed, there, rfl⟩ := List.mem_map.mp mem
  obtain ⟨x, -, o, final, -⟩ := forall₂_mem_left settled there
  exact ⟨o, final⟩

/-- A round that ends in an error ends in that of the one final outcome that amounts to one. -/
theorem ends_error_iff {result : Except ClientError (List τ)} (ends : r.Ends trace result)
    (e : ClientError) : result = .error e ↔
      ∃ i o q, (i, o) ∈ trace.finals ∧ r.requests[i]? = some q ∧ q.settle o = .error e := by
  obtain ⟨s, run, ended⟩ := ends
  obtain ⟨moves, run, recounts⟩ := runs_bare run
  have follows := runs_follow run
  simp only [← recounts.mem_consumed]
  cases s with
  | active pool =>
    have tracks : Tracks r.limit r.requests moves (pool.mapStates Task.request) := follows
    constructor
    · rintro rfl
      simp only [State.ending?] at ended
      split at ended <;> cases ended
    · rintro ⟨i, mem⟩
      exact absurd mem (tracks.succeeded i e)
  | failed f =>
    obtain ⟨-, earlier, i, rfl, clean⟩ := follows
    have eq : result = .error f := (Option.some.inj ended).symm
    subst eq
    simp only [consumed_append, consumed_consume, List.mem_append, clean, false_or,
      List.mem_singleton, Prod.mk.injEq, Except.error.injEq]
    constructor
    · rintro rfl
      exact ⟨i, rfl, rfl⟩
    · rintro ⟨-, -, rfl⟩
      rfl

end Round

end Rebac.Dispatch
