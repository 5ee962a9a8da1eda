import Rebac.Proofs.Dispatch.Attempts

set_option autoImplicit false

/-!
# Calls that await their answer

Each choice of a round sends one call or takes in the answer to one. The calls that have been sent
and not been answered are those of the requests under way that await an answer, so there are never
more of them than the limit allows. A round that ends well leaves none of them; one that fails
leaves those that it gives up.
-/
namespace Rebac.Dispatch

variable {α σ τ : Type}

/-! ## Counting items under way -/

namespace Pool

variable {p : Pool α σ τ} {i : Nat} {s : σ}

theorem running_split (once : (p.running.map Prod.fst).Nodup) (found : p.find? i = some s) :
    ∃ before after, p.running = before ++ (i, s) :: after ∧
      ∀ r ∈ before ++ after, r.1 ≠ i := by
  obtain ⟨before, after, eq, first⟩ := List.lookup_eq_some_iff.mp found
  refine ⟨before, after, eq, fun r mem same => ?_⟩
  rcases List.mem_append.mp mem with early | late
  · have differs := first r early
    simp [same] at differs
  · rw [eq, List.map_append, List.map_cons, List.nodup_append] at once
    have there : i ∈ after.map Prod.fst := same ▸ List.mem_map_of_mem (f := Prod.fst) late
    exact (List.nodup_cons.mp once.2.1).1 there

theorem countP_update (once : (p.running.map Prod.fst).Nodup) (found : p.find? i = some s) (t : σ)
    (f : σ → Bool) : (p.update i t).running.countP (fun r => f r.2) + (if f s then 1 else 0) =
      p.running.countP (fun r => f r.2) + if f t then 1 else 0 := by
  obtain ⟨before, after, eq, others⟩ := running_split once found
  obtain ⟨early, late⟩ := List.forall_mem_append.mp others
  have kept {rs : List (Nat × σ)} (others : ∀ r ∈ rs, r.1 ≠ i) :
      rs.map (fun r => if r.1 = i then (i, t) else r) = rs := by
    refine (List.map_congr_left fun r mem => ?_).trans (List.map_id rs)
    exact if_neg (others r mem)
  have updated : (p.update i t).running = before ++ (i, t) :: after := by
    rw [update, eq, List.map_append, List.map_cons, kept early, kept late, if_pos rfl]
  rw [updated, eq, List.countP_append, List.countP_append, List.countP_cons, List.countP_cons]
  dsimp only
  omega

theorem countP_complete (once : (p.running.map Prod.fst).Nodup) (found : p.find? i = some s)
    (result : τ) (f : σ → Bool) :
    (p.complete i result).running.countP (fun r => f r.2) + (if f s then 1 else 0) =
      p.running.countP fun r => f r.2 := by
  obtain ⟨before, after, eq, others⟩ := running_split once found
  obtain ⟨early, late⟩ := List.forall_mem_append.mp others
  have kept {rs : List (Nat × σ)} (others : ∀ r ∈ rs, r.1 ≠ i) :
      rs.filter (fun r => r.1 ≠ i) = rs :=
    List.filter_eq_self.mpr fun r mem => decide_eq_true (others r mem)
  have completed : (p.complete i result).running = before ++ after := by
    rw [complete, eq, List.filter_append, List.filter_cons_of_neg (by simp), kept early, kept late]
  rw [completed, eq, List.countP_append, List.countP_append, List.countP_cons]
  dsimp only
  omega

end Pool

/-! ## Calls sent and not answered -/

def Choice.isAnswer : Choice → Bool
  | .answer _ _ _ => true
  | _ => false

def Trace.unanswered (trace : Trace) : Nat := trace.sent.length - trace.exchanges.length

def Trace.busiest : Trace → Nat
  | [] => 0
  | change :: earlier => max (busiest earlier) (unanswered (change :: earlier))

theorem Trace.unanswered_busiest (trace : Trace) : trace.unanswered ≤ trace.busiest := by
  cases trace with
  | nil => exact Nat.le_refl 0
  | cons change earlier => exact Nat.le_max_right _ _

def Task.isAwaiting (task : Task τ) : Bool := task.phase = .awaiting

def Pool.awaiting (p : Pool α (Task σ) τ) : Nat := p.running.countP fun r => r.2.isAwaiting

namespace Pool

variable {p : Pool α (Task σ) τ} {i : Nat} {task other : Task σ}

theorem awaiting_pause (once : (p.running.map Prod.fst).Nodup) (found : p.find? i = some task)
    (awaits : task.phase = .awaiting) (pauses : other.phase = .pausing) :
    (p.update i other).awaiting + 1 = p.awaiting := by
  simpa [Pool.awaiting, Task.isAwaiting, awaits, pauses] using
    countP_update once found other Task.isAwaiting

theorem awaiting_wake (once : (p.running.map Prod.fst).Nodup) (found : p.find? i = some task)
    (pauses : task.phase = .pausing) (awaits : other.phase = .awaiting) :
    (p.update i other).awaiting = p.awaiting + 1 := by
  simpa [Pool.awaiting, Task.isAwaiting, awaits, pauses] using
    countP_update once found other Task.isAwaiting

theorem awaiting_complete (once : (p.running.map Prod.fst).Nodup) (found : p.find? i = some task)
    (awaits : task.phase = .awaiting) (result : τ) :
    (p.complete i result).awaiting + 1 = p.awaiting := by
  simpa [Pool.awaiting, Task.isAwaiting, awaits] using
    countP_complete once found result Task.isAwaiting

end Pool

namespace Round

variable {r : Round τ} {s t : Progress τ} {trace : Trace} {pool : Pool (Request τ) (Task τ) τ}

theorem running_bounded (run : r.Runs (.active pool) trace) :
    (pool.running.map Prod.fst).Nodup ∧ pool.running.length ≤ max 1 r.limit := by
  obtain ⟨moves, bareRun, -⟩ := runs_bare run
  have tracks : Tracks r.limit r.requests moves (pool.mapStates Task.request) := runs_follow bareRun
  have once := tracks.inFlight_nodup
  have room := tracks.room
  rw [← tracks.running] at once room
  constructor
  · simpa [Pool.mapStates, Function.comp_def] using once
  · simpa [Pool.mapStates] using room

theorem awaiting_le (run : r.Runs (.active pool) trace) : pool.awaiting ≤ max 1 r.limit :=
  Nat.le_trans List.countP_le_length (running_bounded run).2

def Awaits (s : Progress τ) (trace : Trace) : Prop :=
  ∀ pool, s = .active pool → trace.sent.length = trace.exchanges.length + pool.awaiting

theorem runs_awaits (run : r.Runs s trace) : Awaits s trace := by
  induction run with
  | opened =>
    rintro pool ⟨⟩
    rfl
  | @next s t c effects trace run next ih =>
    intro after now
    cases next?_change next with
    | @started pool _ place task start =>
      cases now
      have before := ih pool rfl
      obtain ⟨request, rest, waits, room, rfl, rfl⟩ := Pool.start?_eq_some.mp start
      have count : Pool.awaiting { pool with
          waiting := rest, running := pool.running ++ [(place, launch request)] } =
          pool.awaiting + 1 := List.countP_append
      rw [count, Trace.sent_sent, List.length_append, before]
      rfl
    | @paused pool place task outcome instant wait found again =>
      cases now
      have before := ih pool rfl
      have count := Pool.awaiting_pause (running_bounded run).1 found (answer_phase next found)
        (rfl : Task.phase { task with failures := task.failures + 1, phase := .pausing } = .pausing)
      rw [Trace.sent_paused, exchanges_answer run found, List.length_append, before, ← count,
        List.length_singleton]
      omega
    | @settled pool place task outcome instant result notes found ended settle =>
      cases now
      have before := ih pool rfl
      have count := Pool.awaiting_complete (running_bounded run).1 found (answer_phase next found)
        result
      rw [Trace.sent_completed, exchanges_answer run found, List.length_append, before, ← count,
        List.length_singleton]
      omega
    | failed found ended settle => cases now
    | @woken pool place task found =>
      cases now
      have before := ih pool rfl
      have count := Pool.awaiting_wake (running_bounded run).1 found (wake_phase next found)
        (rfl : Task.phase { task with phase := .awaiting } = .awaiting)
      rw [Trace.sent_sent, List.length_append, before, count]
      rfl

theorem awaiting_pos {place : Nat} {task : Task τ} (found : pool.find? place = some task)
    (awaits : task.phase = .awaiting) : 0 < pool.awaiting :=
  List.countP_pos_iff.mpr ⟨_, Pool.mem_of_find? found, decide_eq_true awaits⟩

theorem runs_unanswered (run : r.Runs (.active pool) trace) :
    trace.unanswered = pool.awaiting := by
  rw [Trace.unanswered, runs_awaits run pool rfl, Nat.add_sub_cancel_left]

/-- What a choice is for the transport: one call arrives, or one that has arrived is answered. -/
inductive Beat (c : Choice) (effects : List Effect) (earlier : Trace) : Prop where
  | arrives {place : Nat} {call : Call} :
      c.isAnswer = false → effects = [.sent place call] →
      Trace.unanswered ((c, effects) :: earlier) = earlier.unanswered + 1 → Beat c effects earlier
  | leaves :
      c.isAnswer = true → effects.filterMap Effect.sent? = [] →
      Trace.unanswered ((c, effects) :: earlier) + 1 = earlier.unanswered → Beat c effects earlier

theorem arrives_beat {c : Choice} (run : r.Runs (.active pool) trace)
    (other : c.isAnswer = false) (place : Nat) (call : Call) :
    Beat c [.sent place call] trace := by
  refine .arrives other rfl ?_
  have count := runs_awaits run pool rfl
  have same : Trace.exchanges ((c, [.sent place call]) :: trace) = trace.exchanges := by
    cases c with
    | start => rfl
    | wake _ => rfl
    | answer place outcome now => cases other
  rw [Trace.unanswered, Trace.unanswered, same, Trace.sent_sent, List.length_append,
    List.length_singleton]
  omega

theorem leaves_beat {place : Nat} {task : Task τ} (run : r.Runs (.active pool) trace)
    (found : pool.find? place = some task) (awaits : task.phase = .awaiting) (outcome : Outcome)
    (now : Instant) {effects : List Effect} (unsent : effects.filterMap Effect.sent? = []) :
    Beat (.answer place outcome now) effects trace := by
  refine .leaves rfl unsent ?_
  have count := runs_awaits run pool rfl
  have some := awaiting_pos found awaits
  rw [Trace.unanswered, Trace.unanswered, exchanges_answer run found, Trace.sent, unsent,
    List.append_nil, List.length_append, List.length_singleton]
  omega

theorem next_beat {c : Choice} {effects : List Effect} (run : r.Runs s trace)
    (next : next? r.policy s c = some (t, effects)) : Beat c effects trace := by
  cases next?_change next with
  | started start => exact arrives_beat run rfl _ _
  | paused found again => exact leaves_beat run found (answer_phase next found) _ _ (sent_notes _ _)
  | settled found ended settle =>
    exact leaves_beat run found (answer_phase next found) _ _ (sent_notes _ _)
  | failed found ended settle =>
    exact leaves_beat run found (answer_phase next found) _ _ (sent_notes _ _)
  | woken found => exact arrives_beat run rfl _ _

/-! ## How many calls are unanswered -/

theorem failed_unanswered {e : ClientError} (run : r.Runs (.failed e) trace) :
    trace.unanswered < max 1 r.limit := by
  cases run with
  | next earlier next =>
    have beat := next_beat earlier next
    cases next?_change next with
    | failed found ended settle =>
      cases beat with
      | arrives other _ _ => cases other
      | leaves _ _ count =>
        have bound := awaiting_le earlier
        rw [← runs_unanswered earlier] at bound
        omega

theorem unanswered_le (run : r.Runs s trace) : trace.unanswered ≤ max 1 r.limit := by
  cases s with
  | active pool => exact runs_unanswered run ▸ awaiting_le run
  | failed e => exact Nat.le_of_lt (failed_unanswered run)

theorem ends_ok_unanswered {results : List τ} (ends : r.Ends trace (.ok results)) :
    trace.unanswered = 0 := by
  obtain ⟨s, run, ended⟩ := ends
  cases s with
  | failed e => cases ended
  | active pool =>
    simp only [State.ending?] at ended
    split at ended
    · rename_i finished
      have idle : pool.running = [] := by
        simp only [Pool.isFinished, Bool.and_eq_true, List.isEmpty_iff] at finished
        exact finished.2
      rw [runs_unanswered run, Pool.awaiting, idle, List.countP_nil]
    · cases ended

theorem ends_error_unanswered {e : ClientError} (ends : r.Ends trace (.error e)) :
    trace.unanswered < max 1 r.limit := by
  obtain ⟨s, run, ended⟩ := ends
  cases s with
  | failed f => exact failed_unanswered run
  | active pool =>
    simp only [State.ending?] at ended
    split at ended <;> cases ended

theorem busiest_le (run : r.Runs s trace) : trace.busiest ≤ max 1 r.limit := by
  induction run with
  | opened => exact Nat.zero_le _
  | next run next ih => exact Nat.max_le.mpr ⟨ih, unanswered_le (run.next next)⟩

end Round

end Rebac.Dispatch
