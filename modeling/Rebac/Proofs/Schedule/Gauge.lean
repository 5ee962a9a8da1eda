import Rebac.Proofs.Schedule.VirtualClock
import Rebac.Proofs.Transport.Gauge

set_option autoImplicit false

/-! # Counters on the virtual clock -/

namespace Rebac.Schedule

open Dispatch Transport

variable {τ α : Type}

/-! ## Answers on the agenda -/

def Turn.answers? : Turn → Option Nat
  | .answer place _ _ => some place
  | _ => none

def Agenda.turns (a : Agenda) : List Turn := a.ready ++ (a.yielded ++ a.timers.map Prod.snd)

def Agenda.answers (a : Agenda) : List Nat := a.turns.filterMap Turn.answers?

theorem Agenda.next?_perm {a rest : Agenda} {clock later : Nat} {turn : Turn}
    (popped : a.next? clock = some (turn, later, rest)) : a.turns.Perm (turn :: rest.turns) := by
  obtain ⟨ready, yielded, timers⟩ := a
  unfold next? at popped
  split at popped
  · rename_i first others has
    cases popped
    cases has
    exact .refl _
  · rename_i empty
    cases empty
    split at popped
    · rename_i first others has
      cases popped
      cases has
      exact .refl _
    · rename_i empty
      cases empty
      split at popped
      · cases popped
      · rename_i due least
        split at popped
        · cases popped
        · rename_i first others now
          cases popped
          have parts := (List.filter_append_perm (fun t => decide (t.1 = later)) timers).symm
          have moved := parts.map Prod.snd
          rw [List.map_append, now] at moved
          simpa [turns] using moved

theorem Agenda.next?_answers {a rest : Agenda} {clock later : Nat} {turn : Turn}
    (popped : a.next? clock = some (turn, later, rest)) :
    a.answers.Perm (turn.answers?.toList ++ rest.answers) := by
  refine ((next?_perm popped).filterMap Turn.answers?).trans ?_
  rw [List.filterMap_cons]
  cases turn.answers? <;> exact .refl _

theorem apply_answers (wa : World × Agenda) (effect : Effect) :
    (apply wa effect).2.answers.Perm ((effect.sent?.map Prod.fst).toList ++ wa.2.answers) := by
  obtain ⟨w, a⟩ := wa
  refine List.perm_iff_count.mpr fun place => ?_
  cases effect with
  | sent other call =>
    by_cases instant : w.latency = 0 <;>
      simp [apply, instant, Agenda.answers, Agenda.turns, Turn.answers?, Effect.sent?,
        List.count_cons] <;> omega
  | paused other wait =>
    by_cases instant : ticks wait = 0 <;>
      simp [apply, instant, Agenda.answers, Agenda.turns, List.filterMap_cons, Turn.answers?,
        Effect.sent?]
  | completed other outcome =>
    simp [apply, Agenda.answers, Agenda.turns, List.filterMap_cons, Turn.answers?, Effect.sent?]
  | noted event => rfl

theorem applyAll_answers (effects : List Effect) (wa : World × Agenda) :
    (effects.foldl apply wa).2.answers.Perm
      ((effects.filterMap Effect.sent?).map Prod.fst ++ wa.2.answers) := by
  induction effects generalizing wa with
  | nil => exact .refl _
  | cons effect later ih =>
    rw [List.foldl_cons, List.filterMap_cons]
    refine (ih _).trans (((apply_answers wa effect).append_left _).trans ?_)
    cases effect.sent? with
    | none => exact .refl _
    | some sent => exact List.perm_middle

structure Expects (places : List Nat) (pool : Pool (Request τ) (Dispatch.Task τ) τ) : Prop where
  once : places.Nodup
  awaited : ∀ place ∈ places, ∃ task, pool.find? place = some task ∧ task.phase = .awaiting

namespace Expects

variable {places : List Nat} {place : Nat} {pool pool' : Pool (Request τ) (Dispatch.Task τ) τ}
  {task : Dispatch.Task τ}

theorem perm {others : List Nat} (expects : Expects places pool) (same : places.Perm others) :
    Expects others pool :=
  ⟨same.nodup_iff.mp expects.once, fun place mem => expects.awaited place (same.mem_iff.mpr mem)⟩

theorem send (expects : Expects places pool) (fresh : place ∉ places)
    (here : pool'.find? place = some task) (awaits : task.phase = .awaiting)
    (others : ∀ other, other ≠ place → pool'.find? other = pool.find? other) :
    Expects (place :: places) pool' := by
  refine ⟨List.nodup_cons.mpr ⟨fresh, expects.once⟩,
    List.forall_mem_cons.mpr ⟨⟨task, here, awaits⟩, fun other mem => ?_⟩⟩
  rw [others other fun same => fresh (same ▸ mem)]
  exact expects.awaited other mem

theorem take (expects : Expects (place :: places) pool)
    (others : ∀ other, other ≠ place → pool'.find? other = pool.find? other) :
    Expects places pool' := by
  obtain ⟨fresh, once⟩ := List.nodup_cons.mp expects.once
  refine ⟨once, fun other mem => ?_⟩
  rw [others other fun same => fresh (same ▸ mem)]
  exact expects.awaited other (List.mem_cons_of_mem place mem)

theorem start {r : Round τ} {trace : Trace} (expects : Expects places pool)
    (run : r.Runs (.active pool) trace)
    (started : pool.start? Round.launch = some (place, task, pool')) :
    Expects (place :: places) pool' := by
  obtain ⟨-, launched, absent, -⟩ := Round.start_fresh run started
  have now := Pool.find?_start started absent
  refine expects.send (fun mem => ?_) ((now place).trans (if_pos rfl))
    (congrArg Dispatch.Task.phase launched) fun other differs => (now other).trans (if_neg differs)
  obtain ⟨task, found, -⟩ := expects.awaited place mem
  cases absent.symm.trans found

theorem wake (expects : Expects places pool) (found : pool.find? place = some task)
    (pauses : task.phase = .pausing) :
    Expects (place :: places) (pool.update place { task with phase := .awaiting }) := by
  have now := pool.find?_update place place { task with phase := .awaiting }
  rw [if_pos rfl, found] at now
  refine expects.send (fun mem => ?_) now rfl fun other differs =>
    (Pool.find?_update _ _ _ _).trans (if_neg differs)
  obtain ⟨task, awaited, awaits⟩ := expects.awaited place mem
  cases found.symm.trans awaited
  cases pauses.symm.trans awaits

end Expects

/-- The agenda holds the answer to each call that awaits one. -/
def Foresees (a : Agenda) (s : Progress τ) : Prop :=
  ∀ pool, s = .active pool → Expects a.answers pool

theorem begins_foresees (r : Round τ) : Foresees (begins r) r.opening := by
  rintro pool -
  have none : (begins r).answers = [] := by
    simp [begins, Agenda.answers, Agenda.turns, List.filterMap_replicate, Turn.answers?]
  rw [none]
  exact ⟨List.nodup_nil, by simp⟩

theorem turn_open {policy : Retry.Policy} {w : World} {a rest : Agenda} {clock : Nat}
    {pool : Pool (Request τ) (Dispatch.Task τ) τ} {turn : Turn}
    (foresees : Foresees a (.active pool))
    (popped : a.next? w.clock = some (turn, clock, rest))
    (closed : Round.next? policy (.active pool) (choose { w with clock } turn).1 = none) :
    turn.answers? = none := by
  cases turn with
  | start => rfl
  | wake place => rfl
  | answer place call number =>
    have expects := (foresees pool rfl).perm (Agenda.next?_answers popped)
    obtain ⟨task, found, awaits⟩ := expects.awaited place List.mem_cons_self
    cases closed.symm.trans (Round.next?_answer found awaits _ _)

theorem turned_foresees {r : Round τ} {s t : Progress τ} {trace : Trace} {w : World}
    {a rest : Agenda} {clock : Nat} {turn : Turn} {effects : List Effect} (run : r.Runs s trace)
    (foresees : Foresees a s) (popped : a.next? w.clock = some (turn, clock, rest))
    (next : Round.next? r.policy s (choose { w with clock } turn).1 = some (t, effects))
    (w' : World) : Foresees (effects.foldl apply (w', rest)).2 t := by
  rintro after rfl
  cases s with
  | failed e => cases next
  | active pool =>
    have expects := (foresees pool rfl).perm (Agenda.next?_answers popped)
    refine Expects.perm ?_ (applyAll_answers effects (w', rest)).symm
    cases turn with
    | start =>
      cases Round.next?_change next with
      | started start => exact expects.start run start
    | wake place =>
      cases Round.next?_change next with
      | woken found => exact expects.wake found (Round.wake_phase next found)
    | answer place call number =>
      cases Round.next?_change next with
      | paused found again =>
        rw [sent_notes]
        exact expects.take fun other differs => (Pool.find?_update _ _ _ _).trans (if_neg differs)
      | settled found ended settle =>
        rw [sent_notes]
        exact expects.take fun other differs =>
          (Pool.find?_complete _ _ _ _).trans (if_neg differs)

theorem Comes.foresees {r : Round τ} {first w : World} {a : Agenda} {s : Progress τ}
    {trace : Trace} (comes : Comes r first (begins r) w a s trace) : Foresees a s := by
  induction comes with
  | opened => exact begins_foresees r
  | @idle w a rest s trace turn clock comes works popped closed ih =>
    rintro pool rfl
    have same := Agenda.next?_answers popped
    rw [turn_open ih popped closed] at same
    exact (ih pool rfl).perm same
  | turned comes works popped next ih => exact turned_foresees comes.runs ih popped next _

/-! ## Counters -/

theorem choose_counters (w : World) (turn : Turn) : (choose w turn).2.gauge.counters =
    (if (choose w turn).1.isAnswer then w.gauge.leave else w.gauge).counters := by
  cases turn with
  | start => rfl
  | wake place => rfl
  | answer place call number => exact w.script.answer_counters w.gauge call number

theorem choose_gauge {turn : Turn} (other : turn.answers? = none) (w : World) :
    (choose w turn).2.gauge = w.gauge := by
  cases turn with
  | start => rfl
  | wake place => rfl
  | answer place call number => cases other

theorem apply_gauge (wa : World × Agenda) (effect : Effect) : (apply wa effect).1.gauge =
    match effect.sent? with
    | some _ => wa.1.gauge.arrive.2
    | none => wa.1.gauge := by
  cases effect with
  | sent place call =>
    simp only [apply, Effect.sent?]
    split <;> rfl
  | paused place wait =>
    simp only [apply, Effect.sent?]
    split <;> rfl
  | completed place outcome => rfl
  | noted event => rfl

theorem applyAll_gauge (effects : List Effect) (wa : World × Agenda) :
    (effects.foldl apply wa).1.gauge =
      (effects.filterMap Effect.sent?).foldl (fun g _ => g.arrive.2) wa.1.gauge := by
  induction effects generalizing wa with
  | nil => rfl
  | cons effect later ih =>
    rw [List.foldl_cons, ih, apply_gauge, List.filterMap_cons]
    cases effect.sent? <;> rfl

/-- The transport counts what the choices of a round are for it. -/
theorem Comes.counters {r : Round τ} {first w : World} {a : Agenda} {s : Progress τ}
    {trace : Trace} (comes : Comes r first (begins r) w a s trace) :
    w.gauge.counters = (first.gauge.through trace).counters := by
  induction comes with
  | opened => rfl
  | @idle w a rest s trace turn clock comes works popped closed ih =>
    cases s with
    | failed e => cases works
    | active pool =>
      rw [choose_gauge (turn_open comes.foresees popped closed)]
      exact ih
  | @turned w a rest s t trace turn clock effects comes works popped next ih =>
    rw [applyAll_gauge, Gauge.through_cons, ← Gauge.see_congr ih]
    exact Gauge.arriveAll_congr _ (choose_counters { w with clock } turn)

theorem Plays.counters {w w' : World} {p : Program τ α} {traces : List Trace}
    {result : Except ClientError α} (plays : Plays w p traces result w') :
    w'.gauge.counters = (traces.foldl Gauge.through w.gauge).counters := by
  induction plays with
  | done => rfl
  | failed comes ends => exact comes.counters
  | finished comes ends later ih => exact ih.trans (Gauge.throughAll_congr comes.counters _)

end Rebac.Schedule
