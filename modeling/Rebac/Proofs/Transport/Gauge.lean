import Rebac.Proofs.Dispatch.Awaiting
import Rebac.Proofs.Dispatch.Contract
import Rebac.Transport.Script
import Mathlib.Algebra.GroupWithZero.Nat

set_option autoImplicit false

/-!
# Counters of a transport

A transport counts a call up when it arrives and down when it is answered. So it counts the calls
that await their answer, and with them all that were given up before, which are never answered: its
peak is the largest number of both together.
-/
namespace Rebac.Transport

open Dispatch

/-! ## What a choice does to the counters -/

namespace Gauge

def leave (g : Gauge) : Gauge := { g with waiting := g.waiting - 1 }

def see (g : Gauge) (change : Choice × List Effect) : Gauge :=
  (change.2.filterMap Effect.sent?).foldl (fun g _ => g.arrive.2)
    (if change.1.isAnswer then g.leave else g)

def through (g : Gauge) (trace : Trace) : Gauge := trace.foldr (fun change g => g.see change) g

theorem through_cons (g : Gauge) (change : Choice × List Effect) (earlier : Trace) :
    g.through (change :: earlier) = (g.through earlier).see change := rfl

theorem see_arrival (g : Gauge) {c : Choice} (other : c.isAnswer = false) (place : Nat)
    (call : Call) : g.see (c, [.sent place call]) = g.arrive.2 := by
  simp [see, other, Effect.sent?]

theorem see_answer (g : Gauge) {c : Choice} {effects : List Effect} (answers : c.isAnswer = true)
    (unsent : effects.filterMap Effect.sent? = []) : g.see (c, effects) = g.leave := by
  simp [see, answers, unsent]

/-- What is counted, whichever of the written answers have been used. -/
def counters (g : Gauge) : Nat × Nat × Nat := (g.arrived, g.waiting, g.peak)

theorem arrive_congr {g h : Gauge} (same : g.counters = h.counters) :
    g.arrive.2.counters = h.arrive.2.counters := by
  simp only [counters, Prod.mk.injEq] at same
  simp only [counters, arrive, same]

theorem leave_congr {g h : Gauge} (same : g.counters = h.counters) :
    g.leave.counters = h.leave.counters := by
  simp only [counters, Prod.mk.injEq] at same
  simp only [counters, leave, same]

theorem arriveAll_congr {β : Type} (calls : List β) {g h : Gauge} (same : g.counters = h.counters) :
    (calls.foldl (fun g _ => g.arrive.2) g).counters =
      (calls.foldl (fun g _ => g.arrive.2) h).counters := by
  induction calls generalizing g h with
  | nil => exact same
  | cons call later ih => exact ih (arrive_congr same)

theorem see_congr {g h : Gauge} (same : g.counters = h.counters) (change : Choice × List Effect) :
    (g.see change).counters = (h.see change).counters := by
  rw [see, see]
  refine arriveAll_congr _ ?_
  split
  · exact leave_congr same
  · exact same

theorem through_congr {g h : Gauge} (same : g.counters = h.counters) (trace : Trace) :
    (g.through trace).counters = (h.through trace).counters := by
  induction trace with
  | nil => exact same
  | cons change earlier ih => exact see_congr ih change

theorem throughAll_congr {g h : Gauge} (same : g.counters = h.counters) (traces : List Trace) :
    (traces.foldl through g).counters = (traces.foldl through h).counters := by
  induction traces generalizing g h with
  | nil => exact same
  | cons trace later ih => exact ih (through_congr same trace)

end Gauge

theorem Script.answer_counters (s : Script) (g : Gauge) (call : Call) (number : Nat) :
    (s.answer g call number).2.counters = g.leave.counters := by
  unfold answer
  split <;> rfl

/-! ## Rounds -/

/-- The counters `g'` come from `g` by calls that arrived, of which some are unanswered, and of
which so many were unanswered at once. -/
structure Counts (g : Gauge) (arrived unanswered busiest : Nat) (g' : Gauge) : Prop where
  arrived : g'.arrived = g.arrived + arrived
  waiting : g'.waiting = g.waiting + unanswered
  peak : g'.peak = max g.peak (g.waiting + busiest)

theorem through_counts {τ : Type} {r : Round τ} {s : Progress τ} {trace : Trace} {g : Gauge}
    (run : r.Runs s trace) (high : g.waiting ≤ g.peak) :
    Counts g trace.sent.length trace.unanswered trace.busiest (g.through trace) := by
  induction run with
  | opened => exact ⟨rfl, rfl, (Nat.max_eq_left high).symm⟩
  | @next s t c effects trace run next ih =>
    obtain ⟨arrived, waiting, peak⟩ := ih
    have most := trace.unanswered_busiest
    cases Round.next_beat run next with
    | @arrives place call other eq more =>
      subst eq
      rw [Gauge.through_cons, Gauge.see_arrival _ other]
      constructor
      · rw [Trace.sent_sent, List.length_append, ← Nat.add_assoc, ← arrived]
        rfl
      · rw [more, ← Nat.add_assoc, ← waiting]
        rfl
      · change max (g.through trace).peak ((g.through trace).waiting + 1) = _
        rw [peak, waiting, Trace.busiest, more]
        omega
    | leaves answers unsent fewer =>
      rw [Gauge.through_cons, Gauge.see_answer _ answers unsent]
      constructor
      · rw [Trace.sent, unsent, List.append_nil]
        exact arrived
      · change (g.through trace).waiting - 1 = _
        omega
      · change (g.through trace).peak = _
        rw [peak, Trace.busiest]
        omega

theorem Counts.high {g g' : Gauge} {arrived unanswered busiest : Nat}
    (counts : Counts g arrived unanswered busiest g') (most : unanswered ≤ busiest) :
    g'.waiting ≤ g'.peak := by
  obtain ⟨-, waiting, peak⟩ := counts
  omega

theorem Counts.trans {g g' h : Gauge} {arrived more unanswered left busiest later : Nat}
    (first : Counts g arrived left busiest g') (second : Counts g' more unanswered later h) :
    Counts g (arrived + more) (left + unanswered) (max busiest (left + later)) h := by
  obtain ⟨arrived, waiting, peak⟩ := first
  obtain ⟨arrived', waiting', peak'⟩ := second
  constructor <;> omega

/-! ## Programs -/

def sentIn (traces : List Trace) : Nat := (traces.map fun trace => trace.sent.length).sum

def unansweredIn (traces : List Trace) : Nat := (traces.map Trace.unanswered).sum

def busiestIn (traces : List Trace) : Nat := (traces.map Trace.busiest).foldr max 0

variable {τ α : Type} {p : Program τ α} {traces : List Trace}

theorem unansweredIn_cons (trace : Trace) (later : List Trace) :
    unansweredIn (trace :: later) = trace.unanswered + unansweredIn later := List.sum_cons

theorem runs_unanswered_busiest (run : p.Runs traces) : unansweredIn traces ≤ busiestIn traces := by
  induction run with
  | idle => exact Nat.le_refl 0
  | @within r next s trace run =>
    exact Nat.le_trans trace.unanswered_busiest (Nat.le_max_left _ _)
  | beyond ends later ih =>
    rw [unansweredIn_cons, Round.ends_ok_unanswered ends, Nat.zero_add]
    exact Nat.le_trans ih (Nat.le_max_right _ _)

theorem runs_counts (run : p.Runs traces) {g : Gauge} (high : g.waiting ≤ g.peak) :
    Counts g (sentIn traces) (unansweredIn traces) (busiestIn traces)
      (traces.foldl Gauge.through g) := by
  induction run generalizing g with
  | idle => exact ⟨rfl, rfl, (Nat.max_eq_left high).symm⟩
  | @within r next s trace run =>
    have counts := through_counts run high
    simpa [sentIn, unansweredIn, busiestIn] using counts
  | @beyond r next results trace traces ends later ih =>
    have none := Round.ends_ok_unanswered ends
    obtain ⟨s, run, -⟩ := ends
    have counts := through_counts run high
    have both := counts.trans (ih (counts.high trace.unanswered_busiest))
    rw [none, Nat.zero_add, Nat.zero_add] at both
    rw [unansweredIn_cons, none, Nat.zero_add]
    exact both

/-! ## Limits -/

variable {limit : Nat}

def Within (limit : Nat) (r : Round τ) : Prop := max 1 r.limit ≤ limit

theorem runs_busiest (every : p.EveryRound (Within limit)) (run : p.Runs traces) :
    busiestIn traces ≤ limit := by
  induction run with
  | idle => exact Nat.zero_le _
  | within run =>
    exact Nat.max_le.mpr ⟨Nat.le_trans (Round.busiest_le run) every.1, Nat.zero_le _⟩
  | beyond ends later ih =>
    obtain ⟨s, run, -⟩ := ends
    exact Nat.max_le.mpr ⟨Nat.le_trans (Round.busiest_le run) every.1, ih (every.2 _)⟩

theorem yields_ok_unanswered {a : α} (run : p.Yields traces (.ok a)) : unansweredIn traces = 0 := by
  generalize given : Except.ok a = result at run
  induction run with
  | done => rfl
  | failed ends => cases given
  | finished ends tail ih =>
    rw [unansweredIn_cons, Round.ends_ok_unanswered ends, Nat.zero_add]
    exact ih given

theorem yields_unanswered {result : Except ClientError α} (every : p.EveryRound (Within limit))
    (some : 0 < limit) (run : p.Yields traces result) : unansweredIn traces < limit := by
  induction run with
  | done => exact some
  | failed ends => exact Nat.lt_of_lt_of_le (Round.ends_error_unanswered ends) every.1
  | finished ends tail ih =>
    rw [unansweredIn_cons, Round.ends_ok_unanswered ends, Nat.zero_add]
    exact ih (every.2 _)

end Rebac.Transport
