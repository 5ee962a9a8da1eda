import Rebac.Proofs.Dispatch.Waits
import Rebac.Proofs.Time.Duration
import Mathlib.Algebra.Order.BigOperators.Group.List

set_option autoImplicit false

/-! # The retry loop -/

namespace Rebac

open Dispatch

namespace Retry.Policy

variable {p : Policy} {now : Nat → Instant} {outcomes : Nat → Outcome} {attempt k : Nat}

/-! ## One attempt -/

theorem react_passing {t : Instant} {outcome : Outcome} (passes : Passes outcome)
    (left : attempt < p.maxRetries) :
    p.react attempt t outcome = .again (p.delayFor attempt outcome.hint? t) := by
  obtain ⟨e, rfl, passing⟩ := passes
  rw [react, if_pos ⟨e.retryable_iff.mpr passing, left⟩]
  rfl

theorem react_deciding {t : Instant} {outcome : Outcome}
    (decides : attempt < p.maxRetries → ¬ Passes outcome) :
    p.react attempt t outcome = .final outcome := by
  cases outcome with
  | ok response => rfl
  | error e =>
    rw [react, if_neg]
    rintro ⟨retryable, left⟩
    exact decides left ⟨e, rfl, e.retryable_iff.mp retryable⟩

theorem delayFor_le (p : Policy) (attempt : Nat) (hint : Option String) (t : Instant) :
    p.delayFor attempt hint t ≤ p.maxWait := by
  unfold delayFor
  split
  · exact Duration.min_le_right _ _
  · exact Duration.min_le_right _ _

/-! ## The attempt that decides -/

/-- The attempt `k` decides: those before it met failures that pass, and it is the first that did
not, or the last that is allowed. -/
structure Decided (p : Policy) (outcomes : Nat → Outcome) (k : Nat) : Prop where
  within : k ≤ p.maxRetries
  before : ∀ i < k, Passes (outcomes i)
  decides : k < p.maxRetries → ¬ Passes (outcomes k)

theorem decided_exists (p : Policy) (outcomes : Nat → Outcome) : ∃ k, p.Decided outcomes k := by
  classical
  have some : ∃ k, k = p.maxRetries ∨ ¬ Passes (outcomes k) := ⟨_, .inl rfl⟩
  refine ⟨Nat.find some, Nat.find_min' some (.inl rfl), fun i lt => ?_, fun lt => ?_⟩
  · exact Classical.not_not.mp (not_or.mp (Nat.find_min some lt)).2
  · exact (Nat.find_spec some).resolve_left (Nat.ne_of_lt lt)

theorem Decided.unique (decided : p.Decided outcomes k) {j : Nat}
    (also : p.Decided outcomes j) : j = k := by
  rcases Nat.lt_trichotomy j k with lt | eq | lt
  · exact absurd (decided.before j lt) (also.decides (Nat.lt_of_lt_of_le lt decided.within))
  · exact eq
  · exact absurd (also.before k lt) (decided.decides (Nat.lt_of_lt_of_le lt also.within))

def waitAfter (p : Policy) (now : Nat → Instant) (outcomes : Nat → Outcome) (i : Nat) : Duration :=
  p.delayFor i (outcomes i).hint? (now i)

theorem runFrom_decided (now : Nat → Instant) (decided : p.Decided outcomes k) {left : Nat}
    (le : attempt ≤ k) (counted : attempt + left = p.maxRetries) :
    p.runFrom now outcomes left attempt = ⟨outcomes k,
      (List.range' attempt (k - attempt)).map (p.waitAfter now outcomes),
      (List.range' attempt (k - attempt + 1)).flatMap fun i => p.notes i (now i) (outcomes i)⟩ := by
  induction left generalizing attempt with
  | zero =>
    have last : k = attempt := by
      have := decided.within
      omega
    subst last
    simp [runFrom, List.range'_succ]
  | succ left ih =>
    by_cases here : attempt = k
    · subst here
      have final := react_deciding (t := now attempt) decided.decides
      simp [runFrom, final, List.range'_succ]
    · have lt : attempt < k := Nat.lt_of_le_of_ne le here
      have more : k - attempt = k - (attempt + 1) + 1 := by omega
      have again := react_passing (p := p) (t := now attempt) (decided.before attempt lt)
        (Nat.lt_of_lt_of_le lt decided.within)
      have rest := ih lt (by omega)
      rw [runFrom, again, rest, more]
      simp [List.range'_succ, waitAfter]

theorem run_decided (now : Nat → Instant) (decided : p.Decided outcomes k) :
    p.run now outcomes = ⟨outcomes k,
    (List.range k).map (p.waitAfter now outcomes),
    (List.range (k + 1)).flatMap fun i => p.notes i (now i) (outcomes i)⟩ := by
  have whole := runFrom_decided now decided (Nat.zero_le k) (Nat.zero_add _)
  rw [run, whole, List.range_eq_range', List.range_eq_range']
  rfl

theorem waits_sum (decided : p.Decided outcomes k) :
    (((List.range k).map (p.waitAfter now outcomes)).map Duration.nanos).sum ≤
      p.maxRetries * p.maxWait.nanos := by
  have each : ∀ n ∈ ((List.range k).map (p.waitAfter now outcomes)).map Duration.nanos,
      n ≤ p.maxWait.nanos := by
    intro n mem
    obtain ⟨wait, there, rfl⟩ := List.mem_map.mp mem
    obtain ⟨i, -, rfl⟩ := List.mem_map.mp there
    exact delayFor_le p i _ _
  have sum := List.sum_le_card_nsmul _ _ each
  rw [List.length_map, List.length_map, List.length_range, Nat.nsmul_eq_mul] at sum
  exact sum.trans (Nat.mul_le_mul_right _ decided.within)

end Retry.Policy

/-! ## Requests of rounds -/

namespace Dispatch

/-- A place hears these outcomes at these instants, as far as it has been answered. -/
def Trace.Hears (trace : Trace) (place : Nat) (now : Nat → Instant) (outcomes : Nat → Outcome) :
    Prop :=
  ∀ i x, (trace.replies place)[i]? = some x → x = (outcomes i, now i)

namespace Round

variable {τ : Type} {r : Round τ} {s : Progress τ} {trace : Trace} {place k : Nat}
  {now : Nat → Instant} {outcomes : Nat → Outcome}

theorem heard_answer (run : r.Runs s trace) (hears : trace.Hears place now outcomes) {i : Nat}
    {outcome : Outcome} (answered : (trace.answers place)[i]? = some outcome) :
    outcome = outcomes i := by
  rw [← replies_answers run place, List.getElem?_map, Option.map_eq_some_iff] at answered
  obtain ⟨x, got, rfl⟩ := answered
  rw [hears i x got]

theorem attempts_le (run : r.Runs s trace) (hears : trace.Hears place now outcomes)
    (decided : r.policy.Decided outcomes k) : (trace.attempts place).length ≤ k + 1 := by
  have repeated := runs_repeated run place
  have bounded := repeated.bounded
  apply Nat.le_of_not_lt
  intro more
  obtain ⟨outcome, answered, passes⟩ := repeated.passed k more
  rw [heard_answer run hears answered] at passes
  exact decided.decides (by omega) passes

theorem final_decided (run : r.Runs s trace) (hears : trace.Hears place now outcomes)
    {outcome : Outcome} (final : trace.final? place = some outcome) :
    ∃ k, r.policy.Decided outcomes k ∧ outcome = outcomes k ∧
      (trace.attempts place).length = k + 1 ∧ (trace.answers place).length = k + 1 := by
  obtain ⟨q, here, -⟩ := finals_launched run ((final?_eq_some run).mp final)
  obtain ⟨progress, log, -⟩ := runs_logged run here
  rw [final] at log
  have heard {i : Nat} {o : Outcome} (answered : (trace.answers place)[i]? = some o) :
      o = outcomes i := heard_answer run hears answered
  generalize trace.attempts place = attempts at log
  generalize trace.answers place = answers at log heard
  cases log with
  | @closed failures _ passed bound last =>
    have decides : outcome = outcomes failures.length := heard (by simp)
    refine ⟨failures.length, ⟨bound, fun i lt => ?_, fun lt passes => ?_⟩, decides, by simp,
      by simp⟩
    · rw [← heard (List.getElem?_append_left lt ▸ List.getElem?_eq_getElem lt)]
      exact passed _ (List.getElem_mem lt)
    · rw [← decides] at passes
      exact Nat.ne_of_lt lt (last passes)

theorem final_waits (run : r.Runs s trace) (hears : trace.Hears place now outcomes)
    {outcome : Outcome} (final : trace.final? place = some outcome)
    (answered : (trace.answers place).length = k + 1) :
    trace.waitsAt place = (List.range k).map (r.policy.waitAfter now outcomes) := by
  obtain ⟨wait, balance⟩ := runs_waited run place
  have heard := congrArg List.length (replies_answers run place)
  rw [List.length_map, answered] at heard
  rw [final, heard] at balance
  have size : (trace.waitsAt place).length = k := Nat.succ.inj balance
  apply List.ext_getElem
  · rw [size, List.length_map, List.length_range]
  · intro i lt _
    obtain ⟨o, t, got, eq⟩ := wait i _ (List.getElem?_eq_getElem lt)
    obtain ⟨rfl, rfl⟩ := Prod.mk.inj (hears i _ got)
    rw [eq, List.getElem_map, List.getElem_range]
    rfl

end Round

end Dispatch

/-! ## The whole loop -/

namespace Retry.Policy

/-- The loop comes to its end with the attempt `k`. -/
structure Concludes (p : Policy) (now : Nat → Instant) (outcomes : Nat → Outcome) (k : Nat) : Prop
    extends Decided p outcomes k where
  outcome : (p.run now outcomes).outcome = outcomes k
  waits : (p.run now outcomes).waits = (List.range k).map (p.waitAfter now outcomes)
  capped : ∀ wait ∈ (p.run now outcomes).waits, wait ≤ p.maxWait
  total : ((p.run now outcomes).waits.map Duration.nanos).sum ≤ p.maxRetries * p.maxWait.nanos
  sent : ∀ {τ : Type} (r : Round τ) s trace place, r.policy = p → r.Runs s trace →
    trace.Hears place now outcomes → (trace.attempts place).length ≤ k + 1
  final : ∀ {τ : Type} (r : Round τ) s trace place o, r.policy = p → r.Runs s trace →
    trace.Hears place now outcomes → trace.final? place = some o → o = outcomes k ∧
      (trace.attempts place).length = k + 1 ∧ trace.waitsAt place = (p.run now outcomes).waits

/-- Whatever outcomes come at whatever instants, there is one attempt that decides, and the loop ends
with its outcome, after a wait for each attempt before it and no attempt after it. -/
theorem first_decisive_outcome (p : Policy) (now : Nat → Instant) (outcomes : Nat → Outcome) :
    ∃ k, p.Concludes now outcomes k ∧ ∀ j, p.Decided outcomes j → j = k := by
  obtain ⟨k, decided⟩ := decided_exists p outcomes
  have whole := run_decided now decided
  refine ⟨k, ⟨decided, by rw [whole], by rw [whole], ?_, ?_, ?_, ?_⟩, fun j => decided.unique⟩
  · intro wait mem
    rw [whole] at mem
    obtain ⟨i, -, rfl⟩ := List.mem_map.mp mem
    exact delayFor_le p i _ _
  · rw [whole]
    exact waits_sum decided
  · rintro τ r s trace place rfl run hears
    exact Round.attempts_le run hears decided
  · rintro τ r s trace place o rfl run hears final
    obtain ⟨j, also, rfl, attempts, answers⟩ := Round.final_decided run hears final
    cases decided.unique also
    exact ⟨rfl, attempts, by rw [whole, Round.final_waits run hears final answers]⟩

def downAtFirst : Nat → Outcome
  | 0 => .error (.http 503 (some "2") none)
  | _ => .ok ⟨200, .null⟩

def lone : Round Unit := ⟨standard, 1, [⟨⟨"", [], .null, none⟩, fun _ => .ok (), fun _ => []⟩]⟩

/-- A request that waits as it was told is sent once more, and ends there. -/
theorem told_wait_concludes : ∃ k, standard.Concludes (fun _ => ⟨0, 0⟩) downAtFirst k ∧
    ∃ s trace, lone.Runs s trace ∧ trace.final? 0 = some (downAtFirst k) ∧
      (trace.attempts 0).length = k + 1 ∧ trace.waitsAt 0 = [.ofSeconds 2] := by
  obtain ⟨k, concludes, -⟩ := first_decisive_outcome standard (fun _ => ⟨0, 0⟩) downAtFirst
  have run : ∃ s trace, lone.Runs s trace ∧ trace.final? 0 = some (downAtFirst 1) ∧
      trace.replies 0 = [(downAtFirst 0, ⟨0, 0⟩), (downAtFirst 1, ⟨0, 0⟩)] ∧
      trace.waitsAt 0 = [.ofSeconds 2] :=
    ⟨_, _, .next (.next (.next (.next .opened (c := .start) rfl)
      (c := .answer 0 (downAtFirst 0) ⟨0, 0⟩) rfl) (c := .wake 0) rfl)
      (c := .answer 0 (downAtFirst 1) ⟨0, 0⟩) rfl, rfl, rfl, by decide +kernel⟩
  obtain ⟨s, trace, run, final, replies, waits⟩ := run
  have hears : trace.Hears 0 (fun _ => ⟨0, 0⟩) downAtFirst := by
    intro i x got
    rw [replies] at got
    match i with
    | 0 => exact (Option.some.inj got).symm
    | 1 => exact (Option.some.inj got).symm
    | i + 2 => cases got
  obtain ⟨same, attempts, -⟩ := concludes.final lone s trace 0 _ rfl run hears final
  exact ⟨k, concludes, s, trace, run, same ▸ final, attempts, waits⟩

end Retry.Policy

end Rebac
