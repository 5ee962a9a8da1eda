import Rebac.Proofs.Dispatch.Answers
import Rebac.Proofs.Dispatch.Attempts
import Rebac.Proofs.Dispatch.Program

set_option autoImplicit false

/-!
# Programs come to an end

A round that is not over has a choice that is open, and the retry policy bounds the number of
choices there can be. So under a transport that answers every call, every schedule of a round comes
to its end, and `Program.Returns` says what a program then comes to.
-/
namespace Rebac.Dispatch

variable {τ α : Type}

/-! ## No schedule is endless -/

theorem length_le_of_places {β : Type} {xs : List (Nat × β)} {n k : Nat}
    (inside : ∀ x ∈ xs, x.1 < n) (few : ∀ i, (xs.filter fun x => x.1 = i).length ≤ k) :
    xs.length ≤ n * k := by
  induction n generalizing xs with
  | zero =>
    cases xs with
    | nil => simp
    | cons x _ => exact absurd (inside x List.mem_cons_self) (Nat.not_lt_zero _)
  | succ n ih =>
    have below : ∀ x ∈ xs.filter (fun x => !decide (x.1 = n)), x.1 < n := by
      intro x mem
      obtain ⟨there, differs⟩ := List.mem_filter.mp mem
      have lt := inside x there
      have other : x.1 ≠ n := by simpa using differs
      omega
    have fewer (i : Nat) : ((xs.filter fun x => !decide (x.1 = n)).filter
        fun x => x.1 = i).length ≤ k :=
      Nat.le_trans (List.filter_sublist.filter _).length_le (few i)
    have rest := ih below fewer
    have last := few n
    have split := List.length_eq_length_filter_add (l := xs) fun x => x.1 = n
    rw [Nat.succ_mul]
    omega

namespace Round

variable {r : Round τ} {s : Progress τ} {trace : Trace} {answer : Call → Outcome}

theorem runs_length (run : r.Runs s trace) :
    trace.length = trace.sent.length + trace.exchanges.length := by
  induction run with
  | opened => rfl
  | next run next ih =>
    cases next?_change next with
    | started start =>
      rw [List.length_cons, ih, Trace.sent_sent, List.length_append]
      exact Nat.add_right_comm _ _ _
    | paused found again =>
      rw [List.length_cons, ih, Trace.sent_paused, exchanges_answer run found, List.length_append]
      rfl
    | settled found ended settle =>
      rw [List.length_cons, ih, Trace.sent_completed, exchanges_answer run found,
        List.length_append]
      rfl
    | failed found ended settle =>
      rw [List.length_cons, ih, Trace.sent_completed, exchanges_answer run found,
        List.length_append]
      rfl
    | woken found =>
      rw [List.length_cons, ih, Trace.sent_sent, List.length_append]
      exact Nat.add_right_comm _ _ _

/-- More choices than this a round cannot have: each request has as many attempts as the policy
allows, and an answer to each. -/
def mostChoices (r : Round τ) : Nat := r.requests.length * (2 * (r.policy.maxRetries + 1))

theorem place_inside (run : r.Runs s trace) {place : Nat}
    (some : trace.attempts place ≠ [] ∨ trace.answers place ≠ []) : place < r.requests.length := by
  apply Nat.lt_of_not_le
  intro beyond
  obtain ⟨unsent, unanswered⟩ := unsent_outside run (List.getElem?_eq_none beyond)
  rcases some with sent | answered
  · exact sent unsent
  · exact answered unanswered

theorem runs_bounded (run : r.Runs s trace) : trace.length ≤ r.mostChoices := by
  have sent : trace.sent.length ≤ r.requests.length * (r.policy.maxRetries + 1) := by
    apply length_le_of_places
    · rintro ⟨place, call⟩ mem
      refine place_inside run (.inl ?_)
      apply List.ne_nil_of_mem (a := call)
      exact List.mem_map.mpr ⟨(place, call), List.mem_filter.mpr ⟨mem, by simp⟩, rfl⟩
    · intro place
      have bounded := (runs_repeated run place).bounded
      rwa [Trace.attempts, List.length_map] at bounded
  have answered : trace.exchanges.length ≤ r.requests.length * (r.policy.maxRetries + 1) := by
    apply length_le_of_places
    · rintro ⟨place, call, outcome⟩ mem
      refine place_inside run (.inr ?_)
      apply List.ne_nil_of_mem (a := outcome)
      exact List.mem_map.mpr ⟨(place, call, outcome), List.mem_filter.mpr ⟨mem, by simp⟩, rfl⟩
    · intro place
      have repeated := runs_repeated run place
      have bounded := Nat.le_trans repeated.answered.1 repeated.bounded
      rwa [Trace.answers, List.length_map] at bounded
  have whole : r.mostChoices = r.requests.length * (r.policy.maxRetries + 1) +
      r.requests.length * (r.policy.maxRetries + 1) := by
    rw [mostChoices, Nat.two_mul, Nat.mul_add]
  rw [runs_length run, whole]
  exact Nat.add_le_add sent answered

/-! ## No schedule is stuck -/

theorem honest_nil : Trace.AnsweredBy answer [] := by
  intro e mem
  cases mem

theorem start_open {pool : Pool (Request τ) (Task τ) τ} (run : r.Runs (.active pool) trace)
    (idle : pool.running = []) (waits : pool.waiting ≠ []) :
    ∃ t effects, next? r.policy (.active pool) .start = some (t, effects) := by
  obtain ⟨moves, bareRun, -⟩ := runs_bare run
  have tracks : Tracks r.limit r.requests moves (pool.mapStates Task.request) := runs_follow bareRun
  have limit : pool.limit = max 1 r.limit := tracks.limit_eq
  cases left : pool.waiting with
  | nil => exact absurd left waits
  | cons first rest =>
    have room : pool.hasRoom = true := by
      simp only [Pool.hasRoom, idle, List.length_nil, limit, decide_eq_true_eq]
      omega
    have next : next? r.policy (.active pool) .start = some (.active { pool with
        waiting := rest, running := pool.running ++ [(first.1, launch first.2)] },
        [.sent first.1 first.2.call]) := by
      simp [next?, Pool.start?, left, room, launch]
    exact ⟨_, _, next⟩

theorem open_choice (answer : Call → Outcome) (run : r.Runs s trace)
    (honest : trace.AnsweredBy answer) (going : s.ending? = none) :
    ∃ c t effects, next? r.policy s c = some (t, effects) ∧
      Trace.AnsweredBy answer ((c, effects) :: trace) := by
  cases s with
  | failed e => cases going
  | active pool =>
    cases busy : pool.running with
    | nil =>
      have waits : pool.waiting ≠ [] := by
        intro none
        simp [State.ending?, Pool.isFinished, busy, none] at going
      obtain ⟨t, effects, next⟩ := start_open run busy waits
      exact ⟨_, t, effects, next, honest⟩
    | cons first rest =>
      obtain ⟨place, other⟩ := first
      obtain ⟨task, found⟩ := Pool.find?_isSome (p := pool) (busy ▸ List.mem_cons_self)
      cases phase : task.phase with
      | awaiting =>
        refine ⟨_, _, _, next?_answer found phase (answer task.request.call) ⟨0, 0⟩, ?_⟩
        intro e mem
        rw [exchanges_answer run found] at mem
        rcases List.mem_append.mp mem with old | new
        · exact honest e old
        · rw [List.mem_singleton.mp new]
      | pausing => exact ⟨_, _, _, next?_wake found phase, honest⟩

theorem completes (answer : Call → Outcome) (run : r.Runs s trace)
    (honest : trace.AnsweredBy answer) :
    ∃ whole ending, r.Ends whole ending ∧ whole.AnsweredBy answer ∧ trace <:+ whole := by
  generalize left : r.mostChoices - trace.length = n
  induction n generalizing s trace with
  | zero =>
    cases going : s.ending? with
    | some ending => exact ⟨trace, ending, ⟨s, run, going⟩, honest, List.suffix_refl _⟩
    | none =>
      obtain ⟨c, t, effects, next, -⟩ := open_choice answer run honest going
      have := runs_bounded (run.next next)
      rw [List.length_cons] at this
      omega
  | succ n ih =>
    cases going : s.ending? with
    | some ending => exact ⟨trace, ending, ⟨s, run, going⟩, honest, List.suffix_refl _⟩
    | none =>
      obtain ⟨c, t, effects, next, still⟩ := open_choice answer run honest going
      have shorter : r.mostChoices - ((c, effects) :: trace).length = n := by
        rw [List.length_cons]
        omega
      obtain ⟨whole, ending, ends, honest, later⟩ := ih (run.next next) still shorter
      exact ⟨whole, ending, ends, honest, (List.suffix_cons _ _).trans later⟩

end Round

/-! ## Whole runs of programs -/

def history (traces : List Trace) : Trace := traces.reverse.flatten

theorem history_cons (trace : Trace) (traces : List Trace) :
    history (trace :: traces) = history traces ++ trace := by
  simp [history]

namespace Program

variable {answer : Call → Outcome} {p : Program τ α} {traces : List Trace}

theorem yields_some (answer : Call → Outcome) (p : Program τ α) :
    ∃ whole result, p.Yields whole result ∧ ∀ trace ∈ whole, trace.AnsweredBy answer := by
  induction p with
  | done result events => exact ⟨[], result, .done, by simp⟩
  | round r next ih =>
    obtain ⟨trace, ending, ends, honest, -⟩ :=
      Round.completes answer (.opened (r := r)) Round.honest_nil
    cases ending with
    | error e => exact ⟨[trace], .error e, .failed ends, by simpa using honest⟩
    | ok results =>
      obtain ⟨later, result, yields, still⟩ := ih results
      exact ⟨trace :: later, result, .finished ends yields,
        List.forall_mem_cons.mpr ⟨honest, still⟩⟩

theorem completes (answer : Call → Outcome) (run : p.Runs traces)
    (honest : ∀ trace ∈ traces, trace.AnsweredBy answer) : ∃ whole result, p.Yields whole result ∧
      (∀ trace ∈ whole, trace.AnsweredBy answer) ∧ history traces <:+ history whole := by
  induction run with
  | @idle p =>
    obtain ⟨whole, result, yields, still⟩ := yields_some answer p
    exact ⟨whole, result, yields, still, List.nil_suffix⟩
  | @within r next s trace run =>
    obtain ⟨whole, ending, ends, still, later⟩ :=
      Round.completes answer run (honest trace (List.mem_singleton_self trace))
    cases ending with
    | error e => exact ⟨[whole], .error e, .failed ends, by simpa using still, by simpa [history]⟩
    | ok results =>
      obtain ⟨rest, result, yields, fine⟩ := yields_some answer (next results)
      refine ⟨whole :: rest, result, .finished ends yields,
        List.forall_mem_cons.mpr ⟨still, fine⟩, ?_⟩
      rw [history_cons, history_cons]
      exact later.trans (List.suffix_append _ _)
  | @beyond r next results trace traces ends run ih =>
    obtain ⟨first, others⟩ := List.forall_mem_cons.mp honest
    obtain ⟨rest, result, yields, fine, earlier, eq⟩ := ih others
    refine ⟨trace :: rest, result, .finished ends yields,
      List.forall_mem_cons.mpr ⟨first, fine⟩, earlier, ?_⟩
    rw [history_cons, history_cons, ← List.append_assoc, eq]

end Program

/-! ## What a program returns -/

/-- Under a transport, a program returns what is in `R`: no schedule is endless, every schedule so
far can be brought to its end, and at its end the result is in `R`. -/
structure Program.Returns (p : Program τ α) (answer : Call → Outcome)
    (R : Except ClientError α → Prop) : Prop where
  finite : ∃ bound, ∀ traces, p.Runs traces → (history traces).length ≤ bound
  completes : ∀ traces, p.Runs traces → (∀ trace ∈ traces, trace.AnsweredBy answer) →
    ∃ whole result, p.Yields whole result ∧ (∀ trace ∈ whole, trace.AnsweredBy answer) ∧
      history traces <:+ history whole
  result : ∀ traces result, p.Yields traces result →
    (∀ trace ∈ traces, trace.AnsweredBy answer) → R result

namespace Program

variable {answer : Call → Outcome} {R : Except ClientError α → Prop} {p : Program τ α}
  {bound : Nat}

def Bounded (bound : Nat) (p : Program τ α) : Prop :=
  ∀ traces, p.Runs traces → (history traces).length ≤ bound

theorem bounded_done {result : Except ClientError α} {events : List Event} :
    (done result events : Program τ α).Bounded 0 := by
  intro traces run
  cases run
  exact Nat.le_refl 0

theorem bounded_round {r : Round τ} {next : List τ → Program τ α}
    (later : ∀ results, (next results).Bounded bound) :
    (round r next).Bounded (r.mostChoices + bound) := by
  intro traces run
  cases run with
  | idle => exact Nat.zero_le _
  | within run =>
    rw [history, List.reverse_singleton, List.flatten_singleton]
    exact Nat.le_trans (Round.runs_bounded run) (Nat.le_add_right _ _)
  | beyond ends rest =>
    obtain ⟨s, run, -⟩ := ends
    rw [history_cons, List.length_append, Nat.add_comm]
    exact Nat.add_le_add (Round.runs_bounded run) (later _ _ rest)

theorem Bounded.returns (bounded : p.Bounded bound)
    (holds : ∀ traces result, p.Yields traces result →
      (∀ trace ∈ traces, trace.AnsweredBy answer) → R result) : p.Returns answer R :=
  ⟨⟨bound, bounded⟩, fun _ => completes answer, holds⟩

theorem returns_done {result : Except ClientError α} {events : List Event} (holds : R result) :
    (done result events : Program τ α).Returns answer R := by
  apply bounded_done.returns
  intro traces given run _
  obtain ⟨-, rfl⟩ := yields_done.mp run
  exact holds

theorem returns_single {r : Round τ} {value : List τ → α} {events : List τ → List Event}
    (holds : ∀ trace ending, r.Ends trace ending → trace.AnsweredBy answer →
      R (ending.map value)) :
    (round r fun results => done (.ok (value results)) (events results)).Returns answer R := by
  apply (bounded_round fun _ => bounded_done).returns
  intro traces result run honest
  obtain ⟨trace, ending, ends, rfl, rfl⟩ := yields_single.mp run
  exact holds trace ending ends (honest trace (List.mem_singleton_self trace))

theorem Returns.mono {S : Except ClientError α → Prop} (returns : p.Returns answer R)
    (weaker : ∀ result, R result → S result) : p.Returns answer S :=
  ⟨returns.finite, returns.completes,
    fun traces result run honest => weaker result (returns.result traces result run honest)⟩

theorem Returns.andThen {β : Type} {S : Except ClientError β → Prop}
    {f : α → Except ClientError β × List Event} (returns : p.Returns answer R)
    (goes : ∀ first, R first → S (first.bind fun a => (f a).1)) :
    (p.andThen f).Returns answer S := by
  obtain ⟨⟨bound, bounded⟩, -, result⟩ := returns
  have still : (p.andThen f).Bounded bound := fun traces run => bounded traces (runs_andThen.mp run)
  refine still.returns fun traces given run honest => ?_
  obtain ⟨first, yields, rfl⟩ := yields_andThen.mp run
  exact goes first (result traces first yields honest)

end Program

end Rebac.Dispatch
