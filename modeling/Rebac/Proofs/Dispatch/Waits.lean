import Rebac.Proofs.Dispatch.Attempts

set_option autoImplicit false

/-! # Waits between the attempts of a request -/

namespace Rebac

def Outcome.hint? : Outcome → Option String
  | .ok _ => none
  | .error e => e.retryAfter?

namespace Dispatch

theorem react_again_wait {policy : Retry.Policy} {attempt : Nat} {now : Instant} {outcome : Outcome}
    {wait : Duration} (again : policy.react attempt now outcome = .again wait) :
    wait = policy.delayFor attempt outcome.hint? now := by
  cases outcome with
  | ok response => cases again
  | error e =>
    rw [Retry.Policy.react] at again
    split at again
    · exact (Retry.Reaction.again.inj again).symm
    · cases again

namespace Trace

/-! ## What a place hears, and how long it waits -/

def replies (place : Nat) : Trace → List (Outcome × Instant)
  | [] => []
  | (.answer p outcome now, _) :: earlier =>
    replies place earlier ++ if place = p then [(outcome, now)] else []
  | _ :: earlier => replies place earlier

def waitsAt (place : Nat) (trace : Trace) : List Duration :=
  (trace.waits.filter fun x => x.1 = place).map Prod.snd

variable {earlier : Trace}

theorem waits_cons (c : Choice) (effects : List Effect) :
    waits ((c, effects) :: earlier) = earlier.waits ++ effects.filterMap Effect.paused? := by
  simp [waits]

theorem waitsAt_sent (c : Choice) (p place : Nat) (call : Call) :
    waitsAt place ((c, [.sent p call]) :: earlier) = earlier.waitsAt place := by
  rw [waitsAt, waitsAt, waits_cons]
  simp [Effect.paused?]

theorem paused_notes (notes : List Event) (rest : List Effect) :
    (notes.map Effect.noted ++ rest).filterMap Effect.paused? = rest.filterMap Effect.paused? := by
  induction notes with
  | nil => rfl
  | cons note notes ih => exact ih

theorem waitsAt_completed (c : Choice) (notes : List Event) (p place : Nat) (outcome : Outcome) :
    waitsAt place ((c, notes.map .noted ++ [.completed p outcome]) :: earlier) =
      earlier.waitsAt place := by
  rw [waitsAt, waitsAt, waits_cons, paused_notes]
  simp [Effect.paused?]

theorem waitsAt_paused (c : Choice) (notes : List Event) (p place : Nat) (wait : Duration) :
    waitsAt place ((c, notes.map .noted ++ [.paused p wait]) :: earlier) =
      earlier.waitsAt place ++ if place = p then [wait] else [] := by
  have all : waits ((c, notes.map .noted ++ [.paused p wait]) :: earlier) =
      earlier.waits ++ [(p, wait)] := by
    rw [waits_cons, paused_notes]
    rfl
  rw [waitsAt, all, filter_place, List.map_append, waitsAt]
  split <;> rfl

end Trace

/-! ## The waits of a round -/

/-- The waits of a place are those that the policy asks for after the answers before them, and every
answer that is not final is followed by one. -/
structure Waited (policy : Retry.Policy) (place : Nat) (trace : Trace) : Prop where
  wait : ∀ i w, (trace.waitsAt place)[i]? = some w → ∃ outcome now,
    (trace.replies place)[i]? = some (outcome, now) ∧ w = policy.delayFor i outcome.hint? now
  balance : (trace.waitsAt place).length + (trace.final? place).toList.length =
    (trace.replies place).length

namespace Round

variable {τ : Type} {r : Round τ} {s t : Progress τ} {trace : Trace} {place : Nat}

theorem replies_answers (run : r.Runs s trace) (place : Nat) :
    (trace.replies place).map Prod.fst = trace.answers place := by
  induction run with
  | opened => rfl
  | @next s t c effects trace run next ih =>
    have heard {pool : Pool (Request τ) (Task τ) τ} {p : Nat} {task : Task τ}
        (run : r.Runs (.active pool) trace) (found : pool.find? p = some task) (outcome : Outcome)
        (now : Instant) (effects : List Effect) :
        (Trace.replies place ((.answer p outcome now, effects) :: trace)).map Prod.fst =
          Trace.answers ((.answer p outcome now, effects) :: trace) place := by
      rw [Trace.answers_append (exchanges_answer run found outcome now effects), Trace.replies,
        List.map_append, ih]
      split <;> rfl
    cases next?_change next with
    | started start => exact ih
    | paused found again => exact heard run found _ _ _
    | settled found ended settle => exact heard run found _ _ _
    | failed found ended settle => exact heard run found _ _ _
    | woken found => exact ih

theorem awaiting_replies {pool : Pool (Request τ) (Task τ) τ} {task : Task τ}
    (run : r.Runs (.active pool) trace) (found : pool.find? place = some task)
    (phase : task.phase = .awaiting) :
    (trace.replies place).length = task.failures ∧ trace.final? place = none := by
  obtain ⟨moves, bareRun, -⟩ := runs_bare run
  obtain ⟨progress, log, tied⟩ := runs_logged run (request_at bareRun found).2
  rw [tied pool rfl, underway, found, Option.map_some, phase] at log
  refine ⟨?_, log.unfinished⟩
  have heard := congrArg List.length (replies_answers run place)
  rw [List.length_map] at heard
  exact heard.trans log.awaiting_answers

theorem Waited.of_same {policy : Retry.Policy} {earlier later : Trace}
    (waited : Waited policy place earlier) (waits : later.waitsAt place = earlier.waitsAt place)
    (replies : later.replies place = earlier.replies place)
    (final : later.final? place = earlier.final? place) : Waited policy place later := by
  constructor
  · rw [waits, replies]
    exact waited.wait
  · rw [waits, replies, final]
    exact waited.balance

theorem paused_waited {pool : Pool (Request τ) (Task τ) τ} {p : Nat} {task : Task τ}
    {outcome : Outcome} {now : Instant} {wait : Duration} {notes : List Event}
    (run : r.Runs (.active pool) trace) (found : pool.find? p = some task)
    (phase : task.phase = .awaiting)
    (again : r.policy.react task.failures now outcome = .again wait)
    (waited : Waited r.policy place trace) : Waited r.policy place
      ((.answer p outcome now, notes.map .noted ++ [.paused p wait]) :: trace) := by
  have final : Trace.final? ((.answer p outcome now, notes.map .noted ++ [.paused p wait]) ::
      trace) place = trace.final? place := by
    rw [Trace.final?, Trace.finals_paused, Trace.final?]
  by_cases same : place = p
  · subst same
    obtain ⟨heard, unfinished⟩ := awaiting_replies run found phase
    have balance := waited.balance
    rw [unfinished, Option.toList_none, List.length_nil, Nat.add_zero] at balance
    constructor
    · intro i w got
      rw [Trace.waitsAt_paused, if_pos rfl] at got
      rw [Trace.replies, if_pos rfl]
      by_cases old : i < (trace.waitsAt place).length
      · rw [List.getElem?_append_left old] at got
        rw [List.getElem?_append_left (by omega)]
        exact waited.wait i w got
      · rw [List.getElem?_append_right (Nat.le_of_not_lt old),
          List.getElem?_singleton] at got
        -- the new wait is the one after the failures so far
        have last : i = task.failures := by
          split at got
          · omega
          · cases got
        subst last
        rw [if_pos (by omega)] at got
        refine ⟨outcome, now, ?_, (Option.some.inj got).symm.trans (react_again_wait again)⟩
        rw [List.getElem?_append_right (by omega), heard, Nat.sub_self]
        rfl
    · rw [final, unfinished, Trace.waitsAt_paused, Trace.replies, if_pos rfl, if_pos rfl]
      simp [balance]
  · refine Waited.of_same waited ?_ ?_ final
    · rw [Trace.waitsAt_paused, if_neg same, List.append_nil]
    · rw [Trace.replies, if_neg same, List.append_nil]

theorem completed_waited {pool : Pool (Request τ) (Task τ) τ} {p : Nat} {task : Task τ}
    {outcome : Outcome} {now : Instant} {notes : List Event}
    (run : r.Runs (.active pool) trace) (found : pool.find? p = some task)
    (phase : task.phase = .awaiting) (waited : Waited r.policy place trace) :
    Waited r.policy place
      ((.answer p outcome now, notes.map .noted ++ [.completed p outcome]) :: trace) := by
  have final := Trace.final?_append
    (Trace.finals_completed (.answer p outcome now) notes p outcome trace) place
  by_cases same : place = p
  · subst same
    obtain ⟨-, unfinished⟩ := awaiting_replies run found phase
    have balance := waited.balance
    rw [unfinished, Option.toList_none, List.length_nil, Nat.add_zero] at balance
    constructor
    · intro i w got
      rw [Trace.waitsAt_completed] at got
      obtain ⟨outcome, now, there, eq⟩ := waited.wait i w got
      refine ⟨outcome, now, ?_, eq⟩
      rw [Trace.replies, List.getElem?_append_left (List.getElem?_eq_some_iff.mp there).1, there]
    · rw [final, unfinished, if_pos rfl, Trace.waitsAt_completed, Trace.replies, if_pos rfl]
      simp [balance]
  · refine Waited.of_same waited (Trace.waitsAt_completed ..) ?_ ?_
    · rw [Trace.replies, if_neg same, List.append_nil]
    · rw [final, if_neg same, Option.or_none]

/-- In every run of a round, whatever the schedule and the answers, the waits of each place are those
that the policy asks for. -/
theorem runs_waited (run : r.Runs s trace) (place : Nat) : Waited r.policy place trace := by
  induction run with
  | opened => exact ⟨by simp [Trace.waitsAt, Trace.waits], rfl⟩
  | @next s t c effects trace run next ih =>
    have sent (p : Nat) (call : Call) :
        Trace.final? ((c, [.sent p call]) :: trace) place = trace.final? place := by
      rw [Trace.final?, Trace.finals_sent, Trace.final?]
    cases next?_change next with
    | started start => exact Waited.of_same ih (Trace.waitsAt_sent ..) rfl (sent _ _)
    | paused found again => exact paused_waited run found (answer_phase next found) again ih
    | settled found ended settle => exact completed_waited run found (answer_phase next found) ih
    | failed found ended settle => exact completed_waited run found (answer_phase next found) ih
    | woken found => exact Waited.of_same ih (Trace.waitsAt_sent ..) rfl (sent _ _)

end Round

end Dispatch

end Rebac
