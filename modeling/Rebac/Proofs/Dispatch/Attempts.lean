import Rebac.Proofs.Dispatch.Round
import Rebac.Proofs.Question.Answer

set_option autoImplicit false

/-!
# Attempts of a request

A request is sent from its place, and sent again after failures that pass. `Log` has all that may
have become of it, and one change of a round keeps it. So whatever the schedule and the answers, the
attempts of a request are one call, each but the last of them has met a failure that passes, and
there are no more of them than the policy allows.
-/
namespace Rebac

/-! ## Failures that pass -/

/-- A failure that may pass: too many requests, or a fault of the server other than a missing
feature. -/
def CallError.Passing (e : CallError) : Prop :=
  ∃ status, e.status? = some status ∧
    (status = 429 ∨ 500 ≤ status ∧ status ≤ 599 ∧ status ≠ 501)

def ClientError.Passing : ClientError → Prop
  | .rateLimited _ => True
  | .service _ _ => True
  | _ => False

theorem CallError.retryable_iff (e : CallError) : e.retryable = true ↔ e.Passing := by
  cases e with
  | http status hint body =>
    simp only [retryable, failureClass, status?, classOf, Passing, Option.some.injEq,
      exists_eq_left']
    split_ifs with limited absent broken
    · simp [limited]
    · simp [absent]
    · have other : status = 429 ∨ 500 ≤ status ∧ status ≤ 599 ∧ status ≠ 501 := by omega
      simp [other]
    all_goals
      have other : ¬ (status = 429 ∨ 500 ≤ status ∧ status ≤ 599 ∧ status ≠ 501) := by omega
      simp [other]
  | timeout _ => simp [retryable, failureClass, status?, Passing]
  | connection _ => simp [retryable, failureClass, status?, Passing]
  | decode _ => simp [retryable, failureClass, status?, Passing]

theorem ClientError.passing_ofCall (e : CallError) : (ofCall e).Passing ↔ e.Passing := by
  cases e with
  | http status hint body =>
    simp only [ofCall, CallError.classOf, CallError.Passing, CallError.status?, Option.some.injEq,
      exists_eq_left']
    split_ifs with limited absent broken
    · simp [Passing, limited]
    · simp [Passing, absent]
    · have other : status = 429 ∨ 500 ≤ status ∧ status ≤ 599 ∧ status ≠ 501 := by omega
      simp [Passing, other]
    all_goals
      have other : ¬ (status = 429 ∨ 500 ≤ status ∧ status ≤ 599 ∧ status ≠ 501) := by omega
      simp [Passing, other]
  | timeout _ => simp [ofCall, Passing, CallError.Passing, CallError.status?]
  | connection _ => simp [ofCall, Passing, CallError.Passing, CallError.status?]
  | decode _ => simp [ofCall, Passing, CallError.Passing, CallError.status?]

namespace Dispatch

def Passes (outcome : Outcome) : Prop := ∃ e, outcome = .error e ∧ e.Passing

theorem react_again {policy : Retry.Policy} {attempt : Nat} {now : Instant} {outcome : Outcome}
    {wait : Duration} (h : policy.react attempt now outcome = .again wait) :
    Passes outcome ∧ attempt < policy.maxRetries := by
  cases outcome with
  | ok response => cases h
  | error e =>
    simp only [Retry.Policy.react] at h
    split at h
    · rename_i again
      exact ⟨⟨e, rfl, e.retryable_iff.mp again.1⟩, again.2⟩
    · cases h

theorem react_over {policy : Retry.Policy} {attempt : Nat} {now : Instant}
    {outcome result : Outcome} (h : policy.react attempt now outcome = .final result)
    (passes : Passes outcome) : policy.maxRetries ≤ attempt := by
  obtain ⟨e, rfl, passing⟩ := passes
  simp only [Retry.Policy.react] at h
  split at h
  · cases h
  · rename_i still
    exact Nat.le_of_not_lt fun left => still ⟨e.retryable_iff.mpr passing, left⟩

/-! ## What was sent from a place, and what came back -/

namespace Trace

def sent : Trace → List (Nat × Call)
  | [] => []
  | (_, effects) :: earlier => sent earlier ++ effects.filterMap Effect.sent?

def attempts (trace : Trace) (place : Nat) : List Call :=
  (trace.sent.filter fun s => s.1 = place).map Prod.snd

def answers (trace : Trace) (place : Nat) : List Outcome :=
  (trace.exchanges.filter fun e => e.1 = place).map fun e => e.2.2

theorem launches_sent (trace : Trace) : trace.launches.Sublist trace.sent := by
  induction trace with
  | nil => exact .slnil
  | cons change earlier ih =>
    obtain ⟨c, effects⟩ := change
    cases c with
    | start => exact ih.append_right _
    | answer _ _ _ => exact ih.trans (List.sublist_append_left _ _)
    | wake _ => exact ih.trans (List.sublist_append_left _ _)

theorem sent_sent (c : Choice) (place : Nat) (call : Call) (earlier : Trace) :
    sent ((c, [.sent place call]) :: earlier) = sent earlier ++ [(place, call)] := rfl

theorem sent_paused (c : Choice) (notes : List Event) (place : Nat) (wait : Duration)
    (earlier : Trace) :
    sent ((c, notes.map .noted ++ [.paused place wait]) :: earlier) = sent earlier := by
  rw [sent, sent_notes]
  exact List.append_nil _

theorem sent_completed (c : Choice) (notes : List Event) (place : Nat) (outcome : Outcome)
    (earlier : Trace) :
    sent ((c, notes.map .noted ++ [.completed place outcome]) :: earlier) = sent earlier := by
  rw [sent, sent_notes]
  exact List.append_nil _

theorem filter_place {α : Type} (xs : List (Nat × α)) (place other : Nat) (a : α) :
    (xs ++ [(place, a)]).filter (fun x => x.1 = other) =
      xs.filter (fun x => x.1 = other) ++ if other = place then [(place, a)] else [] := by
  by_cases same : other = place
  · simp [same]
  · simp [same, Ne.symm same]

theorem attempts_append {trace earlier : Trace} {place : Nat} {call : Call}
    (h : trace.sent = earlier.sent ++ [(place, call)]) (other : Nat) :
    trace.attempts other = earlier.attempts other ++ if other = place then [call] else [] := by
  rw [attempts, h, filter_place, List.map_append, attempts]
  split <;> rfl

theorem answers_append {trace earlier : Trace} {place : Nat} {call : Call} {outcome : Outcome}
    (h : trace.exchanges = earlier.exchanges ++ [(place, call, outcome)]) (other : Nat) :
    trace.answers other = earlier.answers other ++ if other = place then [outcome] else [] := by
  rw [answers, h, filter_place, List.map_append, answers]
  split <;> rfl

theorem final?_append {trace earlier : Trace} {place : Nat} {outcome : Outcome}
    (h : trace.finals = earlier.finals ++ [(place, outcome)]) (other : Nat) :
    trace.final? other =
      (earlier.final? other).or (if other = place then some outcome else none) := by
  rw [final?, h, List.lookup_append, final?]
  by_cases same : other = place
  · simp [same]
  · have differs : (other == place) = false := by simpa using same
    simp [List.lookup_cons, differs, same]

end Trace

/-! ## One request -/

/-- What may have become of a request: the failures it has met if it is under way, its attempts
and their answers, and the final one. -/
inductive Log (policy : Retry.Policy) (call : Call) :
    Option (Nat × Phase) → List Call → List Outcome → Option Outcome → Prop where
  | unsent : Log policy call none [] [] none
  | awaiting {failures : List Outcome} :
      (∀ o ∈ failures, Passes o) → failures.length ≤ policy.maxRetries →
      Log policy call (some (failures.length, .awaiting))
        (List.replicate (failures.length + 1) call) failures none
  | pausing {failures : List Outcome} :
      failures ≠ [] → (∀ o ∈ failures, Passes o) → failures.length ≤ policy.maxRetries →
      Log policy call (some (failures.length, .pausing))
        (List.replicate failures.length call) failures none
  | closed {failures : List Outcome} {outcome : Outcome} :
      (∀ o ∈ failures, Passes o) → failures.length ≤ policy.maxRetries →
      (Passes outcome → failures.length = policy.maxRetries) →
      Log policy call none (List.replicate (failures.length + 1) call) (failures ++ [outcome])
        (some outcome)

namespace Log

variable {policy : Retry.Policy} {call : Call} {attempts : List Call} {answers : List Outcome}
  {final : Option Outcome} {failed : Nat} {outcome : Outcome}

theorem unfinished {progress : Nat × Phase}
    (log : Log policy call (some progress) attempts answers final) : final = none := by
  cases log <;> rfl

theorem calls {progress : Option (Nat × Phase)}
    (log : Log policy call progress attempts answers final) : ∀ a ∈ attempts, a = call := by
  intro a mem
  cases log with
  | unsent => cases mem
  | awaiting _ _ => exact List.eq_of_mem_replicate mem
  | pausing _ _ _ => exact List.eq_of_mem_replicate mem
  | closed _ _ _ => exact List.eq_of_mem_replicate mem

theorem pausing_passes (log : Log policy call (some (failed, .pausing)) attempts answers final) :
    ∃ o ∈ answers, Passes o := by
  cases log with
  | pausing some passed _ =>
    obtain ⟨o, mem⟩ := List.exists_mem_of_ne_nil _ some
    exact ⟨o, mem, passed o mem⟩

theorem awaiting_answers (log : Log policy call (some (failed, .awaiting)) attempts answers final) :
    answers.length = failed := by
  cases log
  rfl

theorem start (log : Log policy call none attempts answers none) :
    Log policy call (some (0, .awaiting)) (attempts ++ [call]) answers none := by
  cases log
  have nothing : ∀ o ∈ ([] : List Outcome), Passes o := by simp
  exact .awaiting nothing (Nat.zero_le _)

theorem pause {now : Instant} {wait : Duration}
    (log : Log policy call (some (failed, .awaiting)) attempts answers final)
    (again : policy.react failed now outcome = .again wait) :
    Log policy call (some (failed + 1, .pausing)) attempts (answers ++ [outcome]) final := by
  obtain ⟨passes, left⟩ := react_again again
  cases log with
  | awaiting passed _ =>
    have len : answers.length + 1 = (answers ++ [outcome]).length := by simp
    rw [len]
    refine .pausing (by simp) ?_ (by rw [← len]; exact left)
    intro o mem
    rcases List.mem_append.mp mem with old | new
    · exact passed o old
    · rwa [List.mem_singleton.mp new]

theorem wake (log : Log policy call (some (failed, .pausing)) attempts answers final) :
    Log policy call (some (failed, .awaiting)) (attempts ++ [call]) answers final := by
  cases log with
  | pausing _ passed bound =>
    rw [← List.replicate_succ']
    exact .awaiting passed bound

theorem finish {now : Instant}
    (log : Log policy call (some (failed, .awaiting)) attempts answers final)
    (ended : policy.react failed now outcome = .final outcome) :
    Log policy call none attempts (answers ++ [outcome]) (some outcome) := by
  cases log with
  | awaiting passed bound =>
    exact .closed passed bound fun passes => Nat.le_antisymm bound (react_over ended passes)

end Log

structure Repeated (policy : Retry.Policy) (attempts : List Call) (answers : List Outcome) :
    Prop where
  same : ∀ a ∈ attempts, ∀ b ∈ attempts, a = b
  /-- The answers are those to the first attempts, and only the last may be without one. -/
  answered : answers.length ≤ attempts.length ∧ attempts.length ≤ answers.length + 1
  passed : ∀ i, i + 1 < attempts.length → ∃ o, answers[i]? = some o ∧ Passes o
  bounded : attempts.length ≤ policy.maxRetries + 1
  decisive : ∀ i o, answers[i]? = some o → ¬ Passes o → attempts.length = i + 1

theorem passes_get {failures : List Outcome} (passed : ∀ o ∈ failures, Passes o) {i : Nat}
    (lt : i < failures.length) : ∃ o, failures[i]? = some o ∧ Passes o :=
  ⟨failures[i], List.getElem?_eq_getElem lt, passed _ (List.getElem_mem lt)⟩

theorem repeated_nil (policy : Retry.Policy) : Repeated policy [] [] :=
  ⟨by simp, by simp, by simp, by simp, by simp⟩

theorem Log.repeated {policy : Retry.Policy} {call : Call} {progress : Option (Nat × Phase)}
    {attempts : List Call} {answers : List Outcome} {final : Option Outcome}
    (log : Log policy call progress attempts answers final) : Repeated policy attempts answers := by
  have alike : ∀ a ∈ attempts, ∀ b ∈ attempts, a = b := by
    intro a here b there
    exact (log.calls a here).trans (log.calls b there).symm
  have none_decisive {failures : List Outcome} (passed : ∀ o ∈ failures, Passes o) {i : Nat}
      {o : Outcome} (got : failures[i]? = some o) (stays : ¬ Passes o) : False :=
    stays (passed o (List.mem_of_getElem? got))
  cases log with
  | unsent => exact repeated_nil policy
  | awaiting passed bound =>
    refine ⟨alike, by simp, ?_, by simpa using bound, ?_⟩
    · intro i lt
      exact passes_get passed (by simpa using lt)
    · intro i o got stays
      exact (none_decisive passed got stays).elim
  | pausing some passed bound =>
    refine ⟨alike, by simp, ?_, by simp; omega, ?_⟩
    · intro i lt
      exact passes_get passed (by simp at lt; omega)
    · intro i o got stays
      exact (none_decisive passed got stays).elim
  | @closed failures outcome passed bound last =>
    refine ⟨alike, by simp, ?_, by simpa using bound, ?_⟩
    · intro i lt
      have lt : i < failures.length := by simpa using lt
      rw [List.getElem?_append_left lt]
      exact passes_get passed lt
    · intro i o got stays
      rw [List.length_replicate]
      by_cases early : i < failures.length
      · rw [List.getElem?_append_left early] at got
        exact (none_decisive passed got stays).elim
      · have := (List.getElem?_eq_some_iff.mp got).1
        rw [List.length_append, List.length_singleton] at this
        omega

/-! ## Every request of a round -/

namespace Pool

variable {α σ τ : Type}

theorem find?_update (p : Pool α σ τ) (i j : Nat) (s : σ) :
    (p.update i s).find? j = if j = i then (p.find? i).map fun _ => s else p.find? j := by
  simp only [find?, update]
  induction p.running with
  | nil => simp
  | cons r rest ih =>
    obtain ⟨k, t⟩ := r
    by_cases here : k = i
    · subst here
      by_cases same : j = k
      · simp [same]
      · have differs : (j == k) = false := by simpa using same
        simp [List.lookup_cons, differs, ih, same]
    · by_cases same : j = k
      · subst same
        simp [here]
      · have differs : (j == k) = false := by simpa using same
        have other : (i == k) = false := by simpa using Ne.symm here
        simp [List.lookup_cons, differs, other, here, ih]

theorem find?_complete (p : Pool α σ τ) (i j : Nat) (r : τ) :
    (p.complete i r).find? j = if j = i then none else p.find? j := by
  simp only [find?, complete]
  induction p.running with
  | nil => simp
  | cons r rest ih =>
    obtain ⟨k, t⟩ := r
    by_cases here : k = i
    · subst here
      by_cases same : j = k
      · subst same
        simpa using ih
      · have differs : (j == k) = false := by simpa using same
        simpa [List.lookup_cons, differs, same] using ih
    · by_cases same : j = k
      · subst same
        simp [here]
      · have differs : (j == k) = false := by simpa using same
        simpa [List.lookup_cons, differs, here] using ih

theorem find?_start {launch : α → σ} {p q : Pool α σ τ} {i : Nat} {s : σ}
    (start : p.start? launch = some (i, s, q)) (fresh : p.find? i = none) (j : Nat) :
    q.find? j = if j = i then some s else p.find? j := by
  obtain ⟨a, rest, waits, room, rfl, rfl⟩ := start?_eq_some.mp start
  change p.running.lookup i = none at fresh
  simp only [find?, List.lookup_append]
  by_cases same : j = i
  · subst same
    simp [fresh]
  · have differs : (j == i) = false := by simpa using same
    simp [List.lookup_cons, differs, same]

end Pool

namespace Round

variable {τ : Type} {r : Round τ} {s t : Progress τ} {trace : Trace}

theorem answer_phase {policy : Retry.Policy} {pool : Pool (Request τ) (Task τ) τ} {place : Nat}
    {task : Task τ} {outcome : Outcome} {now : Instant} {effects : List Effect}
    (next : next? policy (.active pool) (.answer place outcome now) = some (t, effects))
    (found : pool.find? place = some task) : task.phase = .awaiting := by
  simp only [next?, found] at next
  split at next
  · assumption
  · cases next

theorem wake_phase {policy : Retry.Policy} {pool : Pool (Request τ) (Task τ) τ} {place : Nat}
    {task : Task τ} {effects : List Effect}
    (next : next? policy (.active pool) (.wake place) = some (t, effects))
    (found : pool.find? place = some task) : task.phase = .pausing := by
  simp only [next?, found] at next
  split at next
  · assumption
  · cases next

theorem next?_answer {policy : Retry.Policy} {pool : Pool (Request τ) (Task τ) τ} {place : Nat}
    {task : Task τ} (found : pool.find? place = some task) (phase : task.phase = .awaiting)
    (outcome : Outcome) (now : Instant) : next? policy (.active pool) (.answer place outcome now) =
      some (onAnswer policy pool place task outcome now) := by
  simp only [next?, found, phase, ↓reduceIte]

theorem next?_wake {policy : Retry.Policy} {pool : Pool (Request τ) (Task τ) τ} {place : Nat}
    {task : Task τ} (found : pool.find? place = some task) (phase : task.phase = .pausing) :
    next? policy (.active pool) (.wake place) =
      some (.active (pool.update place { task with phase := .awaiting }),
        [.sent place task.request.call]) := by
  simp only [next?, found, phase, ↓reduceIte]

theorem start_fresh {pool pool' : Pool (Request τ) (Task τ) τ} {place : Nat} {task : Task τ}
    (run : r.Runs (.active pool) trace) (start : pool.start? launch = some (place, task, pool')) :
    r.requests[place]? = some task.request ∧ task = launch task.request ∧
      pool.find? place = none ∧ trace.final? place = none := by
  obtain ⟨moves, bareRun, recounts⟩ := runs_bare run
  have tracks : Tracks r.limit r.requests moves (pool.mapStates Task.request) := runs_follow bareRun
  obtain ⟨request, rest, waits, -, rfl, -⟩ := Pool.start?_eq_some.mp start
  have head := tracks.waiting_head waits
  have next : place = (starts moves).length := Pool.placed_place head
  refine ⟨Pool.mem_placed.mp (List.mem_of_getElem? head), rfl, ?_, ?_⟩
  · cases found : pool.find? place with
    | none => rfl
    | some task =>
      have started := (tracks.starts_get (request_at bareRun found).1).1
      omega
  · cases final : trace.final? place with
    | none => rfl
    | some outcome =>
      have landed : place ∈ (consumed moves).map Prod.fst := by
        rw [← recounts.places]
        exact List.mem_map.mpr ⟨_, (final?_eq_some run).mp final, rfl⟩
      obtain ⟨c, mem, rfl⟩ := List.mem_map.mp landed
      have := tracks.begun c mem
      omega

def underway (pool : Pool (Request τ) (Task τ) τ) (place : Nat) : Option (Nat × Phase) :=
  (pool.find? place).map fun task => (task.failures, task.phase)

/-- The request at a place has a log of its own call, which says how far it is. -/
def Logged (r : Round τ) (s : Progress τ) (trace : Trace) (place : Nat) (q : Request τ) : Prop :=
  ∃ progress, Log r.policy q.call progress (trace.attempts place) (trace.answers place)
    (trace.final? place) ∧ ∀ pool, s = .active pool → progress = underway pool place

theorem exchanges_answer {pool : Pool (Request τ) (Task τ) τ} {place : Nat} {task : Task τ}
    (run : r.Runs (.active pool) trace) (found : pool.find? place = some task) (outcome : Outcome)
    (now : Instant) (effects : List Effect) :
    Trace.exchanges ((.answer place outcome now, effects) :: trace) =
      trace.exchanges ++ [(place, task.request.call, outcome)] := by
  rw [Trace.exchanges, lastCall?_task run found]
  rfl

theorem started_logged {pool pool' : Pool (Request τ) (Task τ) τ} {p place : Nat} {task : Task τ}
    {q : Request τ} (run : r.Runs (.active pool) trace)
    (start : pool.start? launch = some (p, task, pool')) (here : r.requests[place]? = some q)
    (logged : Logged r (.active pool) trace place q) :
    Logged r (.active pool') ((.start, [.sent p task.request.call]) :: trace) place q := by
  obtain ⟨progress, log, tied⟩ := logged
  obtain ⟨there, launched, idle, unfinished⟩ := start_fresh run start
  have attempts := Trace.attempts_append (Trace.sent_sent .start p task.request.call trace) place
  have final : Trace.final? ((.start, [.sent p task.request.call]) :: trace) place =
      trace.final? place := by
    rw [Trace.final?, Trace.finals_sent]
    rfl
  have now : underway pool' place =
      if place = p then some (0, .awaiting) else underway pool place := by
    rw [underway, Pool.find?_start start idle, launched]
    split <;> rfl
  have before := tied pool rfl
  subst before
  refine ⟨underway pool' place, ?_, fun _ eq => by cases eq; rfl⟩
  rw [attempts, final, now]
  by_cases same : place = p
  · subst same
    cases here.symm.trans there
    rw [underway, idle, unfinished] at log
    rw [if_pos rfl, if_pos rfl, unfinished]
    exact log.start
  · rw [if_neg same, if_neg same, List.append_nil]
    exact log

theorem paused_logged {pool : Pool (Request τ) (Task τ) τ} {p place : Nat} {task : Task τ}
    {q : Request τ} {outcome : Outcome} {now : Instant} {wait : Duration} {notes : List Event}
    (run : r.Runs (.active pool) trace)
    (logged : Logged r (.active pool) trace place q) (found : pool.find? p = some task)
    (phase : task.phase = .awaiting)
    (again : r.policy.react task.failures now outcome = .again wait) :
    Logged r
      (.active (pool.update p { task with failures := task.failures + 1, phase := .pausing }))
      ((.answer p outcome now, notes.map .noted ++ [.paused p wait]) :: trace) place q := by
  obtain ⟨progress, log, tied⟩ := logged
  have before := tied pool rfl
  subst before
  have attempts : Trace.attempts ((.answer p outcome now, notes.map .noted ++ [.paused p wait]) ::
      trace) place = trace.attempts place := by
    rw [Trace.attempts, Trace.sent_paused, Trace.attempts]
  have answers := Trace.answers_append (exchanges_answer run found outcome now
    (notes.map .noted ++ [.paused p wait])) place
  have final : Trace.final? ((.answer p outcome now, notes.map .noted ++ [.paused p wait]) ::
      trace) place = trace.final? place := by
    rw [Trace.final?, Trace.finals_paused, Trace.final?]
  refine ⟨_, ?_, fun _ eq => by cases eq; rfl⟩
  rw [attempts, answers, final, underway, Pool.find?_update]
  by_cases same : place = p
  · subst same
    rw [underway, found, Option.map_some, phase] at log
    rw [if_pos rfl, if_pos rfl, found]
    exact log.pause again
  · rw [if_neg same, if_neg same, List.append_nil]
    exact log

theorem completed_log {pool : Pool (Request τ) (Task τ) τ} {p place : Nat} {task : Task τ}
    {q : Request τ} {outcome : Outcome} {now : Instant} {notes : List Event}
    (run : r.Runs (.active pool) trace) (logged : Logged r (.active pool) trace place q)
    (found : pool.find? p = some task) (phase : task.phase = .awaiting)
    (ended : r.policy.react task.failures now outcome = .final outcome) {after : Trace}
    (eq : after = (.answer p outcome now, notes.map .noted ++ [.completed p outcome]) :: trace) :
    Log r.policy q.call (if place = p then none else underway pool place) (after.attempts place)
      (after.answers place) (after.final? place) := by
  obtain ⟨progress, log, tied⟩ := logged
  have before := tied pool rfl
  subst before
  have attempts : after.attempts place = trace.attempts place := by
    rw [eq, Trace.attempts, Trace.sent_completed, Trace.attempts]
  have answers := Trace.answers_append (exchanges_answer run found outcome now
    (notes.map .noted ++ [.completed p outcome])) place
  have final := Trace.final?_append
    (Trace.finals_completed (.answer p outcome now) notes p outcome trace) place
  rw [← eq] at answers final
  rw [attempts, answers, final]
  by_cases same : place = p
  · subst same
    rw [underway, found, Option.map_some, phase] at log
    rw [if_pos rfl, if_pos rfl, if_pos rfl, log.unfinished]
    exact log.finish ended
  · rw [if_neg same, if_neg same, if_neg same, List.append_nil, Option.or_none]
    exact log

theorem woken_logged {pool : Pool (Request τ) (Task τ) τ} {p place : Nat} {task : Task τ}
    {q : Request τ} (run : r.Runs (.active pool) trace) (here : r.requests[place]? = some q)
    (logged : Logged r (.active pool) trace place q) (found : pool.find? p = some task)
    (phase : task.phase = .pausing) :
    Logged r (.active (pool.update p { task with phase := .awaiting }))
      ((.wake p, [.sent p task.request.call]) :: trace) place q := by
  obtain ⟨progress, log, tied⟩ := logged
  have before := tied pool rfl
  subst before
  have attempts := Trace.attempts_append (Trace.sent_sent (.wake p) p task.request.call trace) place
  have final : Trace.final? ((.wake p, [.sent p task.request.call]) :: trace) place =
      trace.final? place := by
    rw [Trace.final?, Trace.finals_sent, Trace.final?]
  refine ⟨_, ?_, fun _ eq => by cases eq; rfl⟩
  rw [attempts, final, underway, Pool.find?_update]
  by_cases same : place = p
  · subst same
    obtain ⟨moves, bareRun, -⟩ := runs_bare run
    cases here.symm.trans (request_at bareRun found).2
    rw [underway, found, Option.map_some, phase] at log
    rw [if_pos rfl, if_pos rfl, found]
    exact log.wake
  · rw [if_neg same, if_neg same, List.append_nil]
    exact log

theorem next_logged {c : Choice} {effects : List Effect} {place : Nat} {q : Request τ}
    (run : r.Runs s trace) (here : r.requests[place]? = some q)
    (next : next? r.policy s c = some (t, effects)) (logged : Logged r s trace place q) :
    Logged r t ((c, effects) :: trace) place q := by
  cases next?_change next with
  | started start => exact started_logged run start here logged
  | paused found again =>
    exact paused_logged run logged found (answer_phase next found) again
  | settled found ended settle =>
    refine ⟨_, completed_log run logged found (answer_phase next found) ended rfl, ?_⟩
    intro pool eq
    cases eq
    rw [underway, underway, Pool.find?_complete]
    split <;> rfl
  | failed found ended settle =>
    exact ⟨_, completed_log run logged found (answer_phase next found) ended rfl, by simp⟩
  | woken found => exact woken_logged run here logged found (wake_phase next found)

theorem runs_logged (run : r.Runs s trace) {place : Nat} {q : Request τ}
    (here : r.requests[place]? = some q) : Logged r s trace place q := by
  induction run with
  | opened => exact ⟨none, .unsent, fun _ eq => by cases eq; rfl⟩
  | next run next ih => exact next_logged run here next ih

theorem unsent_outside (run : r.Runs s trace) {place : Nat} (absent : r.requests[place]? = none) :
    trace.attempts place = [] ∧ trace.answers place = [] := by
  induction run with
  | opened => exact ⟨rfl, rfl⟩
  | @next s t c effects trace run next ih =>
    obtain ⟨unsent, unanswered⟩ := ih
    have elsewhere {p : Nat} {q : Request τ} (there : r.requests[p]? = some q) : place ≠ p := by
      rintro rfl
      cases absent.symm.trans there
    have under {pool : Pool (Request τ) (Task τ) τ} {p : Nat} {task : Task τ}
        (run : r.Runs (.active pool) trace) (found : pool.find? p = some task) : place ≠ p := by
      obtain ⟨moves, bareRun, -⟩ := runs_bare run
      exact elsewhere (request_at bareRun found).2
    cases next?_change next with
    | started start =>
      rw [Trace.attempts_append (Trace.sent_sent _ _ _ _),
        if_neg (elsewhere (start_fresh run start).1), unsent]
      exact ⟨rfl, unanswered⟩
    | paused found again =>
      rw [Trace.answers_append (exchanges_answer run found _ _ _), if_neg (under run found),
        unanswered, Trace.attempts, Trace.sent_paused]
      exact ⟨unsent, rfl⟩
    | settled found ended settle =>
      rw [Trace.answers_append (exchanges_answer run found _ _ _), if_neg (under run found),
        unanswered, Trace.attempts, Trace.sent_completed]
      exact ⟨unsent, rfl⟩
    | failed found ended settle =>
      rw [Trace.answers_append (exchanges_answer run found _ _ _), if_neg (under run found),
        unanswered, Trace.attempts, Trace.sent_completed]
      exact ⟨unsent, rfl⟩
    | woken found =>
      rw [Trace.attempts_append (Trace.sent_sent _ _ _ _), if_neg (under run found), unsent]
      exact ⟨rfl, unanswered⟩

/-- In every run of a round, whatever the schedule and the answers, the attempts from each place
are repeats of one call, as often as the policy allows and the answers ask for. -/
theorem runs_repeated (run : r.Runs s trace) (place : Nat) :
    Repeated r.policy (trace.attempts place) (trace.answers place) := by
  cases here : r.requests[place]? with
  | none =>
    obtain ⟨unsent, unanswered⟩ := unsent_outside run here
    rw [unsent, unanswered]
    exact repeated_nil r.policy
  | some q =>
    obtain ⟨progress, log, -⟩ := runs_logged run here
    exact log.repeated

theorem attempts_call (run : r.Runs s trace) {place : Nat} {q : Request τ}
    (here : r.requests[place]? = some q) : ∀ call ∈ trace.attempts place, call = q.call := by
  obtain ⟨progress, log, -⟩ := runs_logged run here
  exact log.calls

theorem sent_calls (run : r.Runs s trace) {sent : Nat × Call} (mem : sent ∈ trace.sent) :
    sent ∈ r.calls := by
  obtain ⟨place, call⟩ := sent
  have attempt : call ∈ trace.attempts place :=
    List.mem_map.mpr ⟨(place, call), List.mem_filter.mpr ⟨mem, by simp⟩, rfl⟩
  cases here : r.requests[place]? with
  | none =>
    rw [(unsent_outside run here).1] at attempt
    cases attempt
  | some q =>
    rw [attempts_call run here _ attempt]
    exact List.mem_map.mpr ⟨(place, q), Pool.mem_placed.mpr here, rfl⟩

theorem exchanges_request (run : r.Runs s trace) {exchange : Nat × Call × Outcome}
    (mem : exchange ∈ trace.exchanges) :
    ∃ q, r.requests[exchange.1]? = some q ∧ q.call = exchange.2.1 := by
  induction run with
  | opened => cases mem
  | @next s t c effects trace run next ih =>
    cases c with
    | start => exact ih mem
    | wake place => exact ih mem
    | answer place outcome now =>
      rcases List.mem_append.mp mem with old | new
      · exact ih old
      · obtain ⟨call, last, rfl⟩ := Option.map_eq_some_iff.mp (Option.mem_toList.mp new)
        exact lastCall?_request run last

theorem sent_launches (run : r.Runs s trace)
    (calm : ∀ e ∈ trace.exchanges, ¬ Passes e.2.2) : trace.sent = trace.launches := by
  induction run with
  | opened => rfl
  | @next s t c effects trace run next ih =>
    have before := ih fun e mem => calm e (Trace.exchanges_kept _ mem)
    cases next?_change next with
    | started start => rw [Trace.sent, before, Trace.launches]
    | paused found again => exact (Trace.sent_paused ..).trans before
    | settled found ended settle => exact (Trace.sent_completed ..).trans before
    | failed found ended settle => exact (Trace.sent_completed ..).trans before
    | @woken pool place task found =>
      -- a request that waits for its next attempt has had an answer that asks for it
      obtain ⟨moves, bareRun, -⟩ := runs_bare run
      obtain ⟨progress, log, tied⟩ := runs_logged run (request_at bareRun found).2
      rw [tied pool rfl, underway, found, Option.map_some, wake_phase next found] at log
      obtain ⟨o, mem, passes⟩ := log.pausing_passes
      obtain ⟨e, there, rfl⟩ := List.mem_map.mp mem
      exact absurd passes (calm e (List.mem_filter.mp there).1)

/-- The request that was sent from a place has met a failure as often as it could be sent, and an
error is what became of the last one. -/
structure Exhausted (policy : Retry.Policy) (trace : Trace) (place : Nat) (e : ClientError) :
    Prop where
  attempts : (trace.attempts place).length = policy.maxRetries + 1
  answers : (trace.answers place).length = policy.maxRetries + 1
  last : ∃ err, (trace.answers place).getLast? = some (.error err) ∧ e = .ofCall err

theorem final_exhausted (run : r.Runs s trace) {place : Nat} {err : CallError}
    (final : trace.final? place = some (.error err)) (passing : (ClientError.ofCall err).Passing) :
    Exhausted r.policy trace place (.ofCall err) := by
  obtain ⟨q, here, -⟩ := finals_launched run ((final?_eq_some run).mp final)
  obtain ⟨progress, log, -⟩ := runs_logged run here
  rw [final] at log
  generalize atts : trace.attempts place = attempts at log
  generalize answ : trace.answers place = answers at log
  cases log with
  | closed passed bound last =>
    have most := last ⟨err, rfl, (ClientError.passing_ofCall err).mp passing⟩
    refine ⟨by rw [atts, List.length_replicate, most], ?_, err, by simp [answ], rfl⟩
    rw [answ, List.length_append, most, List.length_singleton]

end Round

end Dispatch

end Rebac
