import Rebac.Schedule.VirtualClock

set_option autoImplicit false

/-! # The virtual clock is a schedule -/

namespace Rebac.Schedule

open Dispatch

variable {τ α : Type} {w w' : World}

/-! ## Turns of a round -/

/-- What a round comes to on the virtual clock, from a world and an agenda, turn by turn. A turn
whose choice is not open leaves the round as it was. -/
inductive Comes (r : Round τ) (first : World) (begun : Agenda) :
    World → Agenda → Progress τ → Trace → Prop where
  | opened : Comes r first begun first begun r.opening []
  | idle {w : World} {a rest : Agenda} {s : Progress τ} {trace : Trace} {turn : Turn}
      {clock : Nat} :
      Comes r first begun w a s trace → s.ending? = none →
      a.next? w.clock = some (turn, clock, rest) →
      Round.next? r.policy s (choose { w with clock } turn).1 = none →
      Comes r first begun (choose { w with clock } turn).2 rest s trace
  | turned {w : World} {a rest : Agenda} {s t : Progress τ} {trace : Trace} {turn : Turn}
      {clock : Nat} {effects : List Effect} :
      Comes r first begun w a s trace → s.ending? = none →
      a.next? w.clock = some (turn, clock, rest) →
      Round.next? r.policy s (choose { w with clock } turn).1 = some (t, effects) →
      Comes r first begun (effects.foldl apply ((choose { w with clock } turn).2, rest)).1
        (effects.foldl apply ((choose { w with clock } turn).2, rest)).2 t
        (((choose { w with clock } turn).1, effects) :: trace)

theorem Comes.runs {r : Round τ} {first : World} {a b : Agenda} {s : Progress τ} {trace : Trace}
    (comes : Comes r first a w b s trace) : r.Runs s trace := by
  induction comes with
  | opened => exact .opened
  | idle _ _ _ _ ih => exact ih
  | turned _ _ _ next ih => exact ih.next next

theorem loop_comes {r : Round τ} {first : World} {a b : Agenda} {fuel : Nat} {s : Progress τ}
    {trace : Trace} {result : Except ClientError (List τ)} (comes : Comes r first a w b s trace)
    (looped : loop r.policy fuel w b s = some (result, w')) :
    ∃ c t whole, Comes r first a w' c t whole ∧ t.ending? = some result := by
  induction fuel generalizing w b s trace with
  | zero => cases looped
  | succ fuel ih =>
    unfold loop at looped
    split at looped
    · rename_i ended
      cases looped
      exact ⟨b, s, trace, comes, ended⟩
    · rename_i works
      split at looped
      · cases looped
      · rename_i turn clock rest popped
        split at looped
        rename_i chosen
        obtain ⟨rfl, rfl⟩ := Prod.ext_iff.mp chosen
        split at looped
        · rename_i closed
          exact ih (comes.idle works popped closed) looped
        · rename_i t effects next
          exact ih (comes.turned works popped next) looped

def begins (r : Round τ) : Agenda :=
  ⟨List.replicate (min (max 1 r.limit) r.requests.length) .start, [], []⟩

theorem runRound_comes {r : Round τ} {result : Except ClientError (List τ)}
    (ran : runRound w r = some (result, w')) :
    ∃ a s trace, Comes r w (begins r) w' a s trace ∧ s.ending? = some result :=
  loop_comes .opened ran

/-! ## Programs -/

inductive Plays : World → Program τ α → List Trace → Except ClientError α → World → Prop where
  | done {w : World} {result : Except ClientError α} {events : List Event} :
      Plays w (.done result events) [] result { w with events := events.reverse ++ w.events }
  | failed {w w' : World} {r : Round τ} {next : List τ → Program τ α} {a : Agenda}
      {s : Progress τ} {trace : Trace} {e : ClientError} :
      Comes r w (begins r) w' a s trace → s.ending? = some (.error e) →
      Plays w (.round r next) [trace] (.error e) w'
  | finished {w w' later : World} {r : Round τ} {next : List τ → Program τ α} {a : Agenda}
      {s : Progress τ} {trace : Trace} {results : List τ} {traces : List Trace}
      {result : Except ClientError α} :
      Comes r w (begins r) w' a s trace → s.ending? = some (.ok results) →
      Plays w' (next results) traces result later →
      Plays w (.round r next) (trace :: traces) result later

theorem run_plays {p : Program τ α} {result : Except ClientError α}
    (ran : run w p = some (result, w')) : ∃ traces, Plays w p traces result w' := by
  induction p generalizing w with
  | done given events =>
    cases ran
    exact ⟨[], .done⟩
  | round r next ih =>
    unfold run at ran
    cases ended : runRound w r with
    | none =>
      rw [ended] at ran
      cases ran
    | some first =>
      obtain ⟨ending, later⟩ := first
      obtain ⟨a, s, trace, comes, ends⟩ := runRound_comes ended
      rw [ended] at ran
      cases ending with
      | error e =>
        cases ran
        exact ⟨[trace], .failed comes ends⟩
      | ok results =>
        obtain ⟨traces, plays⟩ := ih results ran
        exact ⟨trace :: traces, .finished comes ends plays⟩

/-- What a program comes to on the virtual clock is what it yields under some schedule. -/
theorem Plays.yields {p : Program τ α} {traces : List Trace} {result : Except ClientError α}
    (plays : Plays w p traces result w') : p.Yields traces result := by
  induction plays with
  | done => exact .done
  | failed comes ends => exact .failed ⟨_, comes.runs, ends⟩
  | finished comes ends _ ih => exact .finished ⟨_, comes.runs, ends⟩ ih

end Rebac.Schedule
