import Rebac.Dispatch.Round

set_option autoImplicit false

/-! # Traces of rounds -/

namespace Rebac.Dispatch

def Effect.sent? : Effect → Option (Nat × Call)
  | .sent place call => some (place, call)
  | _ => none

def Effect.completed? : Effect → Option (Nat × Outcome)
  | .completed place outcome => some (place, outcome)
  | _ => none

def Effect.paused? : Effect → Option (Nat × Duration)
  | .paused place wait => some (place, wait)
  | _ => none

namespace Trace

/-- The requests that were started, with the calls they were started with, in their order. -/
def launches : Trace → List (Nat × Call)
  | [] => []
  | (.start, effects) :: earlier => launches earlier ++ effects.filterMap Effect.sent?
  | _ :: earlier => launches earlier

def finals : Trace → List (Nat × Outcome)
  | [] => []
  | (_, effects) :: earlier => finals earlier ++ effects.filterMap Effect.completed?

def final? (trace : Trace) (place : Nat) : Option Outcome := trace.finals.lookup place

def lastCall? (place : Nat) : Trace → Option Call
  | [] => none
  | (_, effects) :: earlier =>
    ((effects.filterMap Effect.sent?).lookup place).or (lastCall? place earlier)

def exchanges : Trace → List (Nat × Call × Outcome)
  | [] => []
  | (.answer place outcome _, _) :: earlier =>
    exchanges earlier ++ ((lastCall? place earlier).map fun call => (place, call, outcome)).toList
  | _ :: earlier => exchanges earlier

def waits (trace : Trace) : List (Nat × Duration) :=
  trace.reverse.flatMap fun change => change.2.filterMap Effect.paused?

end Trace

theorem sent_notes (notes : List Event) (rest : List Effect) :
    (notes.map Effect.noted ++ rest).filterMap Effect.sent? = rest.filterMap Effect.sent? := by
  induction notes with
  | nil => rfl
  | cons note notes ih => exact ih

theorem completed_notes (notes : List Event) (rest : List Effect) :
    (notes.map Effect.noted ++ rest).filterMap Effect.completed? =
      rest.filterMap Effect.completed? := by
  induction notes with
  | nil => rfl
  | cons note notes ih => exact ih

namespace Trace

/-! The last change of a trace and what it adds. -/

theorem finals_sent (c : Choice) (place : Nat) (call : Call) (earlier : Trace) :
    finals ((c, [.sent place call]) :: earlier) = finals earlier := List.append_nil _

theorem finals_paused (c : Choice) (notes : List Event) (place : Nat) (wait : Duration)
    (earlier : Trace) :
    finals ((c, notes.map .noted ++ [.paused place wait]) :: earlier) = finals earlier := by
  rw [finals, completed_notes]
  exact List.append_nil _

theorem finals_completed (c : Choice) (notes : List Event) (place : Nat) (outcome : Outcome)
    (earlier : Trace) : finals ((c, notes.map .noted ++ [.completed place outcome]) :: earlier) =
      finals earlier ++ [(place, outcome)] := by
  rw [finals, completed_notes]
  rfl

theorem lastCall?_sent (c : Choice) (place other : Nat) (call : Call) (earlier : Trace) :
    lastCall? other ((c, [.sent place call]) :: earlier) =
      if other = place then some call else lastCall? other earlier := by
  by_cases same : other = place
  · subst same
    simp [lastCall?, Effect.sent?]
  · have differs : (other == place) = false := by simpa using same
    simp [lastCall?, Effect.sent?, List.lookup_cons, differs, same]

theorem lastCall?_paused (c : Choice) (notes : List Event) (place other : Nat) (wait : Duration)
    (earlier : Trace) : lastCall? other ((c, notes.map .noted ++ [.paused place wait]) :: earlier) =
      lastCall? other earlier := by
  rw [lastCall?, sent_notes]
  rfl

theorem lastCall?_completed (c : Choice) (notes : List Event) (place other : Nat)
    (outcome : Outcome) (earlier : Trace) :
    lastCall? other ((c, notes.map .noted ++ [.completed place outcome]) :: earlier) =
      lastCall? other earlier := by
  rw [lastCall?, sent_notes]
  rfl

theorem lastCall?_launched {trace : Trace} {place : Nat} {call : Call}
    (mem : (place, call) ∈ trace.launches) : ∃ other, trace.lastCall? place = some other := by
  induction trace with
  | nil => cases mem
  | cons change earlier ih =>
    obtain ⟨c, effects⟩ := change
    have kept (old : (place, call) ∈ launches earlier) :
        ∃ other, lastCall? place ((c, effects) :: earlier) = some other := by
      obtain ⟨other, last⟩ := ih old
      rw [lastCall?, last]
      cases (effects.filterMap Effect.sent?).lookup place <;> exact ⟨_, rfl⟩
    cases c with
    | start =>
      rcases List.mem_append.mp mem with old | new
      · exact kept old
      · rw [lastCall?]
        cases found : (effects.filterMap Effect.sent?).lookup place with
        | some other => exact ⟨other, rfl⟩
        | none =>
          have absent := List.lookup_eq_none_iff.mp found _ new
          simp at absent
    | answer _ _ _ => exact kept mem
    | wake _ => exact kept mem

theorem exchanges_kept {trace : Trace} {exchange : Nat × Call × Outcome}
    (change : Choice × List Effect) (mem : exchange ∈ trace.exchanges) :
    exchange ∈ Trace.exchanges (change :: trace) := by
  obtain ⟨c, effects⟩ := change
  cases c with
  | start => exact mem
  | wake _ => exact mem
  | answer _ _ _ => exact List.mem_append_left _ mem

end Trace

end Rebac.Dispatch
