import Rebac.Proofs.Dispatch.Program

set_option autoImplicit false

/-! # Contracts of programs -/

namespace Rebac.Dispatch.Program

variable {τ α β : Type} {p : Program τ α} {traces : List Trace}

/-! ## Rounds -/

def EveryRound (Q : Round τ → Prop) : Program τ α → Prop
  | .done _ _ => True
  | .round r next => Q r ∧ ∀ results, (next results).EveryRound Q

variable {Q : Round τ → Prop}

theorem EveryRound.runs (every : p.EveryRound Q) (run : p.Runs traces) :
    ∀ trace ∈ traces, ∃ r s, Q r ∧ r.Runs s trace := by
  induction run with
  | idle => simp
  | within run =>
    intro trace mem
    cases List.mem_singleton.mp mem
    exact ⟨_, _, every.1, run⟩
  | beyond ends _ ih =>
    obtain ⟨s, run, -⟩ := ends
    intro trace mem
    rcases List.mem_cons.mp mem with rfl | later
    · exact ⟨_, s, every.1, run⟩
    · exact ih (every.2 _) trace later

theorem EveryRound.mono {Q' : Round τ → Prop} (every : p.EveryRound Q)
    (weaker : ∀ r, Q r → Q' r) : p.EveryRound Q' := by
  induction p with
  | done result events => trivial
  | round r next ih => exact ⟨weaker r every.1, fun results => ih results (every.2 results)⟩

theorem EveryRound.andThen {f : α → Except ClientError β × List Event} (every : p.EveryRound Q) :
    (p.andThen f).EveryRound Q := by
  induction p with
  | done result events => cases result <;> trivial
  | round r next ih => exact ⟨every.1, fun results => ih results (every.2 results)⟩

/-! ## Results -/

/-- Every request settles every outcome as required, with a result as in `T` or an error as in
`R`, and from such results the program comes to what is in `R`. -/
def Keeps (T : τ → Prop) (R : Except ClientError α → Prop) : Program τ α → Prop
  | .done result _ => R result
  | .round r next =>
    (∀ q ∈ r.requests, ∀ outcome,
      (∀ x, q.settle outcome = .ok x → T x) ∧ ∀ e, q.settle outcome = .error e → R (.error e)) ∧
    ∀ results, (∀ x ∈ results, T x) → (next results).Keeps T R

variable {T : τ → Prop} {R : Except ClientError α → Prop}

theorem Keeps.yields {result : Except ClientError α} (keeps : p.Keeps T R)
    (run : p.Yields traces result) : R result := by
  induction run with
  | done => exact keeps
  | @failed r next e trace ends =>
    obtain ⟨i, outcome, q, -, here, settle⟩ := (Round.ends_error_iff ends e).mp rfl
    exact (keeps.1 q (List.mem_of_getElem? here) outcome).2 e settle
  | finished ends _ ih =>
    refine ih (keeps.2 _ ?_)
    intro x mem
    obtain ⟨i, got⟩ := List.mem_iff_getElem?.mp mem
    obtain ⟨q, outcome, here, -, settle⟩ := Round.ends_ok_answer ends got
    exact (keeps.1 q (List.mem_of_getElem? here) outcome).1 x settle

theorem Keeps.andThen {f : α → Except ClientError β × List Event}
    {S : Except ClientError β → Prop} (keeps : p.Keeps T R)
    (goes : ∀ first, R first → S (first.bind fun a => (f a).1)) : (p.andThen f).Keeps T S := by
  induction p with
  | done result events =>
    cases result with
    | error e => exact goes _ keeps
    | ok a => exact goes _ keeps
  | round r next ih =>
    refine ⟨?_, fun results given => ih results (keeps.2 results given)⟩
    intro q mem outcome
    obtain ⟨ok, error⟩ := keeps.1 q mem outcome
    exact ⟨ok, fun e settle => goes _ (error e settle)⟩

end Rebac.Dispatch.Program
