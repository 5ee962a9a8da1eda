import Rebac.Dispatch.Program
import Rebac.Proofs.Dispatch.Round

set_option autoImplicit false

/-! # Programs under every schedule -/

namespace Rebac.Dispatch.Program

variable {τ α β : Type} {traces : List Trace}

theorem Yields.runs {p : Program τ α} {result : Except ClientError α}
    (h : p.Yields traces result) : p.Runs traces := by
  induction h with
  | done => exact .idle
  | failed ends =>
    obtain ⟨s, run, -⟩ := ends
    exact .within run
  | finished ends _ ih => exact .beyond ends ih

theorem runs_first {r : Round τ} {next : List τ → Program τ α} {trace : Trace}
    (run : (round r next).Runs (trace :: traces)) : ∃ s, r.Runs s trace := by
  cases run with
  | within run => exact ⟨_, run⟩
  | beyond ends _ =>
    obtain ⟨s, run, -⟩ := ends
    exact ⟨s, run⟩

theorem runs_rest {r : Round τ} {next : List τ → Program τ α} {trace : Trace}
    (run : (round r next).Runs (trace :: traces)) : traces = [] ∨
      ∃ results, r.Ends trace (.ok results) ∧ (next results).Runs traces := by
  cases run with
  | within _ => exact .inl rfl
  | beyond ends later => exact .inr ⟨_, ends, later⟩

theorem yields_done {given result : Except ClientError α} {events : List Event} :
    (done given events : Program τ α).Yields traces result ↔ traces = [] ∧ result = given := by
  constructor
  · intro h
    cases h
    exact ⟨rfl, rfl⟩
  · rintro ⟨rfl, rfl⟩
    exact .done

theorem yields_refuse {e : ClientError} {result : Except ClientError α} :
    (refuse e : Program τ α).Yields traces result ↔ traces = [] ∧ result = .error e :=
  yields_done

theorem yields_round {r : Round τ} {next : List τ → Program τ α}
    {result : Except ClientError α} : (round r next).Yields traces result ↔
      (∃ trace e, r.Ends trace (.error e) ∧ traces = [trace] ∧ result = .error e) ∨
      ∃ trace later results, r.Ends trace (.ok results) ∧ traces = trace :: later ∧
        (next results).Yields later result := by
  constructor
  · intro h
    cases h with
    | failed ends => exact .inl ⟨_, _, ends, rfl, rfl⟩
    | finished ends tail => exact .inr ⟨_, _, _, ends, rfl, tail⟩
  · rintro (⟨trace, e, ends, rfl, rfl⟩ | ⟨trace, later, results, ends, rfl, tail⟩)
    · exact .failed ends
    · exact .finished ends tail

theorem yields_single {r : Round τ} {value : List τ → α} {events : List τ → List Event}
    {result : Except ClientError α} :
    (round r fun results => done (.ok (value results)) (events results)).Yields traces result ↔
      ∃ trace ending, r.Ends trace ending ∧ traces = [trace] ∧ result = ending.map value := by
  rw [yields_round]
  constructor
  · rintro (⟨trace, e, ends, rfl, rfl⟩ | ⟨trace, later, results, ends, rfl, tail⟩)
    · exact ⟨trace, _, ends, rfl, rfl⟩
    · obtain ⟨rfl, rfl⟩ := yields_done.mp tail
      exact ⟨trace, _, ends, rfl, rfl⟩
  · rintro ⟨trace, ending, ends, rfl, rfl⟩
    cases ending with
    | error e => exact .inl ⟨trace, e, ends, rfl, rfl⟩
    | ok results => exact .inr ⟨trace, [], results, ends, rfl, yields_done.mpr ⟨rfl, rfl⟩⟩

theorem yields_andThen {p : Program τ α} {f : α → Except ClientError β × List Event}
    {result : Except ClientError β} : (p.andThen f).Yields traces result ↔
      ∃ first, p.Yields traces first ∧ result = first.bind fun a => (f a).1 := by
  induction p generalizing traces with
  | done given events =>
    cases given with
    | error e =>
      simp only [andThen, yields_done]
      constructor
      · rintro ⟨rfl, rfl⟩
        exact ⟨_, ⟨rfl, rfl⟩, rfl⟩
      · rintro ⟨first, ⟨rfl, rfl⟩, rfl⟩
        exact ⟨rfl, rfl⟩
    | ok a =>
      simp only [andThen, yields_done]
      constructor
      · rintro ⟨rfl, rfl⟩
        exact ⟨_, ⟨rfl, rfl⟩, rfl⟩
      · rintro ⟨first, ⟨rfl, rfl⟩, rfl⟩
        exact ⟨rfl, rfl⟩
  | round r next ih =>
    simp only [andThen, yields_round]
    constructor
    · rintro (⟨trace, e, ends, rfl, rfl⟩ | ⟨trace, later, results, ends, rfl, tail⟩)
      · exact ⟨.error e, .inl ⟨trace, e, ends, rfl, rfl⟩, rfl⟩
      · obtain ⟨first, yields, eq⟩ := (ih results).mp tail
        exact ⟨first, .inr ⟨trace, later, results, ends, rfl, yields⟩, eq⟩
    · rintro ⟨first, ⟨trace, e, ends, rfl, rfl⟩ | ⟨trace, later, results, ends, rfl, tail⟩, eq⟩
      · exact .inl ⟨trace, e, ends, rfl, eq⟩
      · exact .inr ⟨trace, later, results, ends, rfl, (ih results).mpr ⟨first, tail, eq⟩⟩

theorem runs_andThen {p : Program τ α} {f : α → Except ClientError β × List Event} :
    (p.andThen f).Runs traces ↔ p.Runs traces := by
  induction p generalizing traces with
  | done given events =>
    constructor
    · intro run
      cases given <;> cases run <;> exact .idle
    · intro run
      cases run
      exact .idle
  | round r next ih =>
    rw [andThen]
    constructor
    · intro run
      cases run with
      | idle => exact .idle
      | within run => exact .within run
      | beyond ends later => exact .beyond ends ((ih _).mp later)
    · intro run
      cases run with
      | idle => exact .idle
      | within run => exact .within run
      | beyond ends later => exact .beyond ends ((ih _).mpr later)

end Rebac.Dispatch.Program
