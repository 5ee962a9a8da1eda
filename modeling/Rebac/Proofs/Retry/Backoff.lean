import Rebac.Proofs.Client.Prepare
import Rebac.Proofs.Retry.Loop
import Mathlib.Algebra.Group.Nat.Defs

set_option autoImplicit false

/-! # Waits without a hint -/

namespace Rebac

namespace Duration

/-- A multiple of a duration, worked out on its seconds and on its nanoseconds, with the seconds that
the nanoseconds make carried over. There is none where the seconds leave 64 bits. -/
def multiple? (d : Duration) (factor : Nat) : Option (Nat × Nat) :=
  let nanos := d.subsecond * factor
  let secs := d.seconds * factor
  let carried := secs + nanos / 10 ^ 9
  if secs < 2 ^ 64 ∧ carried < 2 ^ 64 then some (carried, nanos % 10 ^ 9) else none

theorem times_parts (d : Duration) (factor : Nat) :
    ((d.times factor).seconds, (d.times factor).subsecond) =
      (d.multiple? factor).getD (greatest.seconds, greatest.subsecond) := by
  have split : d.nanos * factor = d.subsecond * factor + d.seconds * factor * 10 ^ 9 := by
    have parts : d.nanos % 10 ^ 9 + 10 ^ 9 * (d.nanos / 10 ^ 9) = d.nanos := Nat.mod_add_div _ _
    calc d.nanos * factor
        = (d.nanos % 10 ^ 9 + 10 ^ 9 * (d.nanos / 10 ^ 9)) * factor := by rw [parts]
      _ = d.subsecond * factor + d.seconds * factor * 10 ^ 9 := by
          rw [Nat.add_mul, Nat.mul_assoc, Nat.mul_comm (10 ^ 9)]
          rfl
  have seconds : d.nanos * factor / 10 ^ 9 = d.seconds * factor + d.subsecond * factor / 10 ^ 9 := by
    rw [split, Nat.add_mul_div_right _ _ (by decide), Nat.add_comm]
  have subsecond : d.nanos * factor % 10 ^ 9 = d.subsecond * factor % 10 ^ 9 := by
    rw [split, Nat.add_mul_mod_self_right]
  by_cases fits : d.nanos * factor < Nat.pow 2 64 * Nat.pow 10 9
  · have few : d.nanos * factor / 10 ^ 9 < 2 ^ 64 := Nat.div_lt_of_lt_mul (Nat.mul_comm _ _ ▸ fits)
    have each : d.seconds * factor < 2 ^ 64 ∧
        d.seconds * factor + d.subsecond * factor / 10 ^ 9 < 2 ^ 64 := by omega
    have exact : (d.times factor).nanos = d.nanos * factor := nanos_ofNanos fits
    simp only [multiple?, if_pos each, Option.getD_some]
    rw [← seconds, ← subsecond, ← exact]
    rfl
  · have longest : d.times factor = greatest := dif_neg fits
    have many : 2 ^ 64 ≤ d.nanos * factor / 10 ^ 9 :=
      (Nat.le_div_iff_mul_le (by decide)).mpr (Nat.le_of_not_lt fits)
    have beyond : ¬ (d.seconds * factor < 2 ^ 64 ∧
        d.seconds * factor + d.subsecond * factor / 10 ^ 9 < 2 ^ 64) := by omega
    rw [longest]
    simp only [multiple?, if_neg beyond, Option.getD_none]

end Duration

namespace Retry.Policy

variable (p : Policy) {a b : Nat}

/-! ## The power of two -/

theorem factor_eq (few : a < 32) : factor a = 2 ^ a := if_pos few

theorem factor_le (a : Nat) : factor a ≤ 2 ^ a := by
  by_cases few : a < 32
  · exact Nat.le_of_eq (factor_eq few)
  · have greatest : factor a = 2 ^ 32 - 1 := if_neg few
    have more : 2 ^ 32 ≤ 2 ^ a := Nat.pow_le_pow_right (by decide) (Nat.le_of_not_lt few)
    omega

theorem factor_mono (le : a ≤ b) : factor a ≤ factor b := by
  by_cases few : b < 32
  · rw [factor_eq few, factor_eq (Nat.lt_of_le_of_lt le few)]
    exact Nat.pow_le_pow_right (by decide) le
  · have greatest : factor b = 2 ^ 32 - 1 := if_neg few
    rw [greatest]
    by_cases less : a < 32
    · have bound : 2 ^ a < 2 ^ 32 := Nat.pow_lt_pow_right (by decide) less
      rw [factor_eq less]
      omega
    · exact Nat.le_of_eq (if_neg less)

/-! ## The wait of an attempt -/

theorem nanos_backoff (a : Nat) :
    (p.backoff a).nanos = min p.maxWait.nanos (p.minWait.nanos * factor a) :=
  Duration.nanos_min_ofNanos _ _

theorem backoff_mono (le : a ≤ b) : p.backoff a ≤ p.backoff b := by
  change (p.backoff a).nanos ≤ (p.backoff b).nanos
  rw [nanos_backoff, nanos_backoff]
  exact min_le_min_left _ (Nat.mul_le_mul_left _ (factor_mono le))

theorem backoff_doubled (few : a < 32) :
    (p.backoff a).nanos = min p.maxWait.nanos (p.minWait.nanos * 2 ^ a) := by
  rw [nanos_backoff, factor_eq few]

theorem backoff_le_doubled (a : Nat) : (p.backoff a).nanos ≤ p.minWait.nanos * 2 ^ a := by
  rw [nanos_backoff]
  exact (Nat.min_le_right _ _).trans (Nat.mul_le_mul_left _ (factor_le a))

theorem maxRetries_le (valid : p.validate = .ok ()) : p.maxRetries ≤ allowedRetries := by
  refine Nat.le_of_not_lt fun many => ?_
  obtain ⟨cause, refused⟩ := Client.validate_refuses.mpr many
  rw [valid] at refused
  cases refused

theorem reached_lt (valid : p.validate = .ok ()) {now : Nat → Instant} {outcomes : Nat → Outcome}
    (reached : a ≤ (p.run now outcomes).waits.length) : a < 32 := by
  obtain ⟨k, decided⟩ := decided_exists p outcomes
  rw [run_decided now decided, List.length_map, List.length_range] at reached
  have within := decided.within
  have most := p.maxRetries_le valid
  rw [allowedRetries] at most
  omega

theorem wait_unhinted {now : Nat → Instant} {outcomes : Nat → Outcome} {wait : Duration}
    (waited : (p.run now outcomes).waits[a]? = some wait)
    (unhinted : (outcomes a).hint?.bind Hint.parse? = none) : wait = p.backoff a := by
  obtain ⟨k, decided⟩ := decided_exists p outcomes
  rw [run_decided now decided, List.getElem?_map, Option.map_eq_some_iff] at waited
  obtain ⟨i, there, rfl⟩ := waited
  obtain ⟨-, rfl⟩ := List.getElem?_eq_some_iff.mp there
  rw [List.getElem_range, waitAfter, delayFor, unhinted]

structure BacksOff (p : Policy) : Prop where
  rises : ∀ a b, a ≤ b → p.backoff a ≤ p.backoff b
  capped : ∀ a, p.backoff a ≤ p.maxWait
  within : ∀ a, (p.backoff a).nanos ≤ p.minWait.nanos * 2 ^ a
  exact : ∀ a < 32, (p.backoff a).nanos = min p.maxWait.nanos (p.minWait.nanos * 2 ^ a)
  /-- From the attempt 32 on the power of two is one less than that of 32. -/
  level : ∀ a, 32 ≤ a →
    (p.backoff a).nanos = min p.maxWait.nanos (p.minWait.nanos * (2 ^ 32 - 1))
  /-- The seconds and nanoseconds of a multiple are those worked out apart, unless it is the greatest. -/
  parts : ∀ a, ((p.minWait.times (factor a)).seconds, (p.minWait.times (factor a)).subsecond) =
    (p.minWait.multiple? (factor a)).getD (Duration.greatest.seconds, Duration.greatest.subsecond)
  reached : p.validate = .ok () → ∀ now outcomes a, a ≤ (p.run now outcomes).waits.length →
    (p.backoff a).nanos = min p.maxWait.nanos (p.minWait.nanos * 2 ^ a)
  waited : ∀ now outcomes a wait, (p.run now outcomes).waits[a]? = some wait →
    (outcomes a).hint?.bind Hint.parse? = none → wait = p.backoff a

/-- The wait never falls from one attempt to a later one and never passes the longest wait. It is the
least wait times a power of two, to the nanosecond, at every attempt that the loop can come to. -/
theorem backoff_exact (p : Policy) : p.BacksOff where
  rises _ _ := p.backoff_mono
  capped _ := Duration.min_le_right _ _
  within := p.backoff_le_doubled
  exact _ := p.backoff_doubled
  level a many := by
    have greatest : factor a = 2 ^ 32 - 1 := if_neg (Nat.not_lt.mpr many)
    rw [nanos_backoff, greatest]
  parts a := p.minWait.times_parts (factor a)
  reached valid _ _ _ there := p.backoff_doubled (p.reached_lt valid there)
  waited _ _ _ _ := p.wait_unhinted

def farApart : Policy := ⟨15, .ofNanos ((2 ^ 60 + 1) * 10 ^ 9 - 1), .greatest⟩

/-- Eight times as long is eight nanoseconds short of `2 ^ 63 + 8` seconds, and from the attempt 4 on
all waits are as long as there are. -/
theorem farApart_exact : farApart.validate = .ok () ∧
    (farApart.backoff 3).nanos = (2 ^ 63 + 8) * 10 ^ 9 - 8 ∧
    (farApart.backoff 4).nanos = Duration.greatest.nanos ∧
    farApart.backoff 4 ≤ farApart.backoff 40 := by
  have exact := backoff_exact farApart
  refine ⟨rfl, (exact.exact 3 (by decide)).trans (by decide +kernel),
    (exact.exact 4 (by decide)).trans (by decide +kernel), exact.rises 4 40 (by decide)⟩

end Retry.Policy

end Rebac
