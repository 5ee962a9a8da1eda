import Rebac.Retry.Policy
import Mathlib.Tactic.Ring

set_option autoImplicit false

/-! # Whole milliseconds -/

namespace Rebac

namespace Duration

variable {d : Duration} {n : Nat}

def longestMillis : Duration := ofMillis (2 ^ 64 - 1)

def whole (d : Duration) : Duration := ofMillis d.wholeMillis

theorem ext {d e : Duration} (same : d.nanos = e.nanos) : d = e := by
  cases d
  cases e
  cases same
  rfl

theorem nanos_ofNanos (lt : n < Nat.pow 2 64 * Nat.pow 10 9) : (ofNanos n).nanos = n := by
  rw [ofNanos, dif_pos lt]

theorem nanos_ofNanos_min (n : Nat) : (ofNanos n).nanos = min n greatest.nanos := by
  by_cases fits : n < Nat.pow 2 64 * Nat.pow 10 9
  · rw [nanos_ofNanos fits]
    exact (Nat.min_eq_left (Nat.le_sub_one_of_lt fits)).symm
  · have longest : ofNanos n = greatest := dif_neg fits
    rw [longest]
    exact (Nat.min_eq_right (Nat.le_trans (Nat.sub_le _ _) (Nat.le_of_not_lt fits))).symm

theorem nanos_le (d : Duration) : d.nanos ≤ greatest.nanos := Nat.le_sub_one_of_lt d.nanos_lt

theorem ofNanos_mono {m : Nat} (le : m ≤ n) : ofNanos m ≤ ofNanos n := by
  change (ofNanos m).nanos ≤ (ofNanos n).nanos
  rw [nanos_ofNanos_min, nanos_ofNanos_min]
  exact min_le_min_right _ le

theorem ofSeconds_mono {m : Nat} (le : m ≤ n) : ofSeconds m ≤ ofSeconds n :=
  ofNanos_mono (Nat.mul_le_mul_right _ le)

theorem nanos_min (d e : Duration) : (min d e).nanos = min d.nanos e.nanos := by
  have least : min d e = if d ≤ e then d else e := rfl
  rw [least]
  split
  · rename_i le
    exact (Nat.min_eq_left le).symm
  · rename_i gt
    exact (Nat.min_eq_right (Nat.le_of_not_le gt)).symm

theorem min_le_right (d e : Duration) : min d e ≤ e := by
  change (min d e).nanos ≤ e.nanos
  rw [nanos_min]
  exact Nat.min_le_right _ _

theorem min_mono {d e : Duration} (le : d ≤ e) (most : Duration) : min d most ≤ min e most := by
  change (min d most).nanos ≤ (min e most).nanos
  rw [nanos_min, nanos_min]
  exact min_le_min_right _ le

theorem nanos_min_ofNanos (n : Nat) (d : Duration) : (min (ofNanos n) d).nanos = min d.nanos n := by
  have within := d.nanos_le
  rw [nanos_min, nanos_ofNanos_min]
  omega

theorem millis64_eq (within : d ≤ longestMillis) : d.millis64 = d.wholeMillis := by
  have less : d.nanos ≤ (2 ^ 64 - 1) * 10 ^ 6 := within
  have millis : d.nanos / 10 ^ 6 ≤ 2 ^ 64 - 1 := by omega
  exact Nat.min_eq_left millis

theorem ofMillis_millis64 (within : d ≤ longestMillis) : ofMillis d.millis64 = d.whole := by
  rw [millis64_eq within, whole]

theorem whole_eq (whole : 10 ^ 6 ∣ d.nanos) : d.whole = d := by
  apply ext
  have cut : d.nanos / 10 ^ 6 * 10 ^ 6 = d.nanos := Nat.div_mul_cancel whole
  have fits : d.nanos / 10 ^ 6 * 10 ^ 6 < Nat.pow 2 64 * Nat.pow 10 9 := by
    rw [cut]
    exact d.nanos_lt
  exact (nanos_ofNanos fits).trans cut

end Duration

def Retry.Policy.whole (p : Retry.Policy) : Retry.Policy :=
  ⟨p.maxRetries, p.minWait.whole, p.maxWait.whole⟩

theorem Retry.Policy.whole_maxRetries (p : Retry.Policy) : p.whole.maxRetries = p.maxRetries := by
  obtain ⟨maxRetries, minWait, maxWait⟩ := p
  exact (rfl : (whole ⟨maxRetries, minWait, maxWait⟩).maxRetries = maxRetries)

end Rebac
