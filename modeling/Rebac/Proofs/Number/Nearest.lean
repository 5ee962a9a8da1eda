import Rebac.Number.Double
import Mathlib.Algebra.Group.Nat.Defs
import Mathlib.Data.Nat.Log

set_option autoImplicit false

/-! # Whole numbers as doubles -/

namespace Rebac.Double

variable {m n den : Nat}

/-! ## Rounded quotients -/

theorem roundQuotient_mul (k : Nat) (positive : 0 < den) : roundQuotient (k * den) den = k := by
  simp [roundQuotient, Nat.mul_div_left k positive, positive]

theorem roundQuotient_mono (le : m ≤ n) : roundQuotient m den ≤ roundQuotient n den := by
  have quotients : m / den ≤ n / den := Nat.div_le_div_right le
  have first := Nat.div_add_mod m den
  have second := Nat.div_add_mod n den
  simp only [roundQuotient]
  rcases Nat.lt_or_eq_of_le quotients with less | same
  · split_ifs <;> omega
  · rw [same] at first ⊢
    have remainders : m % den ≤ n % den := by omega
    split_ifs <;> omega

/-! ## The nearest double -/

/-- The distance of the doubles around a whole number, or one where that is less. -/
def unit (n : Nat) : Nat := 2 ^ (n.log2 - 52)

def nearest (n : Nat) : Nat := roundQuotient n (unit n) * unit n

theorem unit_pos (n : Nat) : 0 < unit n := Nat.two_pow_pos _

theorem lt_units (n : Nat) : n < 2 ^ 53 * unit n := by
  have bits : n < 2 ^ (n.log2 + 1) := Nat.lt_log2_self
  rw [unit, ← Nat.pow_add]
  exact Nat.lt_of_lt_of_le bits (Nat.pow_le_pow_right (by decide) (by omega))

theorem units_le (wide : 52 ≤ n.log2) : 2 ^ 52 * unit n ≤ n := by
  have some : n ≠ 0 := by
    rintro rfl
    exact absurd wide (by decide)
  rw [unit, ← Nat.pow_add, Nat.add_sub_cancel' wide]
  exact Nat.log2_self_le some

theorem nearest_le (n : Nat) : nearest n ≤ 2 ^ 53 * unit n := by
  have most : roundQuotient n (unit n) ≤ roundQuotient (2 ^ 53 * unit n) (unit n) :=
    roundQuotient_mono (Nat.le_of_lt (lt_units n))
  rw [roundQuotient_mul _ (unit_pos n)] at most
  exact Nat.mul_le_mul_right _ most

theorem le_nearest (wide : 52 ≤ n.log2) : 2 ^ 52 * unit n ≤ nearest n := by
  have least : roundQuotient (2 ^ 52 * unit n) (unit n) ≤ roundQuotient n (unit n) :=
    roundQuotient_mono (units_le wide)
  rw [roundQuotient_mul _ (unit_pos n)] at least
  exact Nat.mul_le_mul_right _ least

theorem nearest_eq (short : n.log2 ≤ 52) : nearest n = n := by
  have one : unit n = 1 := by
    rw [unit, Nat.sub_eq_zero_of_le short, Nat.pow_zero]
  rw [nearest, one, Nat.mul_one]
  simpa using roundQuotient_mul n Nat.one_pos

/-- Rounding keeps the order: a number with a greater unit is not less than any with a smaller. -/
theorem nearest_mono (le : m ≤ n) : nearest m ≤ nearest n := by
  have bits : m.log2 ≤ n.log2 := by
    simpa only [Nat.log2_eq_log_two] using Nat.log_mono_right le
  by_cases same : m.log2 - 52 = n.log2 - 52
  · have units : unit m = unit n := congrArg (2 ^ ·) same
    rw [nearest, nearest, units]
    exact Nat.mul_le_mul_right _ (roundQuotient_mono le)
  · have wide : 52 ≤ n.log2 := by omega
    have doubled : 2 * unit m ≤ unit n := by
      rw [unit, ← Nat.pow_succ']
      exact Nat.pow_le_pow_right (by decide) (by omega)
    calc nearest m ≤ 2 ^ 53 * unit m := nearest_le m
      _ = 2 ^ 52 * (2 * unit m) := by omega
      _ ≤ 2 ^ 52 * unit n := Nat.mul_le_mul_left _ doubled
      _ ≤ nearest n := le_nearest wide

/-! ## Doubles of whole numbers -/

def IsWhole (significand : Nat) (exponent : Int) (k : Nat) : Prop :=
  (magnitude significand exponent).1 = k * (magnitude significand exponent).2

theorem magnitude_pos (significand : Nat) (exponent : Int) :
    0 < (magnitude significand exponent).2 := by
  cases exponent with
  | ofNat k => exact Nat.one_pos
  | negSucc k => exact Nat.two_pow_pos _

def wholeExponent (n : Nat) : Int := n.log2 - 52

/-- A whole number is scaled to 53 bits and rounded; what is rounded up to 54 bits is halved. -/
theorem ofNat_eq {scaled : Nat × Nat} (positive : n ≠ 0)
    (parts : unscaled n 1 (wholeExponent n) = scaled) (full : scaled.2 * 2 ^ 52 ≤ scaled.1) :
    ofNat n =
      if roundQuotient scaled.1 scaled.2 = 2 ^ 53 then
        if greatestExponent < wholeExponent n + 1 then .infinite false
        else .finite false (2 ^ 52) (wholeExponent n + 1)
      else if greatestExponent < wholeExponent n then .infinite false
      else .finite false (roundQuotient scaled.1 scaled.2) (wholeExponent n) := by
  have guess : (n.log2 : Int) - ((1 : Nat).log2 : Int) - 52 = wholeExponent n := by
    rw [show (1 : Nat).log2 = 0 from rfl, wholeExponent]
    omega
  have least : max (wholeExponent n) leastExponent = wholeExponent n := by
    rw [wholeExponent, leastExponent]
    omega
  simp only [ofNat, ofRatio, if_neg positive, guess, parts, Nat.pow_eq, Nat.not_lt.mpr full,
    ↓reduceIte, least, beq_iff_eq]
  split <;> rfl

theorem ofNat_short (positive : n ≠ 0) (short : n.log2 < 52) :
    ∃ significand exponent, ofNat n = .finite false significand exponent ∧
      IsWhole significand exponent (nearest n) := by
  obtain ⟨k, bits⟩ : ∃ k, n.log2 + (k + 1) = 52 := ⟨51 - n.log2, by omega⟩
  have exponent : wholeExponent n = .negSucc k := by
    rw [wholeExponent]
    omega
  have full : 1 * 2 ^ 52 ≤ n * 2 ^ (k + 1) := by
    rw [Nat.one_mul, ← bits, Nat.pow_add]
    exact Nat.mul_le_mul_right _ (Nat.log2_self_le positive)
  have fits : n * 2 ^ (k + 1) < 2 ^ 53 := by
    rw [show 53 = n.log2 + 1 + (k + 1) by omega, Nat.pow_add 2 (n.log2 + 1)]
    exact Nat.mul_lt_mul_of_pos_right Nat.lt_log2_self (Nat.two_pow_pos _)
  have whole : roundQuotient (n * 2 ^ (k + 1)) 1 = n * 2 ^ (k + 1) := by
    simpa using roundQuotient_mul (n * 2 ^ (k + 1)) Nat.one_pos
  have scaled : unscaled n 1 (wholeExponent n) = (n * 2 ^ (k + 1), 1) := by
    rw [exponent]
    rfl
  have within : ¬ greatestExponent < .negSucc k := by
    rw [greatestExponent]
    omega
  refine ⟨n * 2 ^ (k + 1), .negSucc k, ?_, ?_⟩
  · rw [ofNat_eq positive scaled full, whole, if_neg (Nat.ne_of_lt fits), exponent, if_neg within]
  · rw [IsWhole, nearest_eq (Nat.le_of_lt short)]
    rfl

theorem ofNat_wide (wide : 52 ≤ n.log2) : (ofNat n = .infinite false ∧ 2 ^ 64 ≤ nearest n) ∨
    ∃ significand exponent, ofNat n = .finite false significand exponent ∧
      IsWhole significand exponent (nearest n) := by
  have positive : n ≠ 0 := by
    rintro rfl
    exact absurd wide (by decide)
  obtain ⟨j, bits⟩ : ∃ j, n.log2 = 52 + j := Nat.exists_eq_add_of_le wide
  have exponent : wholeExponent n = .ofNat j := by
    rw [wholeExponent, Int.ofNat_eq_natCast]
    omega
  have unit_eq : unit n = 2 ^ j := by
    rw [unit, bits, Nat.add_sub_cancel_left]
  have scaled : unscaled n 1 (wholeExponent n) = (n, unit n) := by
    rw [exponent, unscaled, Nat.one_mul, unit_eq]
    rfl
  have full : unit n * 2 ^ 52 ≤ n := by
    rw [Nat.mul_comm]
    exact units_le wide
  -- an exponent that is too great is that of a number with more than 1000 bits
  have huge (far : 970 < j) : 2 ^ 64 ≤ nearest n := by
    refine Nat.le_trans ?_ (le_nearest wide)
    rw [unit_eq, ← Nat.pow_add]
    exact Nat.pow_le_pow_right (by decide) (by omega)
  rw [ofNat_eq positive scaled full, exponent]
  by_cases carried : roundQuotient n (unit n) = 2 ^ 53
  · rw [if_pos carried]
    by_cases far : greatestExponent < .ofNat j + 1
    · rw [if_pos far]
      refine .inl ⟨rfl, huge ?_⟩
      rw [greatestExponent, Int.ofNat_eq_natCast] at far
      omega
    · rw [if_neg far]
      refine .inr ⟨2 ^ 52, .ofNat (j + 1), rfl, ?_⟩
      rw [IsWhole, nearest, carried, unit_eq]
      change 2 ^ 52 * 2 ^ (j + 1) = 2 ^ 53 * 2 ^ j * 1
      omega
  · rw [if_neg carried]
    by_cases far : greatestExponent < .ofNat j
    · rw [if_pos far]
      refine .inl ⟨rfl, huge ?_⟩
      rw [greatestExponent, Int.ofNat_eq_natCast] at far
      omega
    · rw [if_neg far]
      refine .inr ⟨roundQuotient n (unit n), .ofNat j, rfl, ?_⟩
      rw [IsWhole, nearest, unit_eq]
      exact (Nat.mul_one _).symm

theorem ofNat_whole (positive : n ≠ 0) : (ofNat n = .infinite false ∧ 2 ^ 64 ≤ nearest n) ∨
    ∃ significand exponent, ofNat n = .finite false significand exponent ∧
      IsWhole significand exponent (nearest n) := by
  rcases Nat.lt_or_ge n.log2 52 with short | wide
  · exact .inr (ofNat_short positive short)
  · exact ofNat_wide wide

theorem isWhole_zero (exponent : Int) : IsWhole 0 exponent 0 := by
  cases exponent <;> simp [IsWhole, magnitude]

theorem ofDecimal_whole (n : Nat) : (ofDecimal false n 0 = .infinite false ∧ 2 ^ 64 ≤ nearest n) ∨
    ∃ significand exponent, ofDecimal false n 0 = .finite false significand exponent ∧
      IsWhole significand exponent (nearest n) := by
  by_cases none : n = 0
  · subst none
    rw [nearest_eq (by decide)]
    exact .inr ⟨0, leastExponent, rfl, isWhole_zero _⟩
  by_cases long : (310 : Int) < 0 + decimalLength n
  · have huge : 2 ^ 64 ≤ n := by
      refine Nat.le_of_not_lt fun less => ?_
      have short := (Nat.length_toDigits_le_iff (b := 10) (n := n) (k := 20)
        (by decide) (by decide)).mpr (by omega)
      rw [decimalLength] at long
      omega
    refine .inl ⟨?_, ?_⟩
    · simp only [ofDecimal, if_neg none, if_pos long]
    · exact Nat.le_trans (by decide +kernel) (nearest_mono huge)
  · have direct : ofDecimal false n 0 = ofNat n := by
      have near : ¬ (0 : Int) + decimalLength n < -330 := by omega
      simp only [ofDecimal, if_neg none, if_neg long, if_neg near]
      exact congrArg (ofRatio false · 1) (Nat.mul_one n)
    rw [direct]
    exact ofNat_whole none

end Rebac.Double
