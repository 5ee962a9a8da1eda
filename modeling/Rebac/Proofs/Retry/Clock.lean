import Rebac.Proofs.Retry.Hint
import Rebac.Proofs.Time.Instant
import Rebac.Proofs.Time.Scan

set_option autoImplicit false

/-! # Waits and the clock -/

namespace Rebac

variable {cs rest : List Char} {t now later : Instant} {nanos : Nat}

/-! ## Instants that are read -/

theorem Instant.ofLocal?_nanos {day offset : Int} {hour minute second : Nat}
    (read : ofLocal? day hour minute second nanos offset = some t) : t.nanos ≤ nanos + 10 ^ 9 := by
  obtain ⟨-, read⟩ := Option.ite_none_right_eq_some.mp read
  obtain ⟨-, read⟩ := Option.ite_none_right_eq_some.mp read
  obtain rfl := Option.some.inj read
  simp only
  split
  · exact Nat.le_refl _
  · exact Nat.le_add_right _ _

theorem Timestamp.fraction_lt (taken : fraction cs = some (nanos, rest)) : nanos < 10 ^ 9 := by
  obtain ⟨⟨n, behind⟩, digits, scaled⟩ := Option.bind_eq_some_iff.mp taken
  obtain ⟨rfl, -⟩ := Prod.mk.inj (Option.some.inj scaled)
  obtain ⟨-, few, less⟩ := Scan.number_lt digits
  generalize cs.length - behind.length = width at few less
  calc n * 10 ^ (9 - width) < 10 ^ width * 10 ^ (9 - width) :=
        Nat.mul_lt_mul_of_pos_right less (Nat.pow_pos (by decide))
    _ = 10 ^ 9 := by rw [← Nat.pow_add, Nat.add_sub_cancel' few]

theorem Timestamp.subsecond_lt (taken : subsecond cs = some (nanos, rest)) : nanos < 10 ^ 9 := by
  unfold subsecond at taken
  split at taken
  · exact fraction_lt taken
  · obtain ⟨rfl, -⟩ := Prod.mk.inj (Option.some.inj taken)
    decide

theorem Timestamp.parse?_proper (read : parse? cs = some t) : t.Proper := by
  obtain ⟨⟨date, _⟩, -, read⟩ := Option.bind_eq_some_iff.mp read
  obtain ⟨_, -, read⟩ := Option.bind_eq_some_iff.mp read
  obtain ⟨⟨⟨hour, minute, second⟩, _⟩, -, read⟩ := Option.bind_eq_some_iff.mp read
  obtain ⟨⟨nanos, _⟩, fraction, read⟩ := Option.bind_eq_some_iff.mp read
  obtain ⟨⟨offset, _⟩, -, read⟩ := Option.bind_eq_some_iff.mp read
  have less := subsecond_lt fraction
  have most := Instant.ofLocal?_nanos (Option.ite_none_right_eq_some.mp read).2
  rw [Instant.Proper]
  omega

theorem MailDate.parse?_proper (read : parse? cs = some t) : t.Proper := by
  obtain ⟨⟨date, _⟩, -, read⟩ := Option.bind_eq_some_iff.mp read
  obtain ⟨_, -, read⟩ := Option.bind_eq_some_iff.mp read
  obtain ⟨⟨⟨hour, minute, second⟩, _⟩, -, read⟩ := Option.bind_eq_some_iff.mp read
  obtain ⟨_, -, read⟩ := Option.bind_eq_some_iff.mp read
  obtain ⟨⟨offset, _⟩, -, read⟩ := Option.bind_eq_some_iff.mp read
  have most := Instant.ofLocal?_nanos (Option.ite_none_right_eq_some.mp read).2
  rw [Instant.Proper]
  omega

namespace Retry.Hint

theorem ofSeconds?_proper {n : Int} (read : ofSeconds? n = some (.absolute t)) : t.Proper := by
  unfold ofSeconds? at read
  split at read
  · cases read
  · split at read
    · obtain rfl := Hint.absolute.inj (Option.some.inj read)
      have none : 0 < 2 * 10 ^ 9 := by decide
      exact none
    · cases read

theorem date?_proper (read : date? cs = some (.absolute t)) : t.Proper := by
  obtain ⟨u, parsed, same⟩ := Option.map_eq_some_iff.mp read
  obtain rfl := Hint.absolute.inj same
  rcases Option.or_eq_some_iff.mp parsed with mail | ⟨-, stamp⟩
  · exact MailDate.parse?_proper mail
  · exact Timestamp.parse?_proper stamp

theorem parse?_proper {text : String} (read : parse? text = some (.absolute t)) : t.Proper := by
  simp only [parse?] at read
  split at read
  · cases read
  · split at read
    · obtain ⟨delay, -, same⟩ := Option.map_eq_some_iff.mp read
      cases same
    · split at read
      · exact ofSeconds?_proper read
      · exact date?_proper read

/-! ## The wait for an instant -/

theorem nanos_delayFrom (t now : Instant) : (delayFrom now (.absolute t)).nanos =
    min (t.nanosSince now).toNat Duration.greatest.nanos :=
  Duration.nanos_ofNanos_min _

/-- The wait for an instant at two readings of the clock. -/
structure Passes (t now later : Instant) : Prop where
  past : t ≤ now → ¬ t.Overruns now → delayFrom now (.absolute t) = .zero
  /-- In the first second after a day with a leap second, the leap second is still waited for. -/
  overrun : t.Overruns now →
    (delayFrom now (.absolute t)).nanos = t.nanos - 10 ^ 9 - now.nanos % 10 ^ 9
  shrinks : now ≤ later → now.isLeap = false → later.isLeap = false → ¬ t.Crosses now later →
    delayFrom later (.absolute t) ≤ delayFrom now (.absolute t)
  bounded : now ≤ later → (delayFrom later (.absolute t)).nanos <
    (delayFrom now (.absolute t)).nanos + 2 * 10 ^ 9

/-- The wait for an instant that a hint names is over when the instant is past, unless it is a leap
second that ended the day before, and it shrinks from one reading of the clock to a later one, unless
a leap second is one of the three. -/
theorem wait_follows_clock {text : String} (read : parse? text = some (.absolute t))
    (proper : now.Proper) (proper' : later.Proper) : Passes t now later where
  past order within := by
    have none := Instant.nanosSince_past order within (parse?_proper read)
    apply Duration.ext
    rw [nanos_delayFrom, Int.toNat_of_nonpos none]
    rfl
  overrun overruns := by
    have exact := Instant.nanosSince_overrun overruns proper
    have few : t.nanos < 2 * 10 ^ 9 := parse?_proper read
    have longest : Duration.greatest.nanos = 2 ^ 64 * 10 ^ 9 - 1 := rfl
    rw [nanos_delayFrom, exact, longest]
    omega
  shrinks order first last within :=
    Duration.ofNanos_mono
      (Int.toNat_le_toNat (Instant.nanosSince_shrinks order first last within))
  bounded order := by
    have less := Instant.nanosSince_bounded (t := t) order proper proper'
    rw [nanos_delayFrom, nanos_delayFrom]
    omega

/-- The last half second of 2016 is a leap second. A fifth of a second into 2017 there are three tenths
left to wait for it, and a second into 2017 no more than that. -/
theorem leap_second_passes :
    parse? "2016-12-31T23:59:60.5Z" = some (.absolute ⟨1483228799, 1500000000⟩) ∧
    Passes ⟨1483228799, 1500000000⟩ ⟨1483228800, 200000000⟩ ⟨1483228801, 0⟩ ∧
    (delayFrom ⟨1483228800, 200000000⟩ (.absolute ⟨1483228799, 1500000000⟩)).nanos = 300000000 ∧
    delayFrom ⟨1483228801, 0⟩ (.absolute ⟨1483228799, 1500000000⟩) ≤
      delayFrom ⟨1483228800, 200000000⟩ (.absolute ⟨1483228799, 1500000000⟩) := by
  have read : parse? "2016-12-31T23:59:60.5Z" = some (.absolute ⟨1483228799, 1500000000⟩) := by
    decide +kernel
  have passes : Passes ⟨1483228799, 1500000000⟩ ⟨1483228800, 200000000⟩ ⟨1483228801, 0⟩ :=
    wait_follows_clock read (by decide) (by decide)
  refine ⟨read, passes, passes.overrun ⟨rfl, rfl, rfl⟩, passes.shrinks (by decide) rfl rfl ?_⟩
  rintro ⟨-, inside, -⟩
  exact absurd inside (by decide)

/-- At midnight the leap second before it is past and is still waited for, and a later instant is
farther away than it was half a second before. -/
theorem leap_second_outlasted :
    (parse? "2016-12-31T23:59:60.5Z" = some (.absolute ⟨1483228799, 1500000000⟩) ∧
      (⟨1483228799, 1500000000⟩ : Instant) ≤ ⟨1483228800, 0⟩ ∧
      delayFrom ⟨1483228800, 0⟩ (.absolute ⟨1483228799, 1500000000⟩) ≠ .zero) ∧
    (parse? "2017-01-01T00:00:10Z" = some (.absolute ⟨1483228810, 0⟩) ∧
      (⟨1483228799, 1500000000⟩ : Instant) ≤ ⟨1483228800, 0⟩ ∧
      ¬ delayFrom ⟨1483228800, 0⟩ (.absolute ⟨1483228810, 0⟩) ≤
        delayFrom ⟨1483228799, 1500000000⟩ (.absolute ⟨1483228810, 0⟩)) := by
  decide +kernel

end Retry.Hint

end Rebac
