import Rebac.Time.Instant
import Mathlib.Algebra.Group.Int.Defs
import Mathlib.Algebra.Group.Nat.Defs
import Mathlib.Tactic.SplitIfs

set_option autoImplicit false

/-!
# The order of instants and their differences

The difference of two instants has the sign of their order and shrinks as the earlier one moves on, as
long as neither is a leap second. A leap second is counted by the times of day alone, so it comes out
wrong where a day ends between the two.
-/
namespace Rebac.Instant

variable {t start now later : Instant}

/-- A leap second comes after the second that it belongs to and before the next one. -/
instance : LE Instant := ⟨fun t u => t.secs < u.secs ∨ t.secs = u.secs ∧ t.nanos ≤ u.nanos⟩

instance (t u : Instant) : Decidable (t ≤ u) :=
  inferInstanceAs (Decidable (t.secs < u.secs ∨ t.secs = u.secs ∧ t.nanos ≤ u.nanos))

/-- No instant is two seconds into its second. -/
def Proper (t : Instant) : Prop := t.nanos < 2 * 10 ^ 9

instance (t : Instant) : Decidable t.Proper := inferInstanceAs (Decidable (t.nanos < 2 * 10 ^ 9))

/-- The nanoseconds since 1970, with those of a leap second on top of the second before it. -/
def elapsed (t : Instant) : Int := t.secs * 10 ^ 9 + t.nanos

theorem nanosSince_eq (t start : Instant) : t.nanosSince start = t.elapsed - start.elapsed +
    (if start.secondOfDay < t.secondOfDay ∧ start.isLeap then 10 ^ 9 else 0) -
    (if t.secondOfDay < start.secondOfDay ∧ t.isLeap then 10 ^ 9 else 0) := by
  have second : Int.pow 10 9 = 1000000000 := by decide
  cases earlier : start.isLeap <;> cases later : t.isLeap <;>
    simp only [nanosSince, second, elapsed, earlier, later, Bool.false_eq_true, ↓reduceIte,
      and_true, and_false] <;>
    split_ifs <;> omega

theorem nanosSince_steady (later : t.isLeap = false) (earlier : start.isLeap = false) :
    t.nanosSince start = t.elapsed - start.elapsed := by
  simp [nanosSince_eq, later, earlier]

theorem nanosSince_rises {k l : Int} (now : Instant) (le : k ≤ l) :
    (⟨k, 0⟩ : Instant).nanosSince now ≤ (⟨l, 0⟩ : Instant).nanosSince now := by
  have steady (k : Int) : isLeap ⟨k, 0⟩ = false := rfl
  rcases Int.lt_or_eq_of_le le with less | rfl
  · -- the seconds differ by one at least, and a leap second of `now` makes up for one at most
    simp only [nanosSince_eq, elapsed, steady, Bool.false_eq_true, and_false, if_false]
    split_ifs <;> omega
  · exact Int.le_refl _

/-! ## Leap seconds -/

theorem isLeap_iff (t : Instant) : t.isLeap = true ↔ 10 ^ 9 ≤ t.nanos := by
  simp [isLeap]

theorem steady_iff (t : Instant) : t.isLeap = false ↔ t.nanos < 10 ^ 9 := by
  simp [isLeap]

/-- The leap second at the end of a day, and the first second of the next day. -/
def Overruns (t now : Instant) : Prop :=
  t.isLeap ∧ t.secondOfDay = 86399 ∧ now.secs = t.secs + 1

/-- A leap second inside of a day, and two seconds with midnight between them. -/
def Crosses (t now later : Instant) : Prop :=
  t.isLeap ∧ t.secondOfDay < 86399 ∧ now.secondOfDay = 86399 ∧ later.secs = now.secs + 1

theorem nanosSince_past (past : t ≤ now) (within : ¬ Overruns t now) (proper : t.Proper) :
    t.nanosSince now ≤ 0 := by
  have few : t.nanos < 2 * 10 ^ 9 := proper
  simp only [Overruns, isLeap_iff, secondOfDay] at within
  have order : t.secs < now.secs ∨ t.secs = now.secs ∧ t.nanos ≤ now.nanos := past
  simp only [nanosSince_eq, elapsed, isLeap_iff, secondOfDay]
  split_ifs <;> omega

theorem nanosSince_overrun (overruns : Overruns t now) (proper : now.Proper) :
    t.nanosSince now = (t.nanos : Int) - 10 ^ 9 - now.nanos % 10 ^ 9 := by
  have few : now.nanos < 2 * 10 ^ 9 := proper
  simp only [Overruns, isLeap_iff, secondOfDay] at overruns
  simp only [nanosSince_eq, elapsed, isLeap_iff, secondOfDay]
  split_ifs <;> omega

theorem nanosSince_shrinks (order : now ≤ later) (first : now.isLeap = false)
    (last : later.isLeap = false) (within : ¬ Crosses t now later) :
    t.nanosSince later ≤ t.nanosSince now := by
  rw [steady_iff] at first last
  simp only [Crosses, isLeap_iff, secondOfDay] at within
  have order : now.secs < later.secs ∨ now.secs = later.secs ∧ now.nanos ≤ later.nanos := order
  simp only [nanosSince_eq, elapsed, isLeap_iff, secondOfDay]
  split_ifs <;> omega

/-- Leap seconds may make a difference grow, but never by two seconds. -/
theorem nanosSince_bounded (order : now ≤ later) (proper : now.Proper) (proper' : later.Proper) :
    t.nanosSince later < t.nanosSince now + 2 * 10 ^ 9 := by
  have few : now.nanos < 2 * 10 ^ 9 := proper
  have few' : later.nanos < 2 * 10 ^ 9 := proper'
  have order : now.secs < later.secs ∨ now.secs = later.secs ∧ now.nanos ≤ later.nanos := order
  simp only [nanosSince_eq, elapsed, isLeap_iff, secondOfDay]
  split_ifs <;> omega

end Rebac.Instant
