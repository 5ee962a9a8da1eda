import Rebac.Time.Calendar
import Mathlib.Tactic.IntervalCases
import Mathlib.Tactic.SplitIfs

set_option autoImplicit false

/-!
# The days of the calendar

The calendar is told day by day: a date is followed by the next day of its month, by the first of the
next month or by the first of the next year. The number that is worked out for a date is the number of
days that went by since the first of January 1970.
-/
namespace Rebac.Calendar

variable {year : Int} {month day n : Nat}

/-! ## Day numbers -/

theorem isLeapYear_iff (year : Int) :
    isLeapYear year = true ↔ year % 4 = 0 ∧ (year % 100 ≠ 0 ∨ year % 400 = 0) := by
  simp [isLeapYear]

/-- The days from the first of March of the year 0 to that of another year. -/
def beforeMarch (year : Int) : Int := year * 365 + year / 4 - year / 100 + year / 400

theorem beforeMarch_eras (year : Int) : year / 400 * 146097 + ((year - year / 400 * 400) * 365 +
    (year - year / 400 * 400) / 4 - (year - year / 400 * 400) / 100) = beforeMarch year := by
  have fourth : (year - year / 400 * 400) / 4 = year / 4 - year / 400 * 100 := by omega
  have hundredth : (year - year / 400 * 400) / 100 = year / 100 - year / 400 * 4 := by omega
  rw [fourth, hundredth, beforeMarch]
  omega

theorem beforeMarch_succ (year : Int) : beforeMarch (year + 1) =
    beforeMarch year + if isLeapYear (year + 1) then 366 else 365 := by
  have leap := isLeapYear_iff (year + 1)
  have fourth : (year + 1) / 4 = year / 4 + if (year + 1) % 4 = 0 then 1 else 0 := by omega
  have hundredth : (year + 1) / 100 = year / 100 + if (year + 1) % 100 = 0 then 1 else 0 := by
    omega
  have era : (year + 1) / 400 = year / 400 + if (year + 1) % 400 = 0 then 1 else 0 := by omega
  simp only [beforeMarch, fourth, hundredth, era, leap]
  split_ifs <;> omega

theorem beforeMarch_mono {a b : Int} (le : a ≤ b) : beforeMarch a ≤ beforeMarch b := by
  simp only [beforeMarch]
  omega

theorem dayNumber_eq (year : Int) (month day : Nat) : dayNumber year month day =
    beforeMarch (if month ≤ 2 then year - 1 else year) +
      ((153 * ((month + 9) % 12) + 2) / 5 + day - 1 : Nat) - 719468 := by
  simp only [← beforeMarch_eras, dayNumber]
  omega

theorem dayNumber_day (year : Int) (month : Nat) (least : 1 ≤ day) :
    dayNumber year month (day + 1) = dayNumber year month day + 1 := by
  simp only [dayNumber_eq]
  omega

theorem dayNumber_month (year : Int) (least : 1 ≤ month) (less : month < 12) :
    dayNumber year (month + 1) 1 = dayNumber year month (monthLength year month) + 1 := by
  have length := beforeMarch_succ (year - 1)
  rw [Int.sub_add_cancel] at length
  interval_cases month <;> simp only [dayNumber_eq, monthLength] <;> split_ifs at * <;> omega

theorem dayNumber_year (year : Int) : dayNumber (year + 1) 1 1 = dayNumber year 12 31 + 1 := by
  simp only [dayNumber_eq, Int.add_sub_cancel]
  split_ifs <;> omega

theorem le_dayNumber {start : Int} (since : start ≤ year) (least : 1 ≤ month) (most : month ≤ 12)
    (some : 1 ≤ day) : dayNumber start 1 1 ≤ dayNumber year month day := by
  have length := beforeMarch_succ (start - 1)
  rw [Int.sub_add_cancel] at length
  have before : beforeMarch (start - 1) ≤ beforeMarch (year - 1) := beforeMarch_mono (by omega)
  have after : beforeMarch start ≤ beforeMarch year := beforeMarch_mono since
  simp only [dayNumber_eq]
  split_ifs at * <;> omega

/-! ## One day after another -/

structure Date where
  year : Nat
  month : Nat
  day : Nat
  month_pos : 1 ≤ month
  month_le : month ≤ 12
  day_pos : 1 ≤ day
  day_le : day ≤ monthLength year month

theorem monthLength_pos (year : Int) (month : Nat) : 1 ≤ monthLength year month := by
  unfold monthLength
  split
  · split <;> decide
  all_goals decide

theorem monthLength_december (year : Int) : monthLength year 12 = 31 := rfl

namespace Date

variable {d e : Date}

def next (d : Date) : Date :=
  if more : d.day < monthLength d.year d.month then
    ⟨d.year, d.month, d.day + 1, d.month_pos, d.month_le, Nat.le_add_left _ _, more⟩
  else if more : d.month < 12 then
    ⟨d.year, d.month + 1, 1, Nat.le_add_left _ _, more, Nat.le_refl _, monthLength_pos _ _⟩
  else ⟨d.year + 1, 1, 1, Nat.le_refl _, by decide, Nat.le_refl _, monthLength_pos _ _⟩

def first : Date := ⟨1970, 1, 1, by decide, by decide, by decide, by decide⟩

def onDay : Nat → Date
  | 0 => first
  | n + 1 => (onDay n).next

def number (d : Date) : Int := dayNumber d.year d.month d.day

def fields (d : Date) : Nat × Nat × Nat := (d.year, d.month, d.day)

theorem ext (same : d.fields = e.fields) : d = e := by
  obtain ⟨year, month, day⟩ := d
  cases same
  rfl

def after (d : Date) : Nat × Nat × Nat :=
  if d.day < monthLength d.year d.month then (d.year, d.month, d.day + 1)
  else if d.month < 12 then (d.year, d.month + 1, 1)
  else (d.year + 1, 1, 1)

theorem fields_next (d : Date) : d.next.fields = d.after := by
  unfold next after
  by_cases day : d.day < monthLength d.year d.month
  · rw [dif_pos day, if_pos day]
    rfl
  · rw [dif_neg day, if_neg day]
    by_cases month : d.month < 12
    · rw [dif_pos month, if_pos month]
      rfl
    · rw [dif_neg month, if_neg month]
      rfl

theorem number_next (d : Date) : d.next.number = d.number + 1 := by
  have fields := d.fields_next
  unfold after at fields
  change dayNumber d.next.fields.1 d.next.fields.2.1 d.next.fields.2.2 = d.number + 1
  rw [fields]
  split
  · exact dayNumber_day _ _ d.day_pos
  · rename_i whole
    have last := Nat.le_antisymm d.day_le (Nat.le_of_not_lt whole)
    split
    · rename_i less
      rw [number, last]
      exact dayNumber_month _ d.month_pos less
    · rename_i december
      have month := Nat.le_antisymm d.month_le (Nat.le_of_not_lt december)
      rw [month, monthLength_december] at last
      rw [number, month, last, Int.natCast_succ]
      exact dayNumber_year _

theorem number_onDay (n : Nat) : (onDay n).number = n := by
  induction n with
  | zero => decide
  | succ n ih => rw [onDay, number_next, ih, Int.natCast_succ]

theorem number_nonneg (since : 1970 ≤ d.year) : 0 ≤ d.number := by
  have start : dayNumber 1970 1 1 = 0 := by decide
  rw [← start]
  exact le_dayNumber (Int.ofNat_le.mpr since) d.month_pos d.month_le d.day_pos

theorem year_le (within : d.number ≤ 2932896) : d.year ≤ 9999 := by
  refine Nat.le_of_not_lt fun late => ?_
  have start : dayNumber 10000 1 1 = 2932897 := by decide
  have after : dayNumber 10000 1 1 ≤ d.number :=
    le_dayNumber (Int.ofNat_le.mpr late) d.month_pos d.month_le d.day_pos
  omega

/-! ## Every date comes -/

theorem exists_previous (since : 1970 ≤ d.year) (other : d ≠ first) :
    ∃ e : Date, 1970 ≤ e.year ∧ e.next = d := by
  have month_pos := d.month_pos
  have month_le := d.month_le
  have day_le := d.day_le
  by_cases start : d.day = 1
  · by_cases january : d.month = 1
    · have later : d.year ≠ 1970 := fun year => other (ext (by rw [fields, year, january, start]; rfl))
      have year : d.year - 1 + 1 = d.year := by omega
      refine ⟨⟨d.year - 1, 12, 31, by decide, by decide, by decide, Nat.le_refl _⟩,
        Nat.le_sub_one_of_lt (by omega), ext ((fields_next _).trans ?_)⟩
      simp only [after, fields, monthLength_december, Nat.lt_irrefl, if_false, year, january, start]
    · have month : d.month - 1 + 1 = d.month := by omega
      have less : d.month - 1 < 12 := by omega
      refine ⟨⟨d.year, d.month - 1, monthLength d.year (d.month - 1), by omega, by omega,
        monthLength_pos _ _, Nat.le_refl _⟩, since, ext ((fields_next _).trans ?_)⟩
      simp only [after, fields, Nat.lt_irrefl, if_false, less, if_true, month, start]
  · have day_pos := d.day_pos
    have day : d.day - 1 + 1 = d.day := by omega
    have more : d.day - 1 < monthLength d.year d.month := by omega
    refine ⟨⟨d.year, d.month, d.day - 1, month_pos, month_le, by omega, by omega⟩, since,
      ext ((fields_next _).trans ?_)⟩
    simp only [after, fields, more, if_true, day]

theorem onDay_number (since : 1970 ≤ d.year) (counted : d.number = n) : onDay n = d := by
  induction n generalizing d with
  | zero =>
    by_cases start : d = first
    · exact start.symm
    · obtain ⟨e, earlier, rfl⟩ := exists_previous since start
      -- the day before would have a number below zero
      have before := e.number_next
      have positive := number_nonneg earlier
      omega
  | succ n ih =>
    have other : d ≠ first := by
      rintro rfl
      have zero : first.number = 0 := by decide
      omega
    obtain ⟨e, earlier, rfl⟩ := exists_previous since other
    have before := e.number_next
    rw [onDay, ih earlier (by omega)]

end Date

end Rebac.Calendar
