import Rebac.Proofs.Time.Calendar
import Rebac.Proofs.Time.Scan
import Rebac.Time.MailDate
import Rebac.Time.Timestamp

set_option autoImplicit false

/-! # Instants in writing -/

namespace Rebac

open Number Calendar

variable {n : Nat} {d : Date} {rest : List Char}

/-! ## The texts -/

namespace Calendar

/-- The weekday so many days after the first of January 1970, which was a Thursday; Sunday is 0. -/
def weekdayOn : Nat → Nat
  | 0 => 4
  | n + 1 => if weekdayOn n = 6 then 0 else weekdayOn n + 1

def weekdayName (weekday : Nat) : List Char :=
  (["Sun", "Mon", "Tue", "Wed", "Thu", "Fri", "Sat"].getD weekday "").toList

def monthName (month : Nat) : List Char :=
  (["Jan", "Feb", "Mar", "Apr", "May", "Jun", "Jul", "Aug", "Sep", "Oct", "Nov", "Dec"].getD
    (month - 1) "").toList

def clock (n : Nat) : List Char :=
  padded 2 (n / 3600 % 24) ++ ':' :: padded 2 (n / 60 % 60) ++ ':' :: padded 2 (n % 60)

def Date.stamp (d : Date) : List Char :=
  padded 4 d.year ++ '-' :: padded 2 d.month ++ '-' :: padded 2 d.day

def Date.mail (d : Date) (weekday : Nat) : List Char :=
  weekdayName weekday ++ ',' :: ' ' :: padded 2 d.day ++ ' ' :: monthName d.month ++
    ' ' :: padded 4 d.year

def stamp (n : Nat) : List Char :=
  (Date.onDay (n / 86400)).stamp ++ 'T' :: clock n ++ ['Z']

def mail (n : Nat) : List Char :=
  (Date.onDay (n / 86400)).mail (weekdayOn (n / 86400)) ++ ' ' :: clock n ++ [' ', 'G', 'M', 'T']

end Calendar

/-! ## What is read back -/

namespace Calendar

theorem weekdayOn_eq (n : Nat) : weekdayOn n = (n + 4) % 7 := by
  induction n with
  | zero => rfl
  | succ n ih =>
    rw [weekdayOn, ih]
    split <;> omega

theorem weekdayOn_lt (n : Nat) : weekdayOn n < 7 := by
  rw [weekdayOn_eq]
  omega

theorem weekday_onDay (n : Nat) : weekday (Date.onDay n).number = weekdayOn n := by
  rw [Date.number_onDay, weekdayOn_eq, weekday]
  omega

theorem date?_eq (short : d.year < 10 ^ 4) : date? d.year d.month d.day = some d.number := by
  have least : leastYear ≤ d.year := by
    rw [leastYear]
    omega
  have greatest : (d.year : Int) ≤ greatestYear := by
    rw [greatestYear]
    omega
  exact if_pos ⟨least, greatest, d.month_pos, d.month_le, d.day_pos, d.day_le⟩

theorem month_short (d : Date) : d.month < 10 ^ 2 := Nat.lt_of_le_of_lt d.month_le (by decide)

theorem day_short (d : Date) : d.day < 10 ^ 2 := by
  have most : monthLength d.year d.month ≤ 31 := by
    unfold monthLength
    split
    · split <;> decide
    all_goals decide
  exact Nat.lt_of_le_of_lt (d.day_le.trans most) (by decide)

theorem clock_short (n : Nat) : n / 3600 % 24 < 10 ^ 2 ∧ n / 60 % 60 < 10 ^ 2 ∧ n % 60 < 10 ^ 2 := by
  omega

end Calendar

theorem Instant.ofLocal?_clock (within : (n : Int) ≤ lastSecond) :
    ofLocal? (n / 86400) (n / 3600 % 24) (n / 60 % 60) (n % 60) 0 0 = some ⟨n, 0⟩ := by
  have fields : n / 3600 % 24 < 24 ∧ n / 60 % 60 < 60 ∧ n % 60 ≤ 60 ∧ (-86400 : Int) < 0 ∧
      (0 : Int) < 86400 := by omega
  have common : ¬ n % 60 = 60 := by omega
  have whole : (n : Int) / 86400 * 86400 +
      ((n / 3600 % 24 * 3600 + n / 60 % 60 * 60 + n % 60 : Nat) : Int) - 0 = n := by omega
  simp only [ofLocal?, if_pos fields, common, if_false, whole, if_pos within]

def lastSecond : Nat := 253402300799

theorem dated (within : n ≤ lastSecond) : (n : Int) ≤ Instant.lastSecond := by
  rw [lastSecond] at within
  rw [Instant.lastSecond]
  omega

theorem onDay_short (within : n ≤ lastSecond) : (Date.onDay (n / 86400)).year < 10 ^ 4 := by
  rw [lastSecond] at within
  have last := Date.year_le (d := Date.onDay (n / 86400)) (by rw [Date.number_onDay]; omega)
  omega

namespace Timestamp

theorem date_stamp (short : d.year < 10 ^ 4) (rest : List Char) :
    date (d.stamp ++ rest) = some (d.number, rest) := by
  simp [date, Date.stamp, Scan.number_padded short (Nat.le_refl 4),
    Scan.number_padded (month_short d) (Nat.le_refl 2),
    Scan.number_padded (day_short d) (Nat.le_refl 2), Calendar.date?_eq short]

theorem time_clock (n : Nat) (rest : List Char) :
    time (clock n ++ rest) = some ((n / 3600 % 24, n / 60 % 60, n % 60), rest) := by
  obtain ⟨hour, minute, second⟩ := clock_short n
  simp [time, clock, Scan.number_padded hour (Nat.le_refl 2),
    Scan.number_padded minute (Nat.le_refl 2), Scan.number_padded second (Nat.le_refl 2)]

theorem parse?_stamp (within : n ≤ lastSecond) : parse? (stamp n) = some ⟨n, 0⟩ := by
  have short := onDay_short within
  have utc : offset ['Z'] = some (0, []) := rfl
  have whole : subsecond ['Z'] = some (0, ['Z']) := rfl
  rw [stamp, List.append_assoc]
  simp [parse?, date_stamp short, separator, time_clock, whole, utc, Date.number_onDay,
    Instant.ofLocal?_clock (dated within)]

end Timestamp

namespace MailDate

theorem weekdays_named : ∀ w < 7, (weekdayName w).length = 3 ∧
    weekdays.idxOf? (String.ofList ((weekdayName w).map Char.toLower)) = some w ∧
    Scan.Solid (weekdayName w) := by
  decide

theorem months_named : ∀ m < 12, (monthName (m + 1)).length = 3 ∧
    months.idxOf? (String.ofList ((monthName (m + 1)).map Char.toLower)) = some m ∧
    Scan.Solid (monthName (m + 1)) := by
  decide

theorem weekday_name {w : Nat} (less : w < 7) (rest : List Char) :
    weekday (weekdayName w ++ ',' :: rest) = some (some w, rest) := by
  obtain ⟨short, named, -⟩ := weekdays_named w less
  rw [weekday, Scan.shortName_append short named]
  simp

theorem year_padded {y : Nat} (short : y < 10 ^ 4) (stop : ∀ c ∈ rest.head?, isDigit c = false) :
    year (padded 4 y ++ rest) = some (y, rest) := by
  have enough : 2 ≤ 4 := by decide
  have full : fullYear 4 y = y := rfl
  simp [year, Scan.longNumber_padded short enough stop, length_padded, full]

theorem date_mail (short : d.year < 10 ^ 4) {w : Nat} (less : w < 7)
    (right : Calendar.weekday d.number = w) (rest : List Char) :
    date (d.mail w ++ ' ' :: rest) = some (d.number, ' ' :: rest) := by
  have stop : ∀ c ∈ (' ' :: rest).head?, isDigit c = false := by simp [isDigit, digitValue?]
  have month_pos := d.month_pos
  have month_le := d.month_le
  obtain ⟨wide, named, solid⟩ := months_named (d.month - 1) (by omega)
  rw [Nat.sub_add_cancel month_pos] at wide named solid
  have enough : 1 ≤ 2 := by decide
  simp [date, Date.mail, weekday_name less, Scan.blanks_space ((Scan.solid_padded 1 d.day).append _),
    Scan.number_padded (day_short d) enough, Scan.someBlanks_space (solid.append _), Scan.shortName_append wide named,
    Scan.someBlanks_space ((Scan.solid_padded 3 d.year).append _), year_padded short stop,
    Nat.sub_add_cancel month_pos, Calendar.date?_eq short, right]

theorem time_clock (n : Nat) (rest : List Char) :
    time (clock n ++ rest) = some ((n / 3600 % 24, n / 60 % 60, n % 60), rest) := by
  obtain ⟨hour, minute, second⟩ := clock_short n
  have colon (cs : List Char) : Scan.blanks (':' :: cs) = ':' :: cs :=
    Scan.blanks_solid (Scan.solid_cons (by decide) cs)
  simp [time, seconds, clock, Scan.number_padded hour (Nat.le_refl 2),
    Scan.number_padded minute (Nat.le_refl 2), Scan.number_padded second (Nat.le_refl 2), colon,
    Scan.blanks_solid ((Scan.solid_padded 1 (n / 60 % 60)).append _)]

theorem parse?_mail (within : n ≤ lastSecond) : parse? (mail n) = some ⟨n, 0⟩ := by
  have short := onDay_short within
  have less := weekdayOn_lt (n / 86400)
  have front : Scan.blanks (mail n) = mail n := by
    obtain ⟨-, -, solid⟩ := weekdays_named _ less
    refine Scan.blanks_solid ?_
    simp only [mail, Date.mail, List.append_assoc]
    exact solid.append _
  have utc : zone ['G', 'M', 'T'] = some (0, []) := by decide
  have solid : Scan.Solid (clock n) := by
    simp only [clock, List.append_assoc]
    exact (Scan.solid_padded 1 _).append _
  rw [parse?, front, mail, List.append_assoc]
  simp [date_mail short less (weekday_onDay _), Scan.someBlanks_space (solid.append _), time_clock,
    Scan.someBlanks_space (Scan.solid_cons (c := 'G') (by decide) _), utc, onlyComments,
    Date.number_onDay, Instant.ofLocal?_clock (dated within)]

end MailDate

end Rebac
