import Rebac.Proofs.Number.Digits
import Rebac.Proofs.Number.Nearest
import Rebac.Proofs.Time.Duration
import Rebac.Proofs.Time.Instant

set_option autoImplicit false

/-! # Longer hints -/

namespace Rebac

variable {m n : Nat}

/-! ## Whole seconds -/

namespace Duration

theorem ofDouble?_whole {significand k : Nat} {exponent : Int}
    (whole : Double.IsWhole significand exponent k) :
    ofDouble? (.finite false significand exponent) =
      if 2 ^ 64 ≤ k then none else some (ofSeconds k) := by
  have positive := Double.magnitude_pos significand exponent
  have seconds : Double.roundQuotient ((Double.magnitude significand exponent).1 * Nat.pow 10 9)
      (Double.magnitude significand exponent).2 = k * Nat.pow 10 9 := by
    rw [whole, Nat.mul_right_comm]
    exact Double.roundQuotient_mul _ positive
  have limit : Nat.pow 2 64 * (Double.magnitude significand exponent).2 ≤
      (Double.magnitude significand exponent).1 ↔ 2 ^ 64 ≤ k := by
    rw [whole]
    exact Nat.mul_le_mul_right_iff positive
  simp only [ofDouble?, Bool.false_eq_true, ↓reduceIte, limit, seconds]
  rfl

theorem ofDouble?_decimal (n : Nat) : ofDouble? (.ofDecimal false n 0) =
    if 2 ^ 64 ≤ Double.nearest n then none else some (ofSeconds (Double.nearest n)) := by
  rcases Double.ofDecimal_whole n with ⟨eq, beyond⟩ | ⟨significand, exponent, eq, whole⟩
  · rw [eq, if_pos beyond]
    rfl
  · rw [eq, ofDouble?_whole whole]

end Duration

theorem Instant.untilFrom_mono {k l : Int} (now : Instant) (le : k ≤ l) :
    now.untilFrom ⟨k, 0⟩ ≤ now.untilFrom ⟨l, 0⟩ :=
  Duration.ofNanos_mono (Int.toNat_le_toNat (nanosSince_rises now le))

namespace Retry

namespace Hint

open Number

/-- From here on a number with `s` is rounded to more seconds than any duration has. -/
def tooLong : Nat := 2 ^ 64 - 2 ^ 10

theorem nearest_lt_iff : Double.nearest n < 2 ^ 64 ↔ n < tooLong := by
  constructor
  · intro less
    refine Nat.lt_of_not_le fun long => Nat.not_le_of_lt less ?_
    exact Nat.le_trans (by decide +kernel) (Double.nearest_mono long)
  · intro less
    have below : n ≤ tooLong - 1 := Nat.le_sub_one_of_lt less
    exact Nat.lt_of_le_of_lt (Double.nearest_mono below) (by decide +kernel)

/-! ## Hints that are numbers -/

def withUnit (n : Nat) : String := toString n ++ "s"

theorem toString_digits (n : Nat) : (toString n).toList = Nat.toDigits 10 n := toString_nat n

theorem suffixed?_other {cs : List Char} (last : cs.getLast? ≠ some 's') : suffixed? cs = none := by
  unfold suffixed?
  split
  · rename_i rest eq
    refine absurd ?_ last
    rw [List.getLast?_eq_head?_reverse, eq]
    rfl
  · rfl

theorem parse?_unitless {text : String} {cs : List Char} (left : Text.trim text.toList = cs)
    (filled : cs ≠ []) (last : cs.getLast? ≠ some 's') :
    parse? text = (readInt64? cs).elim (date? cs) ofSeconds? := by
  simp only [parse?, left, filled, ↓reduceIte, suffixed?_other last]
  cases readInt64? cs with
  | none => rfl
  | some n => rfl

theorem weekdays_letters :
    (MailDate.weekdays.all fun day => day.toList.all fun c => !isDigit c) = true := by
  decide

theorem shortName_digits {c : Char} {rest : List Char} (digit : isDigit c) :
    Scan.shortName MailDate.weekdays (c :: rest) = none := by
  rw [Scan.shortName, Option.map_eq_none_iff, List.idxOf?_eq_none_iff]
  intro day
  have letters := List.all_eq_true.mp weekdays_letters _ day
  have letter := List.all_eq_true.mp letters c (by simp [toLower_digit digit])
  rw [digit] at letter
  cases letter

theorem mailDate_digits {a b c : Char} {rest : List Char} (first : isDigit a) (second : isDigit b)
    (third : isDigit c) : MailDate.parse? (a :: b :: c :: rest) = none := by
  have start : Scan.blanks (a :: b :: c :: rest) = a :: b :: c :: rest :=
    List.dropWhile_cons_of_neg (by simp [isBlank_digit first])
  have digits : Scan.number 1 2 (a :: b :: c :: rest) = some (ofDigits [a, b], c :: rest) := by
    simp [Scan.number, first, second]
  have stuck : Scan.someBlanks (c :: rest) = none := by
    simp [Scan.someBlanks, isBlank_digit third]
  have unnamed : MailDate.weekday (a :: b :: c :: rest) = some (none, a :: b :: c :: rest) := by
    rw [MailDate.weekday, shortName_digits first]
  have undated : MailDate.date (a :: b :: c :: rest) = none := by
    simp [MailDate.date, unnamed, start, digits, stuck]
  simp [MailDate.parse?, start, undated]

theorem timestamp_digits {a b c d e : Char} {rest : List Char}
    (digits : ∀ x ∈ [a, b, c, d, e], isDigit x) :
    Timestamp.parse? (a :: b :: c :: d :: e :: rest) = none := by
  simp only [List.forall_mem_cons] at digits
  have year : Scan.number 4 4 (a :: b :: c :: d :: e :: rest) =
      some (ofDigits [a, b, c, d], e :: rest) := by
    simp [Scan.number, digits]
  have other : e ≠ '-' := digit_ne digits.2.2.2.2.1 (.inl (by decide))
  have stuck : Scan.char '-' (e :: rest) = none := if_neg other
  have undated : Timestamp.date (a :: b :: c :: d :: e :: rest) = none := by
    simp [Timestamp.date, year, stuck]
  simp [Timestamp.parse?, undated]

theorem date?_digits {cs : List Char} (digits : ∀ c ∈ cs, isDigit c) (long : 5 ≤ cs.length) :
    date? cs = none := by
  match cs, long with
  | a :: b :: c :: d :: e :: rest, _ =>
    simp only [List.forall_mem_cons] at digits
    obtain ⟨first, second, third, fourth, fifth, -⟩ := digits
    rw [date?, mailDate_digits first second third, timestamp_digits (by simp [*])]
    rfl

theorem solid_digits {cs : List Char} (digits : ∀ c ∈ cs, isDigit c) :
    ∀ c ∈ cs, Text.isBlank c = false :=
  fun c mem => isBlank_digit (digits c mem)

theorem parse?_withUnit (n : Nat) :
    parse? (withUnit n) = (Duration.ofDouble? (.ofDecimal false n 0)).map .relative := by
  have digits : ∀ c ∈ Nat.toDigits 10 n, isDigit c := fun c => isDigit_toDigits
  have text : (withUnit n).toList = Nat.toDigits 10 n ++ ['s'] := by
    rw [withUnit, String.toList_append, toString_digits]
    rfl
  have solid : ∀ c ∈ (withUnit n).toList, Text.isBlank c = false := by
    rw [text]
    exact List.forall_mem_append.mpr ⟨solid_digits digits, by simp [Text.isBlank]⟩
  have read : suffixed? (withUnit n).toList = some (.ofDecimal false n 0) := by
    rw [text, suffixed?, List.reverse_concat]
    simp only [List.reverse_reverse, trim_eq (solid_digits digits), readDouble?_toDigits]
  have filled : (withUnit n).toList ≠ [] := by
    rw [text]
    exact List.concat_ne_nil _ _
  simp only [parse?, trim_eq solid, filled, ↓reduceIte, read]

theorem last_digits {cs : List Char} (digits : ∀ c ∈ cs, isDigit c) : cs.getLast? ≠ some 's' :=
  fun last => absurd (digits 's' (List.mem_of_getLast? last)) (by decide)

theorem parse?_bare (n : Nat) : parse? (toString n) =
    if n < 2 ^ 63 then ofSeconds? n else none := by
  have digits : ∀ c ∈ Nat.toDigits 10 n, isDigit c := fun c => isDigit_toDigits
  have left : Text.trim (toString n).toList = Nat.toDigits 10 n := by
    rw [toString_digits, trim_eq (solid_digits digits)]
  rw [parse?_unitless left Nat.toDigits_ne_nil (last_digits digits), readInt64?_toDigits]
  by_cases fits : n < 2 ^ 63
  · rw [if_pos fits, if_pos fits, Option.elim_some]
  · have long : 5 ≤ (Nat.toDigits 10 n).length := by
      refine Nat.le_of_not_lt fun short => fits ?_
      have less := (Nat.length_toDigits_le_iff (b := 10) (n := n) (k := 4)
        (by decide) (by decide)).mp (Nat.le_of_lt_succ short)
      omega
    rw [if_neg fits, if_neg fits, Option.elim_none]
    exact date?_digits digits long

theorem parse?_seconds (below : (n : Int) < epochThreshold) :
    parse? (toString n) = some (.relative (.ofSeconds n)) := by
  have fits : n < 2 ^ 63 := by
    rw [epochThreshold] at below
    omega
  rw [parse?_bare, if_pos fits, ofSeconds?, if_pos below]
  rfl

theorem parse?_instant (above : epochThreshold ≤ n) (dated : n ≤ Instant.lastSecond) :
    parse? (toString n) = some (.absolute ⟨n, 0⟩) := by
  have fits : n < 2 ^ 63 := by
    rw [Instant.lastSecond] at dated
    omega
  rw [parse?_bare, if_pos fits, ofSeconds?, if_neg (Int.not_lt.mpr above), if_pos dated]

theorem parse?_undated (late : Instant.lastSecond < n) : parse? (toString n) = none := by
  have above : ¬ (n : Int) < epochThreshold := by
    rw [Instant.lastSecond] at late
    rw [epochThreshold]
    omega
  rw [parse?_bare, ofSeconds?, if_neg above, if_neg (Int.not_le.mpr late), ite_self]

end Hint

/-! ## Waits -/

namespace Policy

variable (p : Policy) (attempt : Nat) (now : Instant)

theorem delayFor_read {text : String} {hint : Hint} (read : Hint.parse? text = some hint) :
    p.delayFor attempt (some text) now = min (hint.delayFrom now) p.maxWait := by
  rw [delayFor, Option.bind_some, read]

theorem delayFor_unread {text : String} (unread : Hint.parse? text = none) :
    p.delayFor attempt (some text) now = p.backoff attempt := by
  rw [delayFor, Option.bind_some, unread]

theorem delayFor_withUnit (n : Nat) : p.delayFor attempt (some (Hint.withUnit n)) now =
    if n < Hint.tooLong then min (.ofSeconds (Double.nearest n)) p.maxWait
    else p.backoff attempt := by
  have read := Hint.parse?_withUnit n
  rw [Duration.ofDouble?_decimal] at read
  by_cases less : n < Hint.tooLong
  · rw [if_neg (Nat.not_le_of_lt (Hint.nearest_lt_iff.mpr less))] at read
    rw [if_pos less]
    exact delayFor_read p attempt now read
  · rw [if_pos (Nat.le_of_not_lt (mt Hint.nearest_lt_iff.mp less))] at read
    rw [if_neg less]
    exact delayFor_unread p attempt now read

theorem delayFor_seconds (below : (n : Int) < Hint.epochThreshold) :
    p.delayFor attempt (some (toString n)) now = min (.ofSeconds n) p.maxWait :=
  delayFor_read p attempt now (Hint.parse?_seconds below)

theorem delayFor_instant (above : Hint.epochThreshold ≤ n) (dated : n ≤ Instant.lastSecond) :
    p.delayFor attempt (some (toString n)) now = min (now.untilFrom ⟨n, 0⟩) p.maxWait :=
  delayFor_read p attempt now (Hint.parse?_instant above dated)

theorem delayFor_undated (late : Instant.lastSecond < n) :
    p.delayFor attempt (some (toString n)) now = p.backoff attempt :=
  delayFor_unread p attempt now (Hint.parse?_undated late)

/-- What a greater number of seconds does to the wait. -/
structure Lengthens (p : Policy) (attempt : Nat) (now : Instant) (m n : Nat) : Prop where
  seconds : n < Hint.tooLong → p.delayFor attempt (some (Hint.withUnit m)) now ≤
    p.delayFor attempt (some (Hint.withUnit n)) now
  /-- One that is too long for a duration is no hint, and the wait that of the attempt. -/
  tooLong : Hint.tooLong ≤ n →
    p.delayFor attempt (some (Hint.withUnit n)) now = p.backoff attempt
  fromNow : n < Hint.epochThreshold →
    p.delayFor attempt (some (toString m)) now ≤ p.delayFor attempt (some (toString n)) now
  instants : Hint.epochThreshold ≤ m → n ≤ Instant.lastSecond →
    p.delayFor attempt (some (toString m)) now ≤ p.delayFor attempt (some (toString n)) now
  undated : Instant.lastSecond < n →
    p.delayFor attempt (some (toString n)) now = p.backoff attempt

/-- Under every policy, at every attempt and at any time, a greater number of seconds asks for no
shorter wait as long as it is usable: below `2 ^ 64 - 2 ^ 10` with its unit, and up to the last date
as a bare number. A greater one leaves the wait that the attempt has without a hint. -/
theorem longer_hint_waits (le : m ≤ n) : Lengthens p attempt now m n where
  seconds less := by
    rw [delayFor_withUnit, delayFor_withUnit, if_pos less, if_pos (Nat.lt_of_le_of_lt le less)]
    exact Duration.min_mono (Duration.ofSeconds_mono (Double.nearest_mono le)) _
  tooLong long := by rw [delayFor_withUnit, if_neg (Nat.not_lt.mpr long)]
  fromNow below := by
    rw [delayFor_seconds p attempt now below, delayFor_seconds p attempt now (by omega)]
    exact Duration.min_mono (Duration.ofSeconds_mono le) _
  instants above dated := by
    rw [delayFor_instant p attempt now above (by omega),
      delayFor_instant p attempt now (by omega) dated]
    exact Duration.min_mono (Instant.untilFrom_mono now (by omega)) _
  undated := delayFor_undated p attempt now

/-- Two minutes are waited for at least when the server asks for `2 ^ 63` seconds, but not when it
asks for `2 ^ 64`. -/
theorem longer_than_two_minutes :
    standard.delayFor 0 (some (Hint.withUnit 120)) ⟨0, 0⟩ ≤
      standard.delayFor 0 (some (Hint.withUnit (2 ^ 63))) ⟨0, 0⟩ ∧
    standard.delayFor 0 (some (Hint.withUnit (2 ^ 64))) ⟨0, 0⟩ = standard.backoff 0 := by
  have usable := longer_hint_waits standard 0 ⟨0, 0⟩ (m := 120) (n := 2 ^ 63) (by decide)
  have overlong := longer_hint_waits standard 0 ⟨0, 0⟩ (m := 120) (n := 2 ^ 64) (by decide)
  exact ⟨usable.seconds (by decide), overlong.tooLong (by decide)⟩

/-- A greater number may shorten the wait, with its unit and as a bare number. -/
theorem overlong_hint_shortens : standard.minWait ≤ standard.maxWait ∧
    (120 ≤ 2 ^ 64 ∧ ¬ standard.delayFor 0 (some (Hint.withUnit 120)) ⟨0, 0⟩ ≤
      standard.delayFor 0 (some (Hint.withUnit (2 ^ 64))) ⟨0, 0⟩) ∧
    (Hint.epochThreshold ≤ 10 ^ 10 ∧ 10 ^ 10 ≤ 10 ^ 13 ∧
      ¬ standard.delayFor 0 (some (toString (10 ^ 10))) ⟨0, 0⟩ ≤
        standard.delayFor 0 (some (toString (10 ^ 13))) ⟨0, 0⟩) := by
  decide +kernel

end Policy

end Retry

end Rebac
