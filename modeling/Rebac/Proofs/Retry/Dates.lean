import Rebac.Proofs.Retry.Hint
import Rebac.Proofs.Time.Rendering

set_option autoImplicit false

/-! # Three ways to name an instant -/

namespace Rebac

open Number Calendar

variable {n : Nat}

namespace Retry.Hint

theorem readInt64?_letter {cs : List Char} {c : Char} (mem : c ∈ cs) (letter : isNumeric c = false) :
    readInt64? cs = none := by
  cases read : readInt? cs with
  | none => rw [readInt64?, read, Option.filter_none]
  | some n =>
    have numeric := readInt?_numeric read c mem
    rw [letter] at numeric
    cases numeric

theorem parse?_letter {cs : List Char} {c : Char} (solid : Scan.Solid cs)
    (last : cs.getLast? = some c) (letter : isNumeric c = false ∧ Text.isBlank c = false ∧ c ≠ 's') :
    parse? (String.ofList cs) = date? cs := by
  obtain ⟨other, full, unitless⟩ := letter
  have mem := List.mem_of_getLast? last
  have left : Text.trim (String.ofList cs).toList = cs := by
    rw [String.toList_ofList]
    refine trim_ends (List.ne_nil_of_mem mem) (fun c => solid.head) fun d final => ?_
    rw [last] at final
    exact Option.some.inj final ▸ full
  have suffix : cs.getLast? ≠ some 's' := by
    rw [last]
    exact fun same => unitless (Option.some.inj same)
  rw [parse?_unitless left (List.ne_nil_of_mem mem) suffix, readInt64?_letter mem other,
    Option.elim_none]

theorem parse?_stamp (within : n ≤ lastSecond) :
    parse? (String.ofList (stamp n)) = some (.absolute ⟨n, 0⟩) := by
  obtain ⟨rest, whole⟩ : ∃ rest, stamp n = padded 4 (Date.onDay (n / 86400)).year ++ rest :=
    ⟨_, by simp only [stamp, Date.stamp, List.append_assoc]; rfl⟩
  have solid : Scan.Solid (stamp n) := by
    rw [whole]
    exact (Scan.solid_padded 3 _).append rest
  have last : (stamp n).getLast? = some 'Z' := List.getLast?_concat
  -- the digits of the year stop the reader of mail dates, which comes first
  have noMail : MailDate.parse? (stamp n) = none := by
    have digits := isDigit_padded 4 (Date.onDay (n / 86400)).year
    rw [whole]
    exact mailDate_digits (digits _ (by simp [padded])) (digits _ (by simp [padded]))
      (digits _ (by simp [padded]))
  rw [parse?_letter solid last (by decide), date?, noMail, Timestamp.parse?_stamp within]
  rfl

theorem parse?_mail (within : n ≤ lastSecond) :
    parse? (String.ofList (mail n)) = some (.absolute ⟨n, 0⟩) := by
  have solid : Scan.Solid (mail n) := by
    simp only [mail, Date.mail, List.append_assoc]
    exact (MailDate.weekdays_named _ (weekdayOn_lt _)).2.2.append _
  have last : (mail n).getLast? = some 'T' := by
    rw [mail, List.getLast?_append]
    rfl
  rw [parse?_letter solid last (by decide), date?, MailDate.parse?_mail within]
  rfl

end Retry.Hint

namespace Retry

/-- The three texts of a second since 1970 name one instant, and make every policy wait alike. -/
structure Agreed (n : Nat) : Prop where
  number : Hint.parse? (toString n) = some (.absolute ⟨n, 0⟩)
  stamp : Hint.parse? (String.ofList (Calendar.stamp n)) = some (.absolute ⟨n, 0⟩)
  mail : Hint.parse? (String.ofList (Calendar.mail n)) = some (.absolute ⟨n, 0⟩)
  waits : ∀ (p : Policy) attempt now,
    p.delayFor attempt (some (String.ofList (Calendar.stamp n))) now =
      p.delayFor attempt (some (toString n)) now ∧
    p.delayFor attempt (some (String.ofList (Calendar.mail n))) now =
      p.delayFor attempt (some (toString n)) now

/-- From the first second that a bare number names up to the end of the year 9999, the bare number, the
timestamp and the mail date of a second are hints for the same instant. -/
theorem date_forms_agree (least : Hint.epochThreshold ≤ n) (within : n ≤ lastSecond) : Agreed n := by
  have number := Hint.parse?_instant least (dated within)
  have stamp := Hint.parse?_stamp within
  have mail := Hint.parse?_mail within
  refine ⟨number, stamp, mail, fun p attempt now => ?_⟩
  simp only [p.delayFor_read attempt now number, p.delayFor_read attempt now stamp,
    p.delayFor_read attempt now mail, and_self]

theorem october_morning_agrees :
    String.ofList (Calendar.stamp 1445412480) = "2015-10-21T07:28:00Z" ∧
    String.ofList (Calendar.mail 1445412480) = "Wed, 21 Oct 2015 07:28:00 GMT" ∧
    toString 1445412480 = "1445412480" ∧ Agreed 1445412480 := by
  have day : Date.onDay (1445412480 / 86400) =
      ⟨2015, 10, 21, by decide, by decide, by decide, by decide⟩ := Date.onDay_number (by decide) rfl
  refine ⟨?_, ?_, by decide +kernel, date_forms_agree (by decide) (by decide)⟩
  · rw [stamp, day]
    decide +kernel
  · rw [mail, day, weekdayOn_eq]
    decide +kernel

end Retry

end Rebac
