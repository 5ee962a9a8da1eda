import Rebac.Proofs.Number.Reading
import Rebac.Text.Blank
import Mathlib.Algebra.Group.Nat.Defs

set_option autoImplicit false

/-! # Texts of digits -/

namespace Rebac.Number

variable {c : Char} {cs : List Char}

theorem digit_range (digit : isDigit c) : 48 ≤ c.toNat ∧ c.toNat ≤ 57 := by
  obtain ⟨d, value⟩ := Option.isSome_iff_exists.mp digit
  unfold digitValue? at value
  split at value
  · rename_i between
    exact between
  · cases value

theorem digit_ne {other : Char} (digit : isDigit c) (outside : other.toNat < 48 ∨ 57 < other.toNat) :
    c ≠ other := by
  rintro rfl
  have range := digit_range digit
  omega

theorem toLower_digit (digit : isDigit c) : c.toLower = c := by
  have range := digit_range digit
  unfold Char.toLower
  rw [dif_neg]
  rintro ⟨least, -⟩
  have least : 65 ≤ c.toNat := least
  omega

theorem isBlank_digit (digit : isDigit c) : Text.isBlank c = false := by
  have range := digit_range digit
  simp only [Text.isBlank, Bool.or_eq_false_iff, Bool.and_eq_false_iff, decide_eq_false_iff_not,
    beq_eq_false_iff_ne]
  omega

theorem splitSign_digits (digits : ∀ c ∈ cs, isDigit c) : splitSign cs = (false, cs) := by
  rcases splitSign_cases cs with ⟨rest, rfl⟩ | ⟨rest, rfl⟩ | ⟨same, -⟩
  · exact absurd (digits '-' List.mem_cons_self) (by decide)
  · exact absurd (digits '+' List.mem_cons_self) (by decide)
  · exact same

theorem words_letter : ∀ word ∈ words, 'n' ∈ word := by decide

theorem not_word_digits (digits : ∀ c ∈ cs, isDigit c) : ∀ word ∈ words,
    cs.map Char.toLower ≠ word := by
  rintro word mem rfl
  obtain ⟨c, there, small⟩ := List.mem_map.mp (words_letter _ mem)
  rw [toLower_digit (digits c there)] at small
  exact digit_ne (digits c there) (.inr (by decide)) small

/-! ## The digits of a number -/

theorem isDigit_toDigits {n : Nat} (mem : c ∈ Nat.toDigits 10 n) : isDigit c := by
  have digit := Nat.isDigit_of_mem_toDigits (by decide) (by decide) mem
  simp only [Char.isDigit, Bool.and_eq_true, decide_eq_true_eq] at digit
  rw [isDigit, digitValue?, if_pos ⟨digit.1, digit.2⟩]
  rfl

theorem ofDigits_toDigits (n : Nat) : ofDigits (Nat.toDigits 10 n) = n := by
  have again := toDigits_ofDigits (fun c => isDigit_toDigits) Nat.toDigits_ne_nil
    (isShortest_toDigits n)
  simpa using congrArg (fun digits => Nat.ofDigitChars 10 digits 0) again

theorem readNat?_toDigits (n : Nat) : readNat? (Nat.toDigits 10 n) = some n := by
  have all : (Nat.toDigits 10 n).all isDigit := List.all_eq_true.mpr fun c => isDigit_toDigits
  rw [readNat?, if_pos ⟨Nat.toDigits_ne_nil, all⟩, ofDigits_toDigits]

theorem readInt?_toDigits (n : Nat) : readInt? (Nat.toDigits 10 n) = some (n : Int) := by
  rw [readInt?, splitSign_digits fun c => isDigit_toDigits, readNat?_toDigits]
  rfl

theorem readInt64?_toDigits (n : Nat) :
    readInt64? (Nat.toDigits 10 n) = if n < 2 ^ 63 then some (n : Int) else none := by
  have least : -(Int.pow 2 63) ≤ (n : Int) := by
    have negative : -(Int.pow 2 63) ≤ 0 := by decide
    omega
  have most : (n : Int) < Int.pow 2 63 ↔ n < 2 ^ 63 := by
    have bound : Int.pow 2 63 = ((2 ^ 63 : Nat) : Int) := by decide
    rw [bound, Int.ofNat_lt]
  rw [readInt64?, readInt?_toDigits, Option.filter_some]
  simp only [decide_eq_true_eq, least, most, true_and]

theorem readDouble?_toDigits (n : Nat) :
    readDouble? (Nat.toDigits 10 n) = some (.ofDecimal false n 0) := by
  have digits : ∀ c ∈ Nat.toDigits 10 n, isDigit c := fun c => isDigit_toDigits
  have word := not_word_digits digits
  simp only [words, List.forall_mem_cons] at word
  have front : (Nat.toDigits 10 n).takeWhile isDigit = Nat.toDigits 10 n :=
    List.takeWhile_eq_self_iff.mpr digits
  have behind : (Nat.toDigits 10 n).dropWhile isDigit = [] := List.dropWhile_eq_nil_iff.mpr digits
  simp [readDouble?, splitSign_digits digits, word, front, behind, readExponent?, ofDigits_toDigits]

/-! ## Numerals -/

/-- Decimal digits of a number, with zeros in front of them or without. -/
structure Digits (n : Nat) (cs : List Char) : Prop where
  filled : cs ≠ []
  digits : ∀ c ∈ cs, isDigit c
  value : ofDigits cs = n

/-- The decimal texts of whole numbers: digits behind a minus, a plus or no sign. -/
inductive Numeral : Int → List Char → Prop
  | plain {n : Nat} {cs : List Char} (digits : Digits n cs) : Numeral n cs
  | plus {n : Nat} {cs : List Char} (digits : Digits n cs) : Numeral n ('+' :: cs)
  | minus {n : Nat} {cs : List Char} (digits : Digits n cs) : Numeral (-n) ('-' :: cs)

theorem digits_toDigits (n : Nat) : Digits n (Nat.toDigits 10 n) :=
  ⟨Nat.toDigits_ne_nil, fun _ => isDigit_toDigits, ofDigits_toDigits n⟩

theorem Digits.read {n : Nat} (digits : Digits n cs) : readNat? cs = some n := by
  rw [readNat?, if_pos ⟨digits.filled, List.all_eq_true.mpr digits.digits⟩, digits.value]

theorem Numeral.read {n : Int} (numeral : Numeral n cs) : readInt? cs = some n := by
  cases numeral with
  | plain digits =>
    rw [readInt?, splitSign_digits digits.digits, digits.read]
    rfl
  | plus digits => simp [readInt?, splitSign, digits.read]
  | minus digits => simp [readInt?, splitSign, digits.read]

theorem Numeral.filled {n : Int} (numeral : Numeral n cs) : cs ≠ [] := by
  cases numeral with
  | plain digits => exact digits.filled
  | plus => exact List.cons_ne_nil _ _
  | minus => exact List.cons_ne_nil _ _

theorem numeral_toString (n : Int) : Numeral n (toString n).toList := by
  rcases Int.eq_nat_or_neg n with ⟨m, rfl | rfl⟩
  · rw [toString_nat]
    exact .plain (digits_toDigits m)
  · by_cases zero : m = 0
    · subst zero
      exact .plain (digits_toDigits 0)
    · rw [toString_neg zero]
      exact .minus (digits_toDigits m)

/-! ## Digits and white space -/

theorem isBlank_numeric (numeric : isNumeric c) : Text.isBlank c = false := by
  simp only [isNumeric, Bool.or_eq_true, decide_eq_true_eq, List.mem_cons, List.not_mem_nil,
    or_false] at numeric
  rcases numeric with digit | rfl | rfl | rfl | rfl | rfl
  · exact isBlank_digit digit
  · decide
  · decide
  · decide
  · decide
  · decide

theorem dropWhile_head {p : Char → Bool} (first : ∀ c ∈ cs.head?, p c = false) :
    cs.dropWhile p = cs := by
  cases cs with
  | nil => rfl
  | cons c rest => exact List.dropWhile_cons_of_neg (by simp [first c rfl])

theorem trim_between {before after : List Char} (front : ∀ c ∈ before, Text.isBlank c)
    (back : ∀ c ∈ after, Text.isBlank c) (filled : cs ≠ [])
    (first : ∀ c ∈ cs.head?, Text.isBlank c = false)
    (last : ∀ c ∈ cs.getLast?, Text.isBlank c = false) :
    Text.trim (before ++ cs ++ after) = cs := by
  have start : (before ++ cs ++ after).dropWhile Text.isBlank = cs ++ after := by
    rw [List.append_assoc, List.dropWhile_append_of_pos front]
    exact dropWhile_head (by rwa [List.head?_append_of_ne_nil _ filled])
  have reversed : (after.reverse ++ cs.reverse).dropWhile Text.isBlank = cs.reverse := by
    rw [List.dropWhile_append_of_pos fun c mem => back c (List.mem_reverse.mp mem)]
    exact dropWhile_head (by rwa [List.head?_reverse])
  rw [Text.trim, Text.trimWhile, start, Text.dropEndWhile, List.reverse_append, reversed,
    List.reverse_reverse]

theorem trim_ends (filled : cs ≠ []) (first : ∀ c ∈ cs.head?, Text.isBlank c = false)
    (last : ∀ c ∈ cs.getLast?, Text.isBlank c = false) : Text.trim cs = cs := by
  have whole : Text.trim ([] ++ cs ++ []) = cs := trim_between nofun nofun filled first last
  rwa [List.nil_append, List.append_nil] at whole

theorem trim_eq (solid : ∀ c ∈ cs, Text.isBlank c = false) : Text.trim cs = cs := by
  by_cases filled : cs = []
  · subst filled
    rfl
  · exact trim_ends filled (fun c head => solid c (List.mem_of_head? head))
      (fun c last => solid c (List.mem_of_getLast? last))

end Rebac.Number
