import Rebac.Proofs.Number.Digits
import Rebac.Time.Scan

set_option autoImplicit false

/-! # Numbers of a width -/

namespace Rebac

variable {cs rest : List Char} {n width : Nat}

namespace Number

theorem ofDigits_lt (digits : ∀ c ∈ cs, isDigit c) : ofDigits cs < 10 ^ cs.length := by
  induction cs using List.reverseRecOn with
  | nil => exact Nat.one_pos
  | append_singleton cs c ih =>
    obtain ⟨digits, last⟩ := List.forall_mem_append.mp digits
    obtain ⟨d, value⟩ := Option.isSome_iff_exists.mp (last c (List.mem_singleton_self c))
    have front := ih digits
    have small := (digitChar_digitValue value).1
    rw [ofDigits_concat, value, Option.getD_some, List.length_append, List.length_singleton,
      Nat.pow_succ]
    omega

theorem digitValue?_digitChar : ∀ d < 10, digitValue? (Nat.digitChar d) = some d := by decide

/-- The last digits of a number, so many as the width says, with zeros where it has none. -/
def padded : Nat → Nat → List Char
  | 0, _ => []
  | width + 1, n => padded width (n / 10) ++ [Nat.digitChar (n % 10)]

theorem length_padded (width n : Nat) : (padded width n).length = width := by
  induction width generalizing n with
  | zero => rfl
  | succ width ih => simp [padded, ih]

theorem isDigit_padded (width n : Nat) : ∀ c ∈ padded width n, isDigit c := by
  induction width generalizing n with
  | zero => exact nofun
  | succ width ih =>
    refine List.forall_mem_append.mpr ⟨ih (n / 10), List.forall_mem_singleton.mpr ?_⟩
    rw [isDigit, digitValue?_digitChar _ (Nat.mod_lt _ (by decide))]
    rfl

theorem ofDigits_padded (fits : n < 10 ^ width) : ofDigits (padded width n) = n := by
  induction width generalizing n with
  | zero => exact (Nat.lt_one_iff.mp fits).symm
  | succ width ih =>
    rw [Nat.pow_succ] at fits
    rw [padded, ofDigits_concat, ih (by omega), digitValue?_digitChar _ (Nat.mod_lt _ (by decide)),
      Option.getD_some, Nat.div_add_mod']

end Number

namespace Scan

open Number

@[simp]
theorem char_cons (c : Char) (rest : List Char) : char c (c :: rest) = some rest := if_pos rfl

/-- Whether a text begins with something, and not with white space. -/
def Solid (cs : List Char) : Prop := cs.head?.any fun c => !Text.isBlank c

instance (cs : List Char) : Decidable (Solid cs) :=
  inferInstanceAs (Decidable ((cs.head?.any fun c => !Text.isBlank c) = true))

theorem solid_cons {c : Char} (other : Text.isBlank c = false) (rest : List Char) :
    Solid (c :: rest) := by
  simp [Solid, other]

theorem Solid.append (solid : Solid cs) (rest : List Char) : Solid (cs ++ rest) := by
  cases cs with
  | nil => cases solid
  | cons c cs => exact solid

theorem Solid.head {c : Char} (solid : Solid cs) (first : c ∈ cs.head?) :
    Text.isBlank c = false := by
  rw [Solid, first, Option.any_some, Bool.not_eq_true'] at solid
  exact solid

theorem blanks_solid (solid : Solid cs) : blanks cs = cs := dropWhile_head fun _ => solid.head

theorem blanks_space (solid : Solid cs) : blanks (' ' :: cs) = cs :=
  (List.dropWhile_cons_of_pos (by decide)).trans (blanks_solid solid)

theorem someBlanks_space (solid : Solid cs) : someBlanks (' ' :: cs) = some cs := by
  have blank : Text.isBlank ' ' = true := by decide
  rw [someBlanks, if_pos blank, blanks_solid solid]

theorem solid_padded (width n : Nat) : Solid (padded (width + 1) n) := by
  have digits := isDigit_padded (width + 1) n
  have filled : padded (width + 1) n ≠ [] := List.concat_ne_nil _ _
  generalize padded (width + 1) n = cs at digits filled
  cases cs with
  | nil => exact absurd rfl filled
  | cons c cs => exact solid_cons (isBlank_digit (digits c List.mem_cons_self)) cs

theorem shortName_append {names : List String} {name : List Char} {i : Nat}
    (short : name.length = 3)
    (named : names.idxOf? (String.ofList (name.map Char.toLower)) = some i) (rest : List Char) :
    shortName names (name ++ rest) = some (i, rest) := by
  rw [shortName, List.take_left' short, named, List.drop_left' short]
  rfl

theorem number_padded {least : Nat} (fits : n < 10 ^ width) (enough : least ≤ width)
    (rest : List Char) : number least width (padded width n ++ rest) = some (n, rest) := by
  have wide := length_padded width n
  have front : (padded width n ++ rest).take width = padded width n := List.take_left' wide
  have digits : (padded width n).takeWhile isDigit = padded width n :=
    List.takeWhile_eq_self_iff.mpr (isDigit_padded width n)
  simp only [number, front, digits, wide, Nat.not_lt.mpr enough, if_false, List.drop_left' wide,
    ofDigits_padded fits]

theorem longNumber_padded {least : Nat} (fits : n < 10 ^ width) (enough : least ≤ width)
    (stop : ∀ c ∈ rest.head?, isDigit c = false) :
    longNumber least (padded width n ++ rest) = some (n, rest) := by
  have wide := length_padded width n
  have behind : rest.takeWhile isDigit = [] := by
    cases rest with
    | nil => rfl
    | cons c rest => exact List.takeWhile_cons_of_neg (by simp [stop c rfl])
  have digits : (padded width n ++ rest).takeWhile isDigit = padded width n := by
    rw [List.takeWhile_append_of_pos (isDigit_padded width n), behind, List.append_nil]
  simp only [longNumber, number, List.take_length, digits, wide, Nat.not_lt.mpr enough, if_false,
    List.drop_left' wide, ofDigits_padded fits]

theorem number_lt {least most : Nat} (taken : number least most cs = some (n, rest)) :
    least ≤ cs.length - rest.length ∧ cs.length - rest.length ≤ most ∧
      n < 10 ^ (cs.length - rest.length) := by
  obtain ⟨digits, eq⟩ : ∃ digits, (cs.take most).takeWhile isDigit = digits := ⟨_, rfl⟩
  have long : digits.length ≤ min most cs.length := by
    rw [← eq, ← List.length_take]
    exact (List.takeWhile_prefix _).length_le
  simp only [number, eq] at taken
  split at taken
  · cases taken
  · obtain ⟨rfl, rfl⟩ := Prod.mk.inj (Option.some.inj taken)
    have width : cs.length - (cs.drop digits.length).length = digits.length := by
      rw [List.length_drop]
      omega
    rw [width]
    refine ⟨by omega, by omega, ofDigits_lt fun c mem => ?_⟩
    rw [← eq] at mem
    exact List.mem_takeWhile_imp mem

end Scan

end Rebac
