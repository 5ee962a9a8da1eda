import Rebac.Number.Reading
import Mathlib.Data.List.Basic
import Mathlib.Data.List.Induction
import Mathlib.Data.List.TakeWhile

set_option autoImplicit false

/-! # What the text of a number is made of -/

namespace Rebac.Number

variable {cs : List Char}

def isNumeric (c : Char) : Bool := isDigit c || c ∈ ['+', '-', '.', 'e', 'E']

def words : List (List Char) :=
  [['i', 'n', 'f'], ['i', 'n', 'f', 'i', 'n', 'i', 't', 'y'], ['n', 'a', 'n']]

def isWord (cs : List Char) : Bool := (splitSign cs).2.map Char.toLower ∈ words

theorem splitSign_cases (cs : List Char) : (∃ rest, cs = '-' :: rest) ∨ (∃ rest, cs = '+' :: rest) ∨
    splitSign cs = (false, cs) ∧ cs.head? ≠ some '-' ∧ cs.head? ≠ some '+' := by
  cases cs with
  | nil => exact .inr (.inr ⟨rfl, nofun, nofun⟩)
  | cons c rest =>
    by_cases minus : c = '-'
    · exact .inl ⟨rest, minus ▸ rfl⟩
    · by_cases plus : c = '+'
      · exact .inr (.inl ⟨rest, plus ▸ rfl⟩)
      · exact .inr (.inr ⟨by simp [splitSign, minus, plus], by simpa, by simpa⟩)

theorem splitSign_numeric {c : Char} (mem : c ∈ cs) : isNumeric c ∨ c ∈ (splitSign cs).2 := by
  unfold splitSign
  split
  · rcases List.mem_cons.mp mem with rfl | later
    · exact .inl rfl
    · exact .inr later
  · rcases List.mem_cons.mp mem with rfl | later
    · exact .inl rfl
    · exact .inr later
  · exact .inr mem

theorem splitSign_length (cs : List Char) : cs.length ≤ (splitSign cs).2.length + 1 := by
  unfold splitSign
  split
  · exact Nat.le_refl _
  · exact Nat.le_refl _
  · exact Nat.le_succ _

theorem isWord_length (word : isWord cs) : cs.length ≤ 9 := by
  have short : ∀ word ∈ words, word.length ≤ 8 := by decide
  have bound := short _ (of_decide_eq_true word)
  rw [List.length_map] at bound
  exact (splitSign_length cs).trans (Nat.succ_le_succ bound)

theorem digit_numeric {c : Char} (digit : isDigit c) : isNumeric c := by
  simp [isNumeric, digit]

theorem readInt?_some {n : Int} (read : readInt? cs = some n) : ∃ m : Nat,
    readNat? (splitSign cs).2 = some m ∧ n = if (splitSign cs).1 then -(m : Int) else m := by
  unfold readInt? at read
  cases digits : readNat? (splitSign cs).2 with
  | none =>
    simp only [digits] at read
    cases read
  | some m =>
    simp only [digits] at read
    exact ⟨m, rfl, (Option.some.inj read).symm⟩

theorem readInt?_numeric {n : Int} (read : readInt? cs = some n) : ∀ c ∈ cs, isNumeric c := by
  intro c mem
  obtain ⟨m, digits, -⟩ := readInt?_some read
  rcases splitSign_numeric mem with numeric | within
  · exact numeric
  · unfold readNat? at digits
    split at digits
    · rename_i all
      exact digit_numeric (List.all_eq_true.mp all.2 c within)
    · cases digits

theorem readExponent?_numeric {n : Int} (read : readExponent? cs = some n) :
    ∀ c ∈ cs, isNumeric c := by
  cases cs with
  | nil => exact nofun
  | cons first rest =>
    rw [readExponent?] at read
    split at read
    · rename_i letter
      intro c mem
      rcases List.mem_cons.mp mem with rfl | later
      · rcases letter with rfl | rfl <;> rfl
      · exact readInt?_numeric read c later
    · cases read

theorem numeric_of_rest (rest : ∀ c ∈ cs.dropWhile isDigit, isNumeric c) :
    ∀ c ∈ cs, isNumeric c := by
  intro c mem
  rw [← List.takeWhile_append_dropWhile (p := isDigit) (l := cs)] at mem
  rcases List.mem_append.mp mem with digit | later
  · exact digit_numeric (List.mem_takeWhile_imp digit)
  · exact rest c later

theorem readDouble?_numeric {x : Double} (read : readDouble? cs = some x) :
    isWord cs ∨ ∀ c ∈ cs, isNumeric c := by
  unfold readDouble? at read
  simp only at read
  split at read
  · rename_i word
    rcases word with word | word <;> exact .inl (by simp [isWord, words, word])
  · split at read
    · rename_i word
      exact .inl (by simp [isWord, words, word])
    · refine .inr fun c mem => ?_
      rcases splitSign_numeric mem with numeric | within
      · exact numeric
      · refine numeric_of_rest ?_ c within
        split at read
        · rename_i rest point
          split at read
          · cases read
          · obtain ⟨power, exponent, -⟩ := Option.map_eq_some_iff.mp read
            rw [point]
            refine List.forall_mem_cons.mpr ⟨rfl, ?_⟩
            exact numeric_of_rest (readExponent?_numeric exponent)
        · split at read
          · cases read
          · obtain ⟨power, exponent, -⟩ := Option.map_eq_some_iff.mp read
            exact readExponent?_numeric exponent

/-! ## Whole numbers as they are printed -/

theorem digitChar_digitValue {c : Char} {d : Nat} (value : digitValue? c = some d) :
    d < 10 ∧ d.digitChar = c := by
  unfold digitValue? at value
  split at value
  · rename_i between
    cases value
    have least : 48 ≤ c.toNat := between.1
    have most : c.toNat ≤ 57 := between.2
    refine ⟨by omega, Char.toNat_inj.mp ?_⟩
    rw [Nat.toNat_digitChar_of_lt_ten (by omega)]
    omega
  · cases value

theorem ofDigits_concat (cs : List Char) (c : Char) :
    ofDigits (cs ++ [c]) = ofDigits cs * 10 + (digitValue? c).getD 0 := by
  simp [ofDigits]

theorem head_toDigits (n : Nat) (zero : (Nat.toDigits 10 n).head? = some '0') : n = 0 := by
  induction n using Nat.strongRecOn with
  | ind n ih =>
    rw [Nat.toDigits_eq_if (by decide)] at zero
    split at zero
    · exact Nat.digitChar_eq_zero.mp (Option.some.inj zero)
    · rw [List.head?_append_of_ne_nil _ Nat.toDigits_ne_nil] at zero
      have front := ih (n / 10) (by omega) zero
      omega

def isShortest (cs : List Char) : Bool := cs = ['0'] || cs.head? ≠ some '0'

theorem isShortest_toDigits (n : Nat) : isShortest (Nat.toDigits 10 n) := by
  simp only [isShortest, Bool.or_eq_true, decide_eq_true_eq]
  by_cases zero : (Nat.toDigits 10 n).head? = some '0'
  · rw [head_toDigits n zero]
    exact .inl rfl
  · exact .inr zero

theorem toDigits_ofDigits (digits : ∀ c ∈ cs, isDigit c) (some' : cs ≠ [])
    (shortest : isShortest cs) : Nat.toDigits 10 (ofDigits cs) = cs := by
  simp only [isShortest, Bool.or_eq_true, decide_eq_true_eq] at shortest
  induction cs using List.reverseRecOn with
  | nil => exact absurd rfl some'
  | append_singleton cs c ih =>
    obtain ⟨digits, last⟩ := List.forall_mem_append.mp digits
    obtain ⟨d, value⟩ := Option.isSome_iff_exists.mp (last c (List.mem_singleton_self c))
    obtain ⟨lt, same⟩ := digitChar_digitValue value
    have split : ofDigits (cs ++ [c]) = 10 * ofDigits cs + d := by
      rw [ofDigits_concat, value, Option.getD_some, Nat.mul_comm]
    rw [split]
    by_cases none : cs = []
    · subst none
      have zero : ofDigits [] = 0 := rfl
      rw [zero, Nat.mul_zero, Nat.zero_add, Nat.toDigits_of_lt_base lt, same]
      rfl
    · have head : cs.head? ≠ some '0' := by
        rcases shortest with eq | other
        · have lengths := congrArg List.length eq
          simp [none] at lengths
        · rwa [List.head?_append_of_ne_nil _ none] at other
      have front := ih digits none (.inr head)
      have positive : 0 < ofDigits cs := by
        refine Nat.pos_of_ne_zero fun zero => head ?_
        rw [← front, zero]
        rfl
      rw [← Nat.toDigits_append_toDigits (by decide) positive lt, front,
        Nat.toDigits_of_lt_base lt, same]

/-- Whether a whole number is written as it is printed: the only sign is a minus, and not before a
zero, and there is no zero before other digits. -/
def isPrinted (cs : List Char) : Bool :=
  if cs.head? = some '-' then cs.tail.head? ≠ some '0'
  else cs.head? ≠ some '+' && isShortest cs

theorem toString_nat (n : Nat) : (toString (n : Int)).toList = Nat.toDigits 10 n := by
  change (Nat.repr n).toList = _
  rw [Nat.repr_eq_ofList_toDigits, String.toList_ofList]

theorem toString_neg {n : Nat} (positive : n ≠ 0) :
    (toString (-(n : Int))).toList = '-' :: Nat.toDigits 10 n := by
  obtain ⟨m, rfl⟩ := Nat.exists_eq_succ_of_ne_zero positive
  change ("-" ++ Nat.repr (m + 1)).toList = _
  simp [Nat.repr_eq_ofList_toDigits]

theorem readNat?_some {n : Nat} (read : readNat? cs = some n) :
    cs ≠ [] ∧ (∀ c ∈ cs, isDigit c) ∧ n = ofDigits cs := by
  unfold readNat? at read
  split at read
  · rename_i digits
    exact ⟨digits.1, List.all_eq_true.mp digits.2, (Option.some.inj read).symm⟩
  · cases read

theorem toDigits_readNat? {n : Nat} (read : readNat? cs = some n) :
    Nat.toDigits 10 n = cs ↔ isShortest cs := by
  obtain ⟨some', digits, rfl⟩ := readNat?_some read
  exact ⟨fun eq => eq ▸ isShortest_toDigits _, toDigits_ofDigits digits some'⟩

theorem toString_minus {n : Nat} (read : readNat? cs = some n) :
    (toString (-(n : Int))).toList = '-' :: cs ↔ cs.head? ≠ some '0' := by
  have printed := toDigits_readNat? read
  simp only [isShortest, Bool.or_eq_true, decide_eq_true_eq] at printed
  -- zero is printed with no sign
  by_cases zero : n = 0
  · subst zero
    constructor
    · intro eq
      cases eq
    · intro head
      rw [← printed.mpr (.inr head)] at head
      exact absurd rfl head
  · rw [toString_neg zero, List.cons.injEq, and_iff_right rfl, printed]
    refine ⟨fun either => either.resolve_left fun eq => zero ?_, .inr⟩
    rw [eq] at read
    exact (Option.some.inj read).symm

theorem toString_readInt? {n : Int} (read : readInt? cs = some n) :
    (toString n).toList = cs ↔ isPrinted cs := by
  obtain ⟨m, digits, rfl⟩ := readInt?_some read
  rcases splitSign_cases cs with ⟨rest, rfl⟩ | ⟨rest, rfl⟩ | ⟨same, minus, plus⟩
  · rw [isPrinted, if_pos List.head?_cons, decide_eq_true_eq]
    exact toString_minus digits
  · have signed : Nat.toDigits 10 m ≠ '+' :: rest := by
      intro eq
      have digit := Nat.isDigit_of_mem_toDigits (b := 10) (by decide) (by decide)
        (eq ▸ List.mem_cons_self)
      exact absurd digit (by decide)
    have printed : isPrinted ('+' :: rest) = false := rfl
    rw [printed]
    exact ⟨fun eq => absurd ((toString_nat m).symm.trans eq) signed, nofun⟩
  · rw [same] at digits ⊢
    rw [isPrinted, if_neg minus, decide_eq_true plus, Bool.true_and, ← toDigits_readNat? digits,
      ← toString_nat]
    rfl

end Rebac.Number
