import Rebac.Identifier
import Mathlib.Data.Nat.Init
import Mathlib.Data.String.Basic
import Mathlib.Tactic.Ring

set_option autoImplicit false

/-!
# What an identifier is written as

Digits that are read as a number are what the number is written as, in capital letters. An
identifier is read from 26 digits, two bits more than it holds: the first digit loses its two
highest bits, and `canonical` is the text that is left. It is the text that was read, in capitals,
just when the first digit is below eight.
-/
namespace Rebac.Identifier

variable {c : Char} {cs : List Char} {n d v : Nat} {raw raw' : String} {id id' : Identifier}

/-! ## Digits -/

theorem digit_of_value (value : digitValue? c = some d) : d < 32 ∧ digit d = c.toUpper := by
  obtain ⟨lt, here, -⟩ := List.idxOf?_eq_some_iff.mp value
  refine ⟨lt, ?_⟩
  rw [digit, List.getD_eq_getElem?_getD, List.getElem?_eq_getElem lt, here]
  rfl

theorem number?_from (start : Nat) (cs : List Char) :
    cs.foldlM (fun acc c => (digitValue? c).map (acc * 32 + ·)) start =
      (number? cs).map (start * 32 ^ cs.length + ·) := by
  induction cs generalizing start with
  | nil => simp [number?]
  | cons c cs ih =>
    rw [number?, List.foldlM_cons, List.foldlM_cons]
    cases digitValue? c with
    | none => rfl
    | some d =>
      simp only [Option.map_some, Option.bind_eq_bind, Option.bind_some, ih, Option.map_map,
        Function.comp_def, List.length_cons]
      congr 1
      funext rest
      ring

theorem number?_cons (c : Char) (cs : List Char) :
    number? (c :: cs) =
      (digitValue? c).bind fun d => (number? cs).map (d * 32 ^ cs.length + ·) := by
  rw [number?, List.foldlM_cons]
  cases digitValue? c with
  | none => rfl
  | some d => simp [number?_from]

theorem number?_lt (read : number? cs = some v) : v < 32 ^ cs.length := by
  induction cs generalizing v with
  | nil =>
    cases read
    exact Nat.one_pos
  | cons c cs ih =>
    simp only [number?_cons, Option.bind_eq_some_iff, Option.map_eq_some_iff] at read
    obtain ⟨d, value, rest, others, rfl⟩ := read
    have digits := (digit_of_value value).1
    calc
      d * 32 ^ cs.length + rest < d * 32 ^ cs.length + 32 ^ cs.length :=
        Nat.add_lt_add_left (ih others) _
      _ = (d + 1) * 32 ^ cs.length := by ring
      _ ≤ 32 * 32 ^ cs.length := Nat.mul_le_mul_right _ digits
      _ = 32 ^ (c :: cs).length := by rw [List.length_cons, Nat.pow_succ, Nat.mul_comm]

theorem digits_cons (count d : Nat) {rest : Nat} (lt : rest < 32 ^ count) :
    digits (count + 1) (d * 32 ^ count + rest) = digit (d % 32) :: digits count rest := by
  induction count generalizing rest with
  | zero =>
    cases Nat.lt_one_iff.mp lt
    simp [digits]
  | succ count ih =>
    have high : (d * 32 ^ (count + 1) + rest) / 32 = d * 32 ^ count + rest / 32 := by
      rw [Nat.pow_succ, ← Nat.mul_assoc, Nat.mul_comm _ 32, Nat.mul_add_div (by decide)]
    have low : (d * 32 ^ (count + 1) + rest) % 32 = rest % 32 := by
      rw [Nat.pow_succ, ← Nat.mul_assoc, Nat.mul_comm _ 32, Nat.mul_add_mod]
    have less : rest / 32 < 32 ^ count := Nat.div_lt_of_lt_mul (by rwa [← Nat.pow_succ'])
    rw [digits, high, low, ih less, digits]
    rfl

theorem digits_number? (read : number? cs = some v) :
    digits cs.length v = cs.map Char.toUpper := by
  induction cs generalizing v with
  | nil => rfl
  | cons c cs ih =>
    simp only [number?_cons, Option.bind_eq_some_iff, Option.map_eq_some_iff] at read
    obtain ⟨d, value, rest, others, rfl⟩ := read
    obtain ⟨lt, same⟩ := digit_of_value value
    rw [List.length_cons, digits_cons _ _ (number?_lt others), ih others, Nat.mod_eq_of_lt lt, same]
    rfl

theorem mem_digits (mem : c ∈ digits n v) : c ∈ alphabet := by
  induction n generalizing v with
  | zero => cases mem
  | succ n ih =>
    rcases List.mem_append.mp mem with earlier | last
    · exact ih earlier
    · rw [List.mem_singleton.mp last, digit, List.getD_eq_getElem?_getD]
      cases there : alphabet[v % 32]? with
      | none => decide
      | some d => exact List.mem_of_getElem? there

theorem length_digits (n v : Nat) : (digits n v).length = n := by
  induction n generalizing v with
  | zero => rfl
  | succ n ih => rw [digits, List.length_append, ih, List.length_singleton]

theorem number?_values (read : number? cs = some v) : ∀ c ∈ cs, ∃ d, digitValue? c = some d := by
  induction cs generalizing v with
  | nil => simp
  | cons c cs ih =>
    simp only [number?_cons, Option.bind_eq_some_iff, Option.map_eq_some_iff] at read
    obtain ⟨d, value, rest, others, -⟩ := read
    exact List.forall_mem_cons.mpr ⟨⟨d, value⟩, ih others⟩

theorem value_of_digit : ∀ n < 32, digitValue? (digit n) = some n := by decide

theorem alphabet_ascii : ∀ c ∈ alphabet, c.val ≤ 127 := by
  have all : alphabet.all (fun c => c.val ≤ 127) := by decide
  exact fun c mem => of_decide_eq_true (List.all_eq_true.mp all c mem)

theorem utf8Size_of_value (value : digitValue? c = some d) : c.utf8Size = 1 := by
  obtain ⟨lt, here, -⟩ := List.idxOf?_eq_some_iff.mp value
  have upper := alphabet_ascii _ (List.getElem_mem lt)
  rw [here] at upper
  delta Char.toUpper at upper
  rw [Char.utf8Size_eq_one_iff]
  split at upper
  · rename_i small
    exact UInt32.le_trans small.2 (by decide)
  · exact upper

theorem utf8ByteSize_ofList (plain : ∀ c ∈ cs, c.utf8Size = 1) :
    (String.ofList cs).utf8ByteSize = cs.length := by
  induction cs with
  | nil => rfl
  | cons c cs ih =>
    obtain ⟨one, plain⟩ := List.forall_mem_cons.mp plain
    rw [String.ofList_cons, String.utf8ByteSize_append, String.utf8ByteSize_singleton, one,
      ih plain, List.length_cons, Nat.add_comm]

theorem utf8ByteSize_of_values (values : ∀ c ∈ raw.toList, ∃ d, digitValue? c = some d) :
    raw.utf8ByteSize = raw.toList.length := by
  have plain : ∀ c ∈ raw.toList, c.utf8Size = 1 := fun c mem => by
    obtain ⟨d, value⟩ := values c mem
    exact utf8Size_of_value value
  have bytes := utf8ByteSize_ofList plain
  rwa [String.ofList_toList] at bytes

/-! ## Identifiers -/

def capitals (raw : String) : String := String.ofList (raw.toList.map Char.toUpper)

def leading (raw : String) : Nat := (raw.toList.head?.bind digitValue?).getD 0

/-- What an accepted text is written as: in capital letters, the first of them a digit with the
three lowest bits of the one that is there. -/
def canonical (raw : String) : String :=
  String.ofList (digit (leading raw % 8) :: raw.toList.tail.map Char.toUpper)

theorem parse_ok (read : parse raw = .ok id) : ∃ c cs d v, raw.toList = c :: cs ∧
    cs.length = 25 ∧ digitValue? c = some d ∧ number? cs = some v ∧
    id.value = d % 8 * 32 ^ 25 + v := by
  unfold parse at read
  split at read
  · cases read
  · rename_i size
    split at read
    · cases read
    · rename_i n number
      cases read
      have count : raw.toList.length = 26 := by
        rw [← utf8ByteSize_of_values (number?_values number)]
        exact not_not.mp size
      cases cs : raw.toList with
      | nil => simp [cs] at count
      | cons c cs' =>
        rw [cs, List.length_cons, Nat.succ_inj] at count
        simp only [cs, number?_cons, Option.bind_eq_some_iff, Option.map_eq_some_iff,
          count] at number
        obtain ⟨d, value, v, others, rfl⟩ := number
        have lt := number?_lt others
        rw [count] at lt
        refine ⟨c, cs', d, v, rfl, count, value, others, ?_⟩
        change (d * 32 ^ 25 + v) % 2 ^ 128 = d % 8 * 32 ^ 25 + v
        omega

theorem text_canonical (read : parse raw = .ok id) : id.text = canonical raw := by
  obtain ⟨c, cs, d, v, chars, count, value, others, eq⟩ := parse_ok read
  have lt := number?_lt others
  have same := digits_number? others
  rw [count] at lt same
  have first : d % 8 % 32 = d % 8 := by omega
  rw [text, eq, length, digits_cons 25 _ lt, same, canonical, leading, chars, first]
  simp [value]

theorem canonical_eq_capitals (read : parse raw = .ok id) :
    canonical raw = capitals raw ↔ leading raw < 8 := by
  obtain ⟨c, cs, d, v, chars, -, value, -, -⟩ := parse_ok read
  obtain ⟨lt, same⟩ := digit_of_value value
  have first : leading raw = d := by simp [leading, chars, value]
  simp only [canonical, capitals, chars, first, String.ofList_inj, List.tail_cons, List.map_cons,
    List.cons.injEq, and_true, ← same]
  constructor
  · intro eq
    have values := congrArg digitValue? eq
    rw [value_of_digit _ (by omega), value_of_digit _ lt, Option.some.injEq] at values
    omega
  · intro low
    rw [Nat.mod_eq_of_lt low]

/-- Two texts name the same just when they have the same letters after the first digit, and first
digits with the same three lowest bits. -/
theorem canonical_eq_canonical : canonical raw = canonical raw' ↔
    leading raw % 8 = leading raw' % 8 ∧
      raw.toList.tail.map Char.toUpper = raw'.toList.tail.map Char.toUpper := by
  rw [canonical, canonical, String.ofList_inj, List.cons.injEq]
  refine and_congr_left fun _ => ⟨fun eq => ?_, fun eq => by rw [eq]⟩
  have values := congrArg digitValue? eq
  rwa [value_of_digit _ (by omega), value_of_digit _ (by omega), Option.some.injEq] at values

end Rebac.Identifier
