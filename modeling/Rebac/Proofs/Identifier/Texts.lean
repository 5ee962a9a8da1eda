import Rebac.Proofs.Fallible
import Rebac.Proofs.Identifier

set_option autoImplicit false

/-! # Identifiers and their texts -/

namespace Rebac.Identifier

variable {c : Char} {cs : List Char} {n v : Nat} {raw : String} {id : Identifier}

/-! ## Bytes -/

def DigitByte (b : UInt8) : Prop := ∃ d ∈ alphabet, b = d.toUInt8 ∨ b = d.toLower.toUInt8

theorem digitByte_iff {b : UInt8} : DigitByte b ↔
    alphabet.any (fun d => b == d.toUInt8 || b == d.toLower.toUInt8) = true := by
  simp [DigitByte, List.any_eq_true]

theorem digitByte_ascii {n : Nat} (ascii : n < 128) :
    DigitByte (UInt8.ofNat n) ↔ (digitValue? (Char.ofNat n)).isSome = true := by
  have all : (List.range 128).all (fun n =>
      alphabet.any (fun d => UInt8.ofNat n == d.toUInt8 || UInt8.ofNat n == d.toLower.toUInt8) ==
        (digitValue? (Char.ofNat n)).isSome) = true := by decide +kernel
  have same := List.all_eq_true.mp all n (List.mem_range.mpr ascii)
  rw [digitByte_iff, eq_of_beq same]

theorem digitByte_lt {b : UInt8} (digit : DigitByte b) : b.toNat < 128 := by
  have all : alphabet.all (fun d => Nat.blt d.toUInt8.toNat 128 &&
      Nat.blt d.toLower.toUInt8.toNat 128) = true := by decide
  obtain ⟨d, mem, eq⟩ := digit
  have small := List.all_eq_true.mp all d mem
  simp only [Bool.and_eq_true, Nat.blt_eq] at small
  rcases eq with rfl | rfl
  · exact small.1
  · exact small.2

theorem high_byte (long : ¬ c.toNat ≤ 0x7f) :
    ∃ b ∈ String.utf8EncodeChar c, 128 ≤ b.toNat := by
  have last : 128 ≤ (UInt8.ofNat (c.val.toNat % 0x40 + 0x80)).toNat := by
    rw [UInt8.toNat_ofNat']
    omega
  refine ⟨_, ?_, last⟩
  unfold String.utf8EncodeChar
  have none : ¬ c.val.toNat ≤ 0x7f := long
  simp only [if_neg none]
  split_ifs <;> simp

theorem digitByte_char :
    (∀ b ∈ String.utf8EncodeChar c, DigitByte b) ↔ ∃ d, digitValue? c = some d := by
  rw [← Option.isSome_iff_exists]
  by_cases ascii : c.toNat ≤ 0x7f
  · have byte : String.utf8EncodeChar c = [UInt8.ofNat c.toNat] := if_pos ascii
    rw [byte, List.forall_mem_singleton, digitByte_ascii (Nat.lt_succ_of_le ascii),
      Char.ofNat_toNat]
  · constructor
    · intro digits
      obtain ⟨b, mem, high⟩ := high_byte ascii
      exact absurd (digitByte_lt (digits b mem)) (Nat.not_lt.mpr high)
    · intro value
      obtain ⟨d, value⟩ := Option.isSome_iff_exists.mp value
      have one := Char.utf8Size_eq_one_iff.mp (utf8Size_of_value value)
      exact absurd (UInt32.le_iff_toNat_le.mp one) ascii

theorem digitBytes_iff : (∀ b ∈ raw.toByteArray.data, DigitByte b) ↔
    ∀ c ∈ raw.toList, ∃ d, digitValue? c = some d := by
  have bytes : raw.toByteArray.data = (raw.toList.flatMap String.utf8EncodeChar).toArray := by
    rw [← String.utf8Encode_toList, List.utf8Encode, List.data_toByteArray]
  simp only [bytes, List.mem_toArray, List.mem_flatMap, ← digitByte_char]
  exact ⟨fun all c mem b within => all b ⟨c, mem, within⟩,
    fun all b ⟨c, mem, within⟩ => all c mem b within⟩

/-! ## Reading -/

theorem number?_of_values (values : ∀ c ∈ cs, ∃ d, digitValue? c = some d) :
    ∃ v, number? cs = some v := by
  induction cs with
  | nil => exact ⟨0, rfl⟩
  | cons c cs ih =>
    obtain ⟨⟨d, value⟩, others⟩ := List.forall_mem_cons.mp values
    obtain ⟨v, read⟩ := ih others
    rw [number?_cons, value, read]
    exact ⟨_, rfl⟩

theorem parse_sized (size : raw.utf8ByteSize = 26) :
    parse raw = (number? raw.toList).elim (.error .character) fun n => .ok (ofNat n) := by
  have sized : ¬ raw.utf8ByteSize ≠ length := not_not.mpr size
  rw [parse, if_neg sized]
  cases number? raw.toList with
  | none => rfl
  | some n => rfl

/-- How texts are read: the length comes before the characters. -/
structure Reading (raw : String) : Prop where
  accepted : (∃ id, parse raw = .ok id) ↔
    raw.utf8ByteSize = 26 ∧ ∀ b ∈ raw.toByteArray.data, DigitByte b
  length : parse raw = .error .length ↔ raw.utf8ByteSize ≠ 26
  character : parse raw = .error .character ↔
    raw.utf8ByteSize = 26 ∧ ∃ b ∈ raw.toByteArray.data, ¬ DigitByte b

theorem parse_reading (raw : String) : Reading raw := by
  by_cases size : raw.utf8ByteSize = 26
  · cases number : number? raw.toList with
    | none =>
      have failed : parse raw = .error .character := by rw [parse_sized size, number]; rfl
      have bad : ¬ ∀ b ∈ raw.toByteArray.data, DigitByte b := by
        intro all
        obtain ⟨v, read⟩ := number?_of_values (digitBytes_iff.mp all)
        cases number.symm.trans read
      have one : ∃ b ∈ raw.toByteArray.data, ¬ DigitByte b := by simpa using bad
      exact ⟨by simp [failed, bad], by simp [failed, size], by simp [failed, size, one]⟩
    | some v =>
      have read : parse raw = .ok (ofNat v) := by rw [parse_sized size, number]; rfl
      have all := digitBytes_iff.mpr (number?_values number)
      have none : ¬ ∃ b ∈ raw.toByteArray.data, ¬ DigitByte b := fun ⟨b, mem, not⟩ => not (all b mem)
      exact ⟨iff_of_true ⟨_, read⟩ ⟨size, all⟩, by simp [read, size], by simp [read, none]⟩
  · have failed : parse raw = .error .length := if_pos size
    exact ⟨by simp [failed, size], by simp [failed, size], by simp [failed, size]⟩

/-! ## Writing -/

theorem value_of_capital : ∀ n < 32, alphabet.idxOf? (digit n) = some n := by decide

theorem number?_digits (fits : v < 32 ^ n) (written : cs.map Char.toUpper = digits n v) :
    number? cs = some v := by
  induction n generalizing cs v with
  | zero =>
    cases Nat.lt_one_iff.mp fits
    rw [List.map_eq_nil_iff.mp written]
    rfl
  | succ n ih =>
    rw [digits] at written
    obtain ⟨front, back, rfl, high, low⟩ := List.map_eq_append_iff.mp written
    obtain ⟨c, rfl, capital⟩ := List.map_eq_singleton_iff.mp low
    have value : digitValue? c = some (v % 32) := by
      rw [digitValue?, capital]
      exact value_of_capital _ (Nat.mod_lt _ (by decide))
    have read := ih (Nat.div_lt_of_lt_mul (by rwa [← Nat.pow_succ'])) high
    rw [number?] at read ⊢
    rw [List.foldlM_append, read]
    simp only [Option.bind_eq_bind, Option.bind_some, List.foldlM_cons, List.foldlM_nil, value,
      Option.map_some, Option.pure_def]
    rw [Nat.mul_comm, Nat.div_add_mod]

/-- What an identifier is written as: 26 digits in capitals, the first at most seven. -/
structure Written (raw : String) : Prop where
  count : raw.toList.length = 26
  digits : ∀ c ∈ raw.toList, c ∈ alphabet
  first : ∃ c rest, raw.toList = c :: rest ∧ c ≤ '7'

theorem digits_split (count v : Nat) :
    digits (count + 1) v = digit (v / 32 ^ count % 32) :: digits count (v % 32 ^ count) := by
  have split := digits_cons count (v / 32 ^ count) (Nat.mod_lt v (Nat.pow_pos (by decide)))
  rwa [Nat.mul_comm, Nat.div_add_mod] at split

theorem text_toList (id : Identifier) : id.text.toList = digits length id.value :=
  String.toList_ofList

theorem text_written (id : Identifier) : Written id.text := by
  -- what is above the 25 digits after the first are three bits
  have bits : Nat.pow 2 128 = 32 ^ 25 * 8 := by decide
  have low : id.value / 32 ^ 25 < 8 := Nat.div_lt_of_lt_mul (bits ▸ id.value_lt)
  have small : ∀ n < 8, digit n ≤ '7' := by decide
  constructor
  · rw [text_toList, length_digits]
    rfl
  · rw [text_toList]
    exact fun c => mem_digits
  · rw [text_toList, length, digits_split]
    exact ⟨_, _, rfl, small _ (Nat.lt_of_le_of_lt (Nat.mod_le _ _) low)⟩

theorem capital_value (mem : c ∈ alphabet) :
    c.toUpper = c ∧ ∃ d, digitValue? c = some d ∧ (c ≤ '7' → d < 8) := by
  have all : alphabet.all (fun c => c.toUpper == c &&
      (digitValue? c).any fun d => !decide (c ≤ '7') || Nat.blt d 8) = true := by decide
  have checked := List.all_eq_true.mp all c mem
  rw [Bool.and_eq_true, Option.any_eq_true] at checked
  obtain ⟨same, d, value, low⟩ := checked
  refine ⟨eq_of_beq same, d, value, fun small => ?_⟩
  simpa [small] using low

theorem Written.capitals_eq (written : Written raw) : capitals raw = raw := by
  have same : raw.toList.map Char.toUpper = raw.toList := by
    rw [List.map_congr_left fun c mem => (capital_value (written.digits c mem)).1, List.map_id']
  rw [capitals, same, String.ofList_toList]

theorem parse_text (same : capitals raw = id.text) : parse raw = .ok id := by
  have written : raw.toList.map Char.toUpper = digits length id.value := by
    rw [← text_toList, ← same, capitals, String.toList_ofList]
  have bits : Nat.pow 2 128 < 32 ^ length := by decide
  have number := number?_digits (Nat.lt_trans id.value_lt bits) written
  have size : raw.utf8ByteSize = 26 := by
    rw [utf8ByteSize_of_values (number?_values number), ← List.length_map Char.toUpper, written,
      length_digits]
    rfl
  have whole : ofNat id.value = id := by
    cases id with
    | mk value lt => simp only [ofNat, Nat.mod_eq_of_lt lt]
  rw [parse_sized size, number, Option.elim_some, whole]

theorem parse_own_text (id : Identifier) : parse id.text = .ok id :=
  parse_text (text_written id).capitals_eq

theorem decode_toJson (id : Identifier) : decode id.toJson = .ok id := by
  simp only [toJson, decode, Json.asString, bind, Except.bind, parse_own_text]
  rfl

theorem text_injective : Function.Injective text := by
  intro id id' same
  have read := parse_own_text id
  rw [same, parse_own_text id'] at read
  cases read
  rfl

theorem Written.exists_text (written : Written raw) : ∃ id : Identifier, id.text = raw := by
  have values : ∀ c ∈ raw.toList, ∃ d, digitValue? c = some d := fun c mem => by
    obtain ⟨-, d, value, -⟩ := capital_value (written.digits c mem)
    exact ⟨d, value⟩
  have size : raw.utf8ByteSize = 26 := (utf8ByteSize_of_values values).trans written.count
  obtain ⟨id, read⟩ := (parse_reading raw).accepted.mpr ⟨size, digitBytes_iff.mpr values⟩
  refine ⟨id, ?_⟩
  have low : leading raw < 8 := by
    obtain ⟨c, rest, chars, first⟩ := written.first
    obtain ⟨-, d, value, low⟩ := capital_value (written.digits c (by simp [chars]))
    rw [leading, chars, List.head?_cons, Option.bind_some, value]
    exact low first
  rw [text_canonical read, (canonical_eq_capitals read).mpr low, written.capitals_eq]

end Rebac.Identifier
