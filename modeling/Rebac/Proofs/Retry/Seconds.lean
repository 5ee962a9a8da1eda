import Rebac.Proofs.Retry.Hint
import Rebac.Proofs.Time.Instant

set_option autoImplicit false

/-! # Bare numbers of seconds -/

namespace Rebac

open Number

namespace Retry.Hint

structure Bare (n : Int) (text : String) : Prop where
  written : ∃ before cs after, text.toList = before ++ cs ++ after ∧
    (∀ c ∈ before, Text.isBlank c) ∧ (∀ c ∈ after, Text.isBlank c) ∧ Numeral n cs

variable {n : Int} {text : String}

theorem parse?_numeral (bare : Bare n text) (least : -2 ^ 63 ≤ n) (most : n < 2 ^ 63) :
    parse? text = ofSeconds? n := by
  obtain ⟨before, cs, after, whole, front, back, numeral⟩ := bare.written
  have numeric := readInt?_numeric numeral.read
  have left : Text.trim text.toList = cs := by
    rw [whole]
    exact trim_between front back numeral.filled
      (fun c head => isBlank_numeric (numeric c (List.mem_of_head? head)))
      (fun c last => isBlank_numeric (numeric c (List.mem_of_getLast? last)))
  have last : cs.getLast? ≠ some 's' :=
    fun last => absurd (numeric 's' (List.mem_of_getLast? last)) (by decide)
  have bounds : decide (-(Int.pow 2 63) ≤ n ∧ n < Int.pow 2 63) = true :=
    decide_eq_true ⟨least, most⟩
  have read : readInt64? cs = some n := by
    rw [readInt64?, numeral.read, Option.filter_some, if_pos bounds]
  rw [parse?_unitless left numeral.filled last, read, Option.elim_some]

theorem ofSeconds?_dated (dated : n ≤ Instant.lastSecond) : ofSeconds? n =
    some (if n < epochThreshold then .relative (.ofSeconds n.toNat) else .absolute ⟨n, 0⟩) := by
  unfold ofSeconds?
  by_cases below : n < epochThreshold
  · rw [if_pos below, if_pos below]
  · rw [if_neg below, if_neg below, if_pos dated]

end Retry.Hint

namespace Retry.Policy

variable (p : Policy) (attempt : Nat) (now : Instant)

/-- What a policy makes of a bare number of seconds in a text. -/
structure Honours (p : Policy) (attempt : Nat) (now : Instant) (text : String) (n : Int) :
    Prop where
  usable : (Hint.parse? text).isSome
  /-- Neither the attempt nor the least wait counts for anything. -/
  alone : ∀ (q : Policy) other, q.maxWait = p.maxWait →
    q.delayFor other (some text) now = p.delayFor attempt (some text) now
  negative : n < 0 → p.delayFor attempt (some text) now = .zero
  fromNow : 0 ≤ n → n < Hint.epochThreshold →
    ((p.delayFor attempt (some text) now).nanos : Int) = min (p.maxWait.nanos : Int) (n * 10 ^ 9)
  instant : Hint.epochThreshold ≤ n → ((p.delayFor attempt (some text) now).nanos : Int) =
    min (p.maxWait.nanos : Int) (max 0 (n * 10 ^ 9 - now.elapsed))

theorem nanos_relative {n : Int} :
    ((min (Hint.delayFrom now (.relative (.ofSeconds n.toNat))) p.maxWait).nanos : Int) =
      min (p.maxWait.nanos : Int) (max 0 n * 10 ^ 9) := by
  have exact := Duration.nanos_min_ofNanos (n.toNat * Nat.pow 10 9) p.maxWait
  have second : Nat.pow 10 9 = 1000000000 := by decide
  change ((min (Duration.ofNanos (n.toNat * Nat.pow 10 9)) p.maxWait).nanos : Int) = _
  rw [exact, second]
  omega

theorem nanos_absolute {t now : Instant} (later : t.isLeap = false) (earlier : now.isLeap = false) :
    ((min (Hint.delayFrom now (.absolute t)) p.maxWait).nanos : Int) =
      min (p.maxWait.nanos : Int) (max 0 (t.elapsed - now.elapsed)) := by
  have exact := Duration.nanos_min_ofNanos (t.nanosSince now).toNat p.maxWait
  rw [Instant.nanosSince_steady later earlier] at exact
  change ((min (Duration.ofNanos (t.nanosSince now).toNat) p.maxWait).nanos : Int) = _
  rw [Instant.nanosSince_steady later earlier, exact]
  omega

/-- A bare number of seconds, from the least number of 64 bits up to the last date, is honoured
exactly: a negative one asks for no wait, one below the threshold for so many seconds, and any other
for the time until then. -/
theorem bare_seconds_honoured {text : String} {n : Int} (bare : Hint.Bare n text)
    (least : -2 ^ 63 ≤ n) (dated : n ≤ Instant.lastSecond) (steady : now.isLeap = false) :
    Honours p attempt now text n := by
  have most : n < 2 ^ 63 := by
    rw [Instant.lastSecond] at dated
    omega
  have read := (Hint.parse?_numeral bare least most).trans (Hint.ofSeconds?_dated dated)
  have wait := delayFor_read p attempt now read
  have epoch : Hint.epochThreshold = 1000000000 := rfl
  refine ⟨by rw [read]; rfl, fun q other same => ?_, fun negative => ?_, fun positive below => ?_,
    fun above => ?_⟩
  · rw [delayFor_read q other now read, wait, same]
  · rw [wait, if_pos (by omega)]
    apply Duration.ext
    have exact := p.nanos_relative now (n := n)
    have zero : Duration.zero.nanos = 0 := rfl
    omega
  · rw [wait, if_pos below, nanos_relative, max_eq_right positive]
  · rw [wait, if_neg (Int.not_lt.mpr above), nanos_absolute p rfl steady]
    simp [Instant.elapsed]

/-- A quarter of a second after 07:28:00, ten seconds past it are nine seconds and three quarters
away. -/
theorem ten_past_honoured : Hint.Bare 1445412490 "\t1445412490 \n" ∧
    Instant.isLeap ⟨1445412480, 250000000⟩ = false ∧
    Honours standard 0 ⟨1445412480, 250000000⟩ "\t1445412490 \n" 1445412490 ∧
    (standard.delayFor 0 (some "\t1445412490 \n") ⟨1445412480, 250000000⟩).nanos = 9750000000 := by
  have bare : Hint.Bare 1445412490 "\t1445412490 \n" :=
    ⟨['\t'], _, [' ', '\n'], by decide +kernel, by simp [Text.isBlank], by simp [Text.isBlank],
      numeral_toString 1445412490⟩
  have honours := bare_seconds_honoured standard 0 ⟨1445412480, 250000000⟩ bare (by decide)
    (by decide) rfl
  have exact := honours.instant (by decide)
  exact ⟨bare, rfl, honours, Int.ofNat.inj (exact.trans (by decide +kernel))⟩

end Retry.Policy

end Rebac
