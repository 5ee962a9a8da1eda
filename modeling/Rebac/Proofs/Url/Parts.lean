import Rebac.Proofs.Fallible
import Rebac.Proofs.Url.Front

set_option autoImplicit false

/-! # What is read of the parts -/

namespace Rebac.Url

variable {scheme authority rest rest' cs xs : List Char} {u : Url}

/-! ## Queries and fragments -/

def isTail (c : Char) : Bool := c = '?' || c = '#'

theorem tail_visible {c : Char} (tail : isTail c = true) : isEdge c = false ∧ c ≠ '/' := by
  simp only [isTail, Bool.or_eq_true, decide_eq_true_eq] at tail
  rcases tail with rfl | rfl
  · decide
  · decide

theorem takeWhile_stopped {p : Char → Bool} (stop : ∃ c ∈ xs, p c = false) (ys : List Char) :
    (xs ++ ys).takeWhile p = xs.takeWhile p := by
  rw [List.takeWhile_append, if_neg]
  intro whole
  obtain ⟨c, mem, stops⟩ := stop
  have all := List.takeWhile_eq_self_iff.mp ((List.takeWhile_prefix p).eq_of_length whole)
  rw [all c mem] at stops
  cases stops

theorem breakAt_tail (cs : List Char) : breakAt (fun c => c = '?' || c = '#') cs =
    (cs.takeWhile fun c => !isTail c, cs.dropWhile fun c => !isTail c) := rfl

theorem splitTail_path (cs : List Char) : (splitTail cs).1 = cs.takeWhile fun c => !isTail c := by
  simp only [splitTail, breakAt_tail]
  split
  · split
    · rfl
    · rfl
  · rfl
  · rfl

theorem splitTail_none : (splitTail cs).2.1 = none ∧ (splitTail cs).2.2 = none ↔
    ∀ c ∈ cs, isTail c = false := by
  have all : cs.dropWhile (fun c => !isTail c) = [] ↔ ∀ c ∈ cs, isTail c = false := by
    simp [List.dropWhile_eq_nil_iff]
  rw [← all]
  simp only [splitTail, breakAt_tail]
  split
  · rename_i behind
    split
    · simp [behind]
    · simp [behind]
  · rename_i behind
    simp [behind]
  · rename_i behind
    simp [behind]

theorem kept_visible {c : Char} (kept : isControl c = false ∧ pathSet.contains c = false) :
    isEdge c = false ∧ isTail c = false := by
  obtain ⟨plain, outside⟩ := kept
  constructor
  · by_contra edge
    have low := edge_low (Bool.not_eq_false _ ▸ edge)
    by_cases space : c = ' '
    · subst space
      exact absurd outside (by decide)
    · have differs : c.toNat ≠ 0x20 := fun eq => space (Char.toNat_inj.mp eq)
      simp only [isControl, Bool.or_eq_false_iff, decide_eq_false_iff_not] at plain
      omega
  · simp only [isTail, Bool.or_eq_false_iff, decide_eq_false_iff_not]
    constructor
    · rintro rfl
      exact absurd outside (by decide)
    · rintro rfl
      exact absurd outside (by decide)

/-! ## URLs from parts -/

theorem written_path (scheme authority : List Char) (whole : ∀ c ∈ rest, isTail c = false) :
    (written scheme authority rest).path = rest := by
  refine (splitTail_path rest).trans (List.takeWhile_eq_self_iff.mpr fun c mem => ?_)
  rw [whole c mem]
  rfl

theorem readPath_written (same : (splitTail rest).1 = (splitTail rest').1) :
    readPath (written scheme authority rest) = readPath (written scheme authority rest') := by
  simp only [readPath, written, same]
  rfl

def located (a : Authority) (parts : Parts) : Url where
  scheme := String.ofList parts.scheme
  username := a.username
  password := a.password
  host := a.host
  port := a.port
  path := String.ofList (readPath parts)
  query := parts.query.map fun cs =>
    String.ofList (percentEncode (querySet (isSpecial parts.scheme)) cs)
  fragment := parts.fragment.map fun cs => String.ofList (percentEncode fragmentSet cs)

theorem ofParts_written : ofParts (written scheme authority rest) = .ok u ↔
    ∃ a, readAuthority scheme authority = .ok a ∧ located a (written scheme authority rest) = u := by
  rw [ofParts]
  refine Fallible.bind_ok.trans ?_
  simp only [written, located, pure, Except.pure, Except.ok.injEq]

structure SameServer (u v : Url) : Prop where
  scheme : v.scheme = u.scheme
  host : v.host = u.host
  port : v.port = u.port

theorem ofParts_again (read : ofParts (written scheme authority rest) = .ok u)
    (rest' : List Char) : ∃ v, ofParts (written scheme authority rest') = .ok v ∧ SameServer u v ∧
      v.path = String.ofList (readPath (written scheme authority rest')) := by
  obtain ⟨a, named, rfl⟩ := ofParts_written.mp read
  exact ⟨_, ofParts_written.mpr ⟨a, named, rfl⟩, ⟨rfl, rfl, rfl⟩, rfl⟩

theorem ofParts_path (read : ofParts (written scheme authority rest) = .ok u) :
    u.path = String.ofList (readPath (written scheme authority rest)) := by
  obtain ⟨a, -, rfl⟩ := ofParts_written.mp read
  rfl

theorem ofParts_tail (read : ofParts (written scheme authority rest) = .ok u) :
    (u.query = none ∧ u.fragment = none) ↔ ∀ c ∈ rest, isTail c = false := by
  obtain ⟨a, -, rfl⟩ := ofParts_written.mp read
  rw [← splitTail_none]
  simp only [located, written, Option.map_eq_none_iff]

theorem ofParts_scheme {parts : Parts} (read : ofParts parts = .ok u) :
    u.scheme = String.ofList parts.scheme := by
  rw [ofParts] at read
  split at read
  · obtain ⟨a, -, made⟩ := Fallible.bind_ok.mp read
    cases made
    rfl
  · cases read
    rfl

end Rebac.Url
