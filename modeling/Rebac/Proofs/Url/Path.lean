import Rebac.Proofs.Url.Front
import Mathlib.Data.List.Basic

set_option autoImplicit false

/-!
# Paths that go on

A path is cut into segments, dots are followed, and what is left is joined again. Segments that are
plain are kept as they are behind whatever the segments before them leave.
-/
namespace Rebac.Url

/-! ## Segments -/

section Pieces

variable {p : Char → Bool} {c : Char}

theorem piecesAt_of_none {cs : List Char} (none : ∀ c ∈ cs, p c = false) :
    Text.piecesAt p cs = [cs] := by
  induction cs with
  | nil => rfl
  | cons c rest ih =>
    obtain ⟨here, later⟩ := List.forall_mem_cons.mp none
    rw [Text.piecesAt, if_neg (by simp [here]), ih later]

theorem piecesAt_ne_nil (p : Char → Bool) (cs : List Char) : Text.piecesAt p cs ≠ [] := by
  cases cs with
  | nil => exact List.cons_ne_nil _ _
  | cons c rest =>
    unfold Text.piecesAt
    split
    · exact List.cons_ne_nil _ _
    · split
      · exact List.cons_ne_nil _ _
      · exact List.cons_ne_nil _ _

theorem piecesAt_append (separates : p c = true) (xs ys : List Char) :
    Text.piecesAt p (xs ++ c :: ys) = Text.piecesAt p xs ++ Text.piecesAt p ys := by
  induction xs with
  | nil => simp [Text.piecesAt, separates]
  | cons x xs ih =>
    rw [List.cons_append, Text.piecesAt, Text.piecesAt, ih]
    split
    · rfl
    · cases pieces : Text.piecesAt p xs with
      | nil => exact absurd pieces (piecesAt_ne_nil p xs)
      | cons piece others => rfl

theorem piecesAt_lengthen {more : List Char} (none : ∀ c ∈ more, p c = false) (xs : List Char) :
    ∃ front last, Text.piecesAt p xs = front ++ [last] ∧
      Text.piecesAt p (xs ++ more) = front ++ [last ++ more] := by
  induction xs with
  | nil => exact ⟨[], [], rfl, by rw [List.nil_append, piecesAt_of_none none]; rfl⟩
  | cons x xs ih =>
    obtain ⟨front, last, before, after⟩ := ih
    rw [List.cons_append, Text.piecesAt, Text.piecesAt, before, after]
    split
    · exact ⟨[] :: front, last, rfl, rfl⟩
    · cases front with
      | nil => exact ⟨[], x :: last, rfl, rfl⟩
      | cons piece front => exact ⟨(x :: piece) :: front, last, rfl, rfl⟩

end Pieces

def spell (segments : List (List Char)) : List Char := segments.flatMap fun segment => '/' :: segment

theorem spell_append (xs ys : List (List Char)) : spell (xs ++ ys) = spell xs ++ spell ys :=
  List.flatMap_append

theorem spell_slashes (n : Nat) : spell (List.replicate n []) = List.replicate n '/' := by
  induction n with
  | zero => rfl
  | succ n ih => rw [List.replicate_succ, List.replicate_succ, ← ih]; rfl

theorem piecesAt_spell {segments : List (List Char)}
    (whole : ∀ s ∈ segments, ∀ c ∈ s, isSlash true c = false) (xs : List Char) :
    Text.piecesAt (isSlash true) (xs ++ spell segments) =
      Text.piecesAt (isSlash true) xs ++ segments := by
  induction segments generalizing xs with
  | nil => rw [spell, List.flatMap_nil, List.append_nil, List.append_nil]
  | cons s rest ih =>
    obtain ⟨here, later⟩ := List.forall_mem_cons.mp whole
    have eq : spell (s :: rest) = '/' :: (s ++ spell rest) := List.flatMap_cons
    rw [eq, piecesAt_append (by decide), ih later, piecesAt_of_none here]
    rfl

/-! ## Dots -/

def isDots (segment : List Char) : Bool := isDoubleDot segment || isSingleDot segment

def follow (acc : List (List Char)) (segment : List Char) : List (List Char) :=
  if isDoubleDot segment then acc.drop 1
  else if isSingleDot segment then acc
  else percentEncode pathSet segment :: acc

theorem followDots_append {rest : List (List Char)} (more : rest ≠ []) (acc ps : List (List Char)) :
    followDots acc (ps ++ rest) = followDots (ps.foldl follow acc) rest := by
  induction ps generalizing acc with
  | nil => rfl
  | cons s ps ih =>
    have goesOn : (ps ++ rest).isEmpty = false := by
      simpa using fun _ => more
    rw [List.cons_append, followDots, List.foldl_cons, follow, goesOn]
    split
    · exact ih _
    · split
      · exact ih _
      · exact ih _

/-- The last segment, if it is dots, leaves an empty one behind those that it keeps. -/
theorem followDots_last (acc : List (List Char)) (segment : List Char) :
    followDots acc [segment] =
      (follow acc segment).reverse ++ if isDots segment then [[]] else [] := by
  rw [followDots, follow, isDots]
  by_cases double : isDoubleDot segment = true
  · simp [double]
  · by_cases single : isSingleDot segment = true
    · simp [double, single]
    · simp [double, single, followDots]

theorem followDots_whole {segments : List (List Char)} (some : segments ≠ []) :
    followDots [] segments = (segments.foldl follow []).reverse ++
      if isDots (segments.getLast some) then [[]] else [] := by
  obtain ⟨front, last, rfl⟩ := (List.eq_nil_or_concat' segments).resolve_left some
  rw [followDots_append (List.cons_ne_nil _ _), followDots_last, List.foldl_append]
  simp

theorem follow_dotless {segment : List Char} (dotless : isDots segment = false)
    (acc : List (List Char)) : follow acc segment = percentEncode pathSet segment :: acc := by
  rw [isDots, Bool.or_eq_false_iff] at dotless
  rw [follow, dotless.1, dotless.2]
  rfl

def isPlainChar (c : Char) : Bool := !isSlash true c && !isControl c && !pathSet.contains c

structure Plain (segment : List Char) : Prop where
  chars : segment.all isPlainChar = true
  dotless : isDots segment = false

theorem plain_nil : Plain [] := ⟨rfl, by decide⟩

namespace Plain

variable {segment : List Char} (plain : Plain segment)

include plain

theorem char {c : Char} (mem : c ∈ segment) :
    isSlash true c = false ∧ isControl c = false ∧ pathSet.contains c = false := by
  have kept := List.all_eq_true.mp plain.chars c mem
  simp only [isPlainChar, Bool.and_eq_true, Bool.not_eq_true'] at kept
  exact ⟨kept.1.1, kept.1.2, kept.2⟩

theorem encoded : percentEncode pathSet segment = segment := by
  have each : ∀ c ∈ segment,
      (if isControl c || pathSet.contains c then escapeChar c else [c]) = [c] := fun c mem => by
    rw [(plain.char mem).2.1, (plain.char mem).2.2]
    rfl
  rw [percentEncode, List.flatMap_congr each, List.flatMap_singleton']

end Plain

theorem follow_plain {segment : List Char} (plain : Plain segment) (acc : List (List Char)) :
    follow acc segment = segment :: acc := by
  rw [follow_dotless plain.dotless, plain.encoded]

theorem followDots_plain {segments : List (List Char)} (plain : ∀ s ∈ segments, Plain s)
    (acc : List (List Char)) : followDots acc segments = acc.reverse ++ segments := by
  induction segments generalizing acc with
  | nil => rw [followDots, List.append_nil]
  | cons s rest ih =>
    obtain ⟨here, later⟩ := List.forall_mem_cons.mp plain
    cases rest with
    | nil =>
      rw [followDots_last, follow_plain here, here.dotless]
      simp
    | cons t rest =>
      have split : s :: t :: rest = [s] ++ t :: rest := rfl
      rw [split, followDots_append (List.cons_ne_nil _ _), List.foldl_cons, List.foldl_nil,
        follow_plain here, ih later, List.reverse_cons, List.append_assoc]

def dotTexts : List String := [".", "%2e", "..", ".%2e", "%2e.", "%2e%2e"]

theorem isDots_apart {segment : List Char}
    (apart : ∀ text ∈ dotTexts, String.ofList (segment.map Char.toLower) ≠ text) :
    isDots segment = false := by
  simp only [dotTexts, List.forall_mem_cons] at apart
  simp [isDots, isDoubleDot, isSingleDot, apart]

theorem isDots_long {segment : List Char} (long : 6 < segment.length) : isDots segment = false := by
  refine isDots_apart fun text mem => ?_
  have short : text.toList.length ≤ 6 := by
    simp only [dotTexts, List.mem_cons, List.not_mem_nil, or_false] at mem
    rcases mem with rfl | rfl | rfl | rfl | rfl | rfl <;> decide
  rintro rfl
  rw [String.toList_ofList, List.length_map] at short
  omega

theorem isDots_edge {segment : List Char} {c : Char} (last : segment.getLast? = some c)
    (edge : isEdge c = true) : isDots segment = false := by
  refine isDots_apart fun text mem => ?_
  have high : ∃ d, text.toList.getLast? = some d ∧ 0x20 < d.toNat := by
    simp only [dotTexts, List.mem_cons, List.not_mem_nil, or_false] at mem
    rcases mem with rfl | rfl | rfl | rfl | rfl | rfl <;> exact ⟨_, rfl, by decide⟩
  obtain ⟨d, eq, high⟩ := high
  rintro rfl
  rw [String.toList_ofList, List.getLast?_map, last, Option.map_some, toLower_edge edge] at eq
  cases eq
  exact edge_ne edge high rfl

/-! ## Whole paths -/

/-- The segments that are left of a path, last first, if more segments come. -/
def kept (path : List Char) : List (List Char) :=
  (Text.piecesAt (isSlash true) path).tail.foldl follow []

def base (path : List Char) : List Char := spell (kept path).reverse

def Rooted (path : List Char) : Prop := ∀ c ∈ path.head?, isSlash true c = true

theorem segments_ne_nil {path : List Char} (filled : path ≠ []) (rooted : Rooted path) :
    (Text.piecesAt (isSlash true) path).tail ≠ [] := by
  cases path with
  | nil => exact absurd rfl filled
  | cons c rest =>
    rw [Text.piecesAt, if_pos (rooted c rfl)]
    exact piecesAt_ne_nil _ _

section Reading

variable {parts : Parts} {path : List Char} (special : isSpecial parts.scheme = true)

include special

theorem readPath_rooted (whole : parts.path = path) (filled : path ≠ []) (rooted : Rooted path) :
    readPath parts = spell (followDots [] (Text.piecesAt (isSlash true) path).tail) := by
  unfold readPath
  cases path with
  | nil => exact absurd rfl filled
  | cons c rest =>
    have slash : isSlash true c = true := rooted c rfl
    simp only [whole, special, slash, if_true, normalPath, Text.piecesAt, List.drop_succ_cons,
      List.drop_zero, List.tail_cons, spell]

theorem readPath_joined {segments : List (List Char)} (some : segments ≠ [])
    (plain : ∀ s ∈ segments, Plain s) (whole : parts.path = path ++ spell segments)
    (rooted : Rooted path) : readPath parts = base path ++ spell segments := by
  obtain ⟨s, rest, eq⟩ := List.exists_cons_of_ne_nil some
  have filled : path ++ spell segments ≠ [] := by simp [eq, spell]
  have starts : Rooted (path ++ spell segments) := by
    cases path with
    | cons c rest => exact rooted
    | nil =>
      subst eq
      rintro c ⟨⟩
      decide
  have inside : ∀ s ∈ segments, ∀ c ∈ s, isSlash true c = false := fun s mem c there =>
    ((plain s mem).char there).1
  rw [readPath_rooted special whole filled starts, piecesAt_spell inside,
    List.tail_append_of_ne_nil (piecesAt_ne_nil _ _), followDots_append some,
    followDots_plain plain, spell_append]
  rfl

theorem readPath_alone (whole : parts.path = path) (filled : path ≠ []) (rooted : Rooted path) :
    readPath parts = base path ∨ readPath parts = base path ++ ['/'] := by
  rw [readPath_rooted special whole filled rooted,
    followDots_whole (segments_ne_nil filled rooted), spell_append]
  split
  · exact .inr rfl
  · exact .inl (List.append_nil _)

end Reading

theorem spell_last (acc : List (List Char)) (segment : List Char) :
    spell (segment :: acc).reverse = spell acc.reverse ++ '/' :: segment := by
  rw [List.reverse_cons, spell_append]
  simp [spell]

theorem length_followDots_last (acc : List (List Char)) (segment : List Char) :
    (spell (followDots acc [segment])).length ≤
      (spell acc.reverse).length + 1 + (percentEncode pathSet segment).length := by
  rw [followDots_last, spell_append, List.length_append]
  cases dots : isDots segment with
  | false =>
    rw [follow_dotless dots, spell_last, List.length_append, List.length_cons]
    exact Nat.le_of_eq (by simp [spell]; omega)
  | true =>
    have fewer : (spell (follow acc segment).reverse).length ≤ (spell acc.reverse).length := by
      have less : (spell (acc.drop 1).reverse).length ≤ (spell acc.reverse).length := by
        cases acc with
        | nil => exact Nat.le_refl _
        | cons s rest => simp [spell]
      rw [isDots, Bool.or_eq_true] at dots
      unfold follow
      split
      · exact less
      · exact Nat.le_of_eq (by rw [if_pos (dots.resolve_left ‹_›)])
    have one : (spell (if true = true then [[]] else [])).length = 1 := rfl
    omega

theorem length_percentEncode_pos {extra cs : List Char} (filled : cs ≠ []) :
    0 < (percentEncode extra cs).length := by
  obtain ⟨c, rest, rfl⟩ := List.exists_cons_of_ne_nil filled
  have one : 0 < (if isControl c || extra.contains c then escapeChar c else [c]).length := by
    split
    · have bytes : 0 < (String.utf8EncodeChar c).length := by
        rw [String.length_utf8EncodeChar]
        exact c.utf8Size_pos
      obtain ⟨b, others, eq⟩ := List.exists_cons_of_length_pos bytes
      simp [escapeChar, eq, escapeByte]
    · exact Nat.one_pos
  rw [percentEncode, List.flatMap_cons, List.length_append]
  exact Nat.add_pos_left one _

theorem length_readPath_lt {parts : Parts} {path more : List Char} {c : Char}
    (special : isSpecial parts.scheme = true) (whole : parts.path = path) (filled : path ≠ [])
    (rooted : Rooted path) (inside : ∀ c ∈ more, isSlash true c = false)
    (last : more.getLast? = some c) (edge : isEdge c = true) :
    (readPath parts).length < (base (path ++ more)).length := by
  obtain ⟨front, segment, before, after⟩ := piecesAt_lengthen inside path
  have some : front ≠ [] := by
    rintro rfl
    have filled := segments_ne_nil filled rooted
    rw [before] at filled
    exact filled rfl
  -- With the edge behind it the last segment is kept even if it was dots.
  have dotless : isDots (segment ++ more) = false := by
    refine isDots_edge (c := c) ?_ edge
    rw [List.getLast?_append, last]
    rfl
  have longer : 0 < (percentEncode pathSet more).length := length_percentEncode_pos <| by
    rintro rfl
    cases last
  have encoded : percentEncode pathSet (segment ++ more) =
      percentEncode pathSet segment ++ percentEncode pathSet more := List.flatMap_append
  rw [readPath_rooted special whole filled rooted, base, kept, before, after,
    List.tail_append_of_ne_nil some, List.tail_append_of_ne_nil some,
    followDots_append (List.cons_ne_nil _ _), List.foldl_append, List.foldl_cons, List.foldl_nil,
    follow_dotless dotless, spell_last, encoded, List.length_append, List.length_cons,
    List.length_append]
  have shorter := length_followDots_last (front.tail.foldl follow []) segment
  omega

end Rebac.Url
