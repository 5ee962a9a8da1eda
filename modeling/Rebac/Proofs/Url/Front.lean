import Rebac.Proofs.Number.Digits
import Rebac.Url.Basic

set_option autoImplicit false

/-! # The front of a URL -/

namespace Rebac

/-! ## Cutting at the end -/

namespace Text

variable {p q : Char → Bool} {xs ys : List Char}

theorem dropEndWhile_append_taken (p : Char → Bool) (cs : List Char) :
    dropEndWhile p cs ++ (cs.reverse.takeWhile p).reverse = cs := by
  rw [dropEndWhile, ← List.reverse_append, List.takeWhile_append_dropWhile, List.reverse_reverse]

theorem dropEndWhile_last (last : ∀ c ∈ xs.getLast?, p c = false) : dropEndWhile p xs = xs := by
  rw [dropEndWhile, Number.dropWhile_head (by rwa [List.head?_reverse]), List.reverse_reverse]

theorem dropEndWhile_append (all : ∀ c ∈ ys, p c = true) (xs : List Char) :
    dropEndWhile p (xs ++ ys) = dropEndWhile p xs := by
  rw [dropEndWhile, List.reverse_append,
    List.dropWhile_append_of_pos fun c mem => all c (List.mem_reverse.mp mem), dropEndWhile]

theorem length_dropEndWhile_le (p : Char → Bool) (cs : List Char) :
    (dropEndWhile p cs).length ≤ cs.length := by
  have parts := congrArg List.length (dropEndWhile_append_taken p cs)
  rw [List.length_append] at parts
  omega

theorem dropEndWhile_append_ne (other : ∃ c ∈ ys, p c = false) : dropEndWhile p xs ++ ys ≠ xs := by
  intro eq
  obtain ⟨c, mem, kept⟩ := other
  have same := List.append_cancel_left (eq.trans (dropEndWhile_append_taken p xs).symm)
  rw [same, List.mem_reverse] at mem
  rw [List.mem_takeWhile_imp mem] at kept
  cases kept

theorem dropEndWhile_slash_iff : dropEndWhile (· = '/') xs = xs ↔ ¬ ['/', '/'] <:+ xs ++ ['/'] := by
  constructor
  · rintro same ⟨text, eq⟩
    have whole : xs = text ++ ['/'] := by
      have both : text ++ ['/'] ++ ['/'] = xs ++ ['/'] := by
        rw [List.append_assoc]
        exact eq
      exact (List.append_cancel_right both).symm
    have shorter := length_dropEndWhile_le (· = '/') text
    rw [whole, dropEndWhile_append (by simp)] at same
    rw [same, List.length_append, List.length_singleton] at shorter
    omega
  · intro filled
    apply dropEndWhile_last
    intro c last
    apply decide_eq_false
    rintro rfl
    obtain ⟨text, eq⟩ := List.getLast?_eq_some_iff.mp last
    refine filled ⟨text, ?_⟩
    rw [eq, List.append_assoc]
    rfl

theorem dropEndWhile_cons (p : Char → Bool) (c : Char) (cs : List Char) :
    dropEndWhile p (c :: cs) =
      if dropEndWhile p cs = [] ∧ p c = true then [] else c :: dropEndWhile p cs := by
  rw [dropEndWhile, dropEndWhile, List.reverse_cons, List.dropWhile_append]
  cases rest : cs.reverse.dropWhile p with
  | nil =>
    cases ends : p c with
    | false => simp [ends]
    | true => simp [ends]
  | cons d ds => simp

theorem dropWhile_dropEndWhile (apart : ∀ c, p c = true → q c = false) (cs : List Char) :
    (dropEndWhile q cs).dropWhile p = dropEndWhile q (cs.dropWhile p) := by
  induction cs with
  | nil => rfl
  | cons c cs ih =>
    rw [dropEndWhile_cons]
    cases start : p c with
    | true => rw [List.dropWhile_cons_of_pos start, apart c start, if_neg (by simp),
        List.dropWhile_cons_of_pos start, ih]
    | false =>
      rw [List.dropWhile_cons_of_neg (by simp [start]), dropEndWhile_cons]
      split
      · rfl
      · rw [List.dropWhile_cons_of_neg (by simp [start])]

end Text

namespace Url

/-! ## What stands in front -/

/-- What stands of an address in front of a path that is put behind it. -/
def front (address : List Char) : List Char :=
  ((Text.dropEndWhile (· = '/') address).dropWhile isEdge).filter fun c => !isBreak c

/-- The spaces and controls at the end of an address, but for tabs and line ends: they count once
something stands behind them. -/
def margin (address : List Char) : List Char :=
  ((address.dropWhile isEdge).reverse.takeWhile isEdge).reverse.filter fun c => !isBreak c

/-! Spaces and controls have low codes, and are no letters. -/

section Edges

variable {c : Char}

theorem edge_low (edge : isEdge c = true) : c.toNat ≤ 0x20 := of_decide_eq_true edge

theorem edge_ascii (edge : isEdge c = true) : c.toNat < 0x80 :=
  Nat.lt_of_le_of_lt (edge_low edge) (by decide)

theorem edge_ne {d : Char} (edge : isEdge c = true) (high : 0x20 < d.toNat) : c ≠ d := by
  rintro rfl
  exact Nat.not_lt.mpr (edge_low edge) high

theorem toLower_edge (edge : isEdge c = true) : c.toLower = c := by
  have low := edge_low edge
  have below : ¬ (c.val ≥ 'A'.val ∧ c.val ≤ 'Z'.val) := fun upper => by
    have capital : 65 ≤ c.toNat := UInt32.le_iff_toNat_le.mp upper.1
    omega
  exact dif_neg below

end Edges

theorem isBreak_edge {c : Char} (breaks : isBreak c = true) : isEdge c = true := by
  simp only [isBreak, Bool.or_eq_true, decide_eq_true_eq] at breaks
  rcases breaks with (rfl | rfl) | rfl
  · decide
  · decide
  · decide

theorem clean_append {address path : List Char} (filled : path ≠ [])
    (visible : ∀ c ∈ path, isEdge c = false) :
    clean (Text.dropEndWhile (· = '/') address ++ path) = front address ++ path := by
  have start : path.dropWhile isEdge = path :=
    Number.dropWhile_head fun c first => visible c (List.mem_of_mem_head? first)
  have begun : (Text.dropEndWhile (· = '/') address ++ path).dropWhile isEdge =
      (Text.dropEndWhile (· = '/') address).dropWhile isEdge ++ path := by
    rw [List.dropWhile_append, start]
    split
    · rename_i none
      rw [List.isEmpty_iff.mp none, List.nil_append]
    · rfl
  have unbroken : (path.filter fun c => !isBreak c) = path := by
    apply List.filter_eq_self.mpr
    intro c mem
    cases breaks : isBreak c with
    | false => rfl
    | true => exact absurd (isBreak_edge breaks) (by simp [visible c mem])
  rw [clean, Text.trimWhile, begun, Text.dropEndWhile_last, List.filter_append, unbroken, front]
  intro c last
  rw [List.getLast?_append_of_ne_nil _ filled] at last
  exact visible c (List.mem_of_mem_getLast? last)

theorem front_eq (address : List Char) : ∃ n,
    front address ++ List.replicate n '/' = clean address ++ margin address ∧
      (n = 0 ∨ margin address = []) := by
  obtain ⟨text, eq⟩ : ∃ text, address.dropWhile isEdge = text := ⟨_, rfl⟩
  have slashes : (text.reverse.takeWhile (· = '/')).reverse =
      List.replicate (text.reverse.takeWhile (· = '/')).length '/' := by
    rw [List.eq_replicate_iff]
    refine ⟨List.length_reverse, fun c mem => ?_⟩
    simpa using List.mem_takeWhile_imp (List.mem_reverse.mp mem)
  have apart (c : Char) (edge : isEdge c = true) : decide (c = '/') = false := by
    apply decide_eq_false
    rintro rfl
    exact absurd edge (by decide)
  -- A text ends in a slash, which is cut off, or in an edge, which is passed over, never in both.
  refine ⟨(text.reverse.takeWhile (· = '/')).length, ?_, ?_⟩
  · have unbroken (n : Nat) : ((List.replicate n '/').filter fun c => !isBreak c) =
        List.replicate n '/' := List.filter_eq_self.mpr fun c mem => by
      rw [List.eq_of_mem_replicate mem]
      decide
    rw [front, Text.dropWhile_dropEndWhile apart, eq, ← unbroken, ← slashes, ← List.filter_append,
      Text.dropEndWhile_append_taken, clean, Text.trimWhile, margin, eq, ← List.filter_append,
      Text.dropEndWhile_append_taken]
  · rw [margin, eq]
    cases text.reverse with
    | nil => exact .inl rfl
    | cons c rest =>
      cases edge : isEdge c with
      | true => exact .inl (by simp [apart c edge])
      | false => exact .inr (by simp [edge])

/-! ## Scheme and authority -/

def taken? (cs : List Char) : Option Parts := do
  let (scheme, rest) ← splitScheme? cs
  match authorityStart? scheme rest with
  | some rest =>
    let ends (c : Char) : Bool := isSlash (isSpecial scheme) c || c = '?' || c = '#'
    let (authority, rest) := breakAt ends rest
    let (path, query, fragment) := splitTail rest
    return ⟨scheme, some authority, path, query, fragment⟩
  | none =>
    let (path, query, fragment) := splitTail rest
    return ⟨scheme, none, path, query, fragment⟩

theorem split?_clean (cs : List Char) : split? cs = taken? (clean cs) := rfl

def httpSchemes : List (List Char) := [['h', 't', 't', 'p'], ['h', 't', 't', 'p', 's']]

theorem http_special {scheme : List Char} (http : scheme ∈ httpSchemes) :
    isSpecial scheme = true ∧ scheme ≠ ['f', 'i', 'l', 'e'] := by
  simp only [httpSchemes, List.mem_cons, List.not_mem_nil, or_false] at http
  rcases http with rfl | rfl
  · exact ⟨by decide, by decide⟩
  · exact ⟨by decide, by decide⟩

def ends (c : Char) : Bool := isSlash true c || c = '?' || c = '#'

theorem ends_edge {c : Char} (edge : isEdge c = true) : ends c = false ∧ isSlash true c = false := by
  have apart {d : Char} (high : 0x20 < d.toNat) : c ≠ d := edge_ne edge high
  simp [ends, isSlash, apart (d := '/') (by decide), apart (d := '\\') (by decide),
    apart (d := '?') (by decide), apart (d := '#') (by decide)]

theorem margin_edge {address : List Char} {c : Char} (mem : c ∈ margin address) :
    isEdge c = true :=
  List.mem_takeWhile_imp (List.mem_reverse.mp (List.mem_filter.mp mem).1)

def written (scheme authority rest : List Char) : Parts where
  scheme := scheme
  authority := some authority
  path := (splitTail rest).1
  query := (splitTail rest).2.1
  fragment := (splitTail rest).2.2

variable {cs scheme authority rest : List Char} {parts : Parts}

def isSchemeChar (c : Char) : Bool := c.isAlphanum || c = '+' || c = '-' || c = '.'

theorem splitScheme?_iff : splitScheme? cs = some (scheme, rest) ↔
    (∃ c ∈ cs.head?, c.isAlpha = true) ∧ cs.dropWhile isSchemeChar = ':' :: rest ∧
      scheme = (cs.takeWhile isSchemeChar).map Char.toLower := by
  have behind : cs.drop (cs.takeWhile isSchemeChar).length = cs.dropWhile isSchemeChar := by
    have dropped := congrArg (List.drop (cs.takeWhile isSchemeChar).length)
      (List.takeWhile_append_dropWhile (p := isSchemeChar) (l := cs))
    rw [List.drop_left] at dropped
    exact dropped.symm
  cases cs with
  | nil =>
    constructor
    · intro read
      cases read
    · rintro ⟨⟨_, first, -⟩, -⟩
      cases first
  | cons c cs =>
    have class_ : (fun c : Char => c.isAlphanum || c = '+' || c = '-' || c = '.') = isSchemeChar :=
      rfl
    simp only [splitScheme?]
    rw [class_, behind]
    constructor
    · intro read
      split at read
      · rename_i letter
        split at read
        · rename_i found
          cases read
          exact ⟨⟨c, rfl, letter⟩, found, rfl⟩
        · cases read
      · cases read
    · rintro ⟨⟨_, first, letter⟩, found, rfl⟩
      cases first
      rw [if_pos letter, found]
      rfl

theorem splitScheme?_colon (read : splitScheme? cs = some (scheme, rest)) :
    ∃ letters, cs = letters ++ ':' :: rest ∧
      ∀ more, splitScheme? (letters ++ ':' :: more) = some (scheme, more) := by
  obtain ⟨⟨c, first, letter⟩, behind, rfl⟩ := splitScheme?_iff.mp read
  have whole := List.takeWhile_append_dropWhile (p := isSchemeChar) (l := cs)
  rw [behind] at whole
  have all : ∀ d ∈ cs.takeWhile isSchemeChar, isSchemeChar d = true :=
    fun d => List.mem_takeWhile_imp
  refine ⟨_, whole.symm, fun more => splitScheme?_iff.mpr ⟨⟨c, ?_, letter⟩, ?_, ?_⟩⟩
  · cases letters : cs.takeWhile isSchemeChar with
    | nil =>
      rw [letters, List.nil_append] at whole
      rw [← whole] at first
      cases first
      exact absurd letter (by decide)
    | cons d letters =>
      rw [letters] at whole
      rw [← whole] at first
      exact first
  · rw [List.dropWhile_append_of_pos all]
    exact List.dropWhile_cons_of_neg (by decide)
  · rw [List.takeWhile_append_of_pos all, List.takeWhile_cons_of_neg (by decide), List.append_nil]

theorem taken?_http (http : scheme ∈ httpSchemes) (read : splitScheme? cs = some (scheme, rest)) :
    taken? cs = some (written scheme (breakAt ends (rest.dropWhile (isSlash true))).1
      (breakAt ends (rest.dropWhile (isSlash true))).2) := by
  obtain ⟨special, noFile⟩ := http_special http
  rw [taken?, read]
  simp only [Option.bind_eq_bind, Option.bind_some, authorityStart?, if_neg noFile, special,
    if_true]
  rfl

theorem breakAt_append {p : Char → Bool} {xs ys : List Char} (inside : ∀ c ∈ xs, p c = false)
    (stops : ∀ c ∈ ys.head?, p c = true) : breakAt p (xs ++ ys) = (xs, ys) := by
  have front : ∀ c ∈ xs, (!p c) = true := fun c mem => by rw [inside c mem]; rfl
  have behind : ys.takeWhile (fun c => !p c) = [] := by
    cases ys with
    | nil => rfl
    | cons c rest => exact List.takeWhile_cons_of_neg (by simp [stops c rfl])
  rw [breakAt, List.takeWhile_append_of_pos front, List.dropWhile_append_of_pos front, behind,
    List.append_nil, Number.dropWhile_head fun c first => by rw [stops c first]; rfl]

/-- A text in which a scheme and an authority are read, whatever rest stands behind it. What is not
of the rest lengthens the authority. -/
structure Heads (head scheme authority : List Char) : Prop where
  filled : authority ≠ []
  last : ∃ before, head = before ++ authority
  inside : ∀ c ∈ authority, ends c = false
  reads (more rest : List Char) : (∀ c ∈ more, ends c = false) → (∀ c ∈ rest.head?, ends c = true) →
    taken? (head ++ (more ++ rest)) = some (written scheme (authority ++ more) rest)

theorem heads_letters {letters slashes : List Char} (http : scheme ∈ httpSchemes)
    (reads : ∀ more, splitScheme? (letters ++ ':' :: more) = some (scheme, more))
    (all : ∀ c ∈ slashes, isSlash true c = true) (filled : authority ≠ [])
    (inside : ∀ c ∈ authority, ends c = false) :
    Heads (letters ++ ':' :: (slashes ++ authority)) scheme authority := by
  refine ⟨filled, ⟨letters ++ ':' :: slashes, by simp⟩, inside, fun more rest within stops => ?_⟩
  have start : (authority ++ (more ++ rest)).dropWhile (isSlash true) =
      authority ++ (more ++ rest) := by
    apply Number.dropWhile_head
    intro c first
    rw [List.head?_append_of_ne_nil _ filled] at first
    have outside := inside c (List.mem_of_mem_head? first)
    simp only [ends, Bool.or_eq_false_iff] at outside
    exact outside.1.1
  have named : ∀ c ∈ authority ++ more, ends c = false := fun c mem =>
    (List.mem_append.mp mem).elim (inside c) (within c)
  have text : letters ++ ':' :: (slashes ++ authority) ++ (more ++ rest) =
      letters ++ ':' :: (slashes ++ (authority ++ (more ++ rest))) := by simp
  rw [text, taken?_http http (reads _), List.dropWhile_append_of_pos all, start,
    ← List.append_assoc authority, breakAt_append named stops]

theorem taken?_heads (read : taken? cs = some parts) (http : parts.scheme ∈ httpSchemes)
    (named : parts.authority ≠ some []) : ∃ head authority rest, cs = head ++ rest ∧
      Heads head parts.scheme authority ∧ (∀ c ∈ rest.head?, ends c = true) ∧
      parts = written parts.scheme authority rest := by
  obtain ⟨scheme, behind, split⟩ : ∃ scheme rest, splitScheme? cs = some (scheme, rest) := by
    cases split : splitScheme? cs with
    | none =>
      rw [taken?, split] at read
      cases read
    | some pair => exact ⟨pair.1, pair.2, rfl⟩
  have same : scheme = parts.scheme := by
    rw [taken?, split] at read
    simp only [Option.bind_eq_bind, Option.bind_some] at read
    split at read
    · cases read
      rfl
    · cases read
      rfl
  subst same
  rw [taken?_http http split, breakAt] at read
  have whole := Option.some.inj read
  obtain ⟨letters, eq, reads⟩ := splitScheme?_colon split
  have slashes := List.takeWhile_append_dropWhile (p := isSlash true) (l := behind)
  have parted := List.takeWhile_append_dropWhile (p := fun c => !ends c)
    (l := behind.dropWhile (isSlash true))
  have all : ∀ c ∈ behind.takeWhile (isSlash true), isSlash true c = true :=
    fun c => List.mem_takeWhile_imp
  refine ⟨_, _, _, ?_, heads_letters http reads all ?_ ?_, ?_, whole.symm⟩
  · rw [eq, List.append_assoc, List.cons_append, List.append_assoc, parted, slashes]
  · intro none
    rw [← whole] at named
    exact named (congrArg some none)
  · intro c mem
    simpa using List.mem_takeWhile_imp mem
  · intro c first
    have stops := List.head?_dropWhile_not (fun c => !ends c) (behind.dropWhile (isSlash true))
    rw [Option.mem_def.mp first] at stops
    simpa using stops

end Url

end Rebac
