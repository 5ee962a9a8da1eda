import Rebac.Proofs.Fallible
import Rebac.Proofs.Url.Front

set_option autoImplicit false

/-! # Authorities with spaces behind -/

namespace Rebac

/-! ## Decoding goes on -/

namespace Text.Utf8

variable {bytes more : List UInt8} {c : Char}

theorem tail_append {need low high bits used used' : Nat}
    (read : tail need low high bits used bytes = (some c, used')) (more : List UInt8) :
    tail need low high bits used (bytes ++ more) = (some c, used') ∧
      used' ≤ used + bytes.length := by
  induction bytes generalizing need low high bits used with
  | nil => simp [tail] at read
  | cons b rest ih =>
    rw [List.cons_append, List.length_cons]
    unfold tail at read ⊢
    simp only at read ⊢
    split at read
    · rename_i within
      rw [if_pos within]
      match need with
      | 0 | 1 =>
        have last : used + 1 = used' := congrArg Prod.snd read
        exact ⟨read, by omega⟩
      | need + 2 =>
        obtain ⟨same, bound⟩ := ih read
        exact ⟨same, by omega⟩
    · simp at read

theorem first_append {b : UInt8} {used : Nat} (read : first b bytes = (some c, used))
    (more : List UInt8) : first b (bytes ++ more) = (some c, used) ∧ used ≤ bytes.length := by
  unfold first at read ⊢
  split at read
  · rename_i ascii
    have none : 0 = used := congrArg Prod.snd read
    rw [if_pos ascii]
    exact ⟨read, by omega⟩
  · rename_i high
    rw [if_neg high]
    cases lead : lead? b with
    | none => simp [lead] at read
    | some shape =>
      obtain ⟨need, low, high, bits⟩ := shape
      simp only [lead] at read ⊢
      have appended := tail_append read more
      rwa [Nat.zero_add] at appended

theorem decodeWith_append {acc cs : List Char} {skip : Nat}
    (read : decodeWith none acc skip bytes = some cs) (within : skip ≤ bytes.length)
    (more : List UInt8) :
    decodeWith none acc skip (bytes ++ more) = decodeWith none cs.reverse 0 more := by
  induction bytes generalizing acc skip with
  | nil =>
    cases Nat.le_zero.mp within
    simp only [decodeWith, Option.some.injEq] at read
    rw [← read, List.reverse_reverse, List.nil_append]
  | cons b rest ih =>
    cases skip with
    | succ skip =>
      rw [decodeWith] at read
      exact ih read (Nat.le_of_succ_le_succ within)
    | zero =>
      rw [List.cons_append]
      rw [decodeWith] at read ⊢
      cases found : first b rest with
      | mk char used =>
        cases char with
        | none => simp [found] at read
        | some d =>
          obtain ⟨same, bound⟩ := first_append found more
          simp only [found, same] at read ⊢
          exact ih read bound

theorem decodeWith_ascii {more : List Char} (ascii : ∀ c ∈ more, c.toNat < 0x80)
    (acc : List Char) : decodeWith none acc 0 (encode more) = some (acc.reverse ++ more) := by
  induction more generalizing acc with
  | nil => simp [encode, decodeWith]
  | cons c rest ih =>
    obtain ⟨here, later⟩ := List.forall_mem_cons.mp ascii
    have byte : String.utf8EncodeChar c = [c.val.toUInt8] := by
      apply String.utf8EncodeChar_eq_singleton
      rw [Char.utf8Size_eq_one_iff]
      exact UInt32.le_iff_toNat_le.mpr (Nat.le_of_lt_succ here)
    have value : c.val.toUInt8.toNat = c.toNat := by
      rw [UInt32.toNat_toUInt8]
      exact Nat.mod_eq_of_lt (Nat.lt_trans here (by decide))
    have read : first c.val.toUInt8 (encode rest) = (some c, 0) := by
      rw [first, value, if_pos here, Char.ofNat_toNat]
    rw [encode, List.flatMap_cons, byte, List.singleton_append]
    change decodeWith none acc 0 (c.val.toUInt8 :: encode rest) = _
    rw [decodeWith, read]
    change decodeWith none (c :: acc) 0 (encode rest) = _
    rw [ih later, List.reverse_cons, List.append_assoc]
    rfl

theorem decode?_ascii {cs more : List Char} (read : decode? bytes = some cs)
    (ascii : ∀ c ∈ more, c.toNat < 0x80) : decode? (bytes ++ encode more) = some (cs ++ more) := by
  rw [decode?, decodeWith_append read (Nat.zero_le _), decodeWith_ascii ascii, List.reverse_reverse]

end Text.Utf8

namespace Url

variable {c : Char} {cs more : List Char}

/-! ## Spaces and controls in hosts and ports -/

theorem digitIn?_edge (base : Nat) (small : base ≤ 36) (edge : isEdge c = true) :
    Number.digitIn? base c = none := by
  have low := edge_low edge
  have digit : ¬ ('0' ≤ c ∧ c ≤ '9') := fun between => by
    have high : 48 ≤ c.toNat := UInt32.le_iff_toNat_le.mp between.1
    omega
  have letter : ¬ ('a' ≤ c ∧ c ≤ 'z') := fun between => by
    have high : 97 ≤ c.toNat := UInt32.le_iff_toNat_le.mp between.1
    omega
  simp only [Number.digitIn?, toLower_edge edge, if_neg digit, if_neg letter]
  rw [if_neg (by omega)]

theorem percentDecode_cons (plain : ∀ a b rest, c = '%' → cs = a :: b :: rest →
    Number.digitIn? 16 a = none ∨ Number.digitIn? 16 b = none) :
    percentDecode (c :: cs) = String.utf8EncodeChar c ++ percentDecode cs := by
  have percent : String.utf8EncodeChar '%' = ['%'.toNat.toUInt8] := by decide
  generalize whole : c :: cs = text
  fun_cases percentDecode text with
  | case1 a b rest x y second first =>
    cases whole
    rcases plain a b rest rfl rfl with none | none
    · simp [none] at first
    · simp [none] at second
  | case2 a b rest no =>
    cases whole
    rw [percent]
    rfl
  | case3 c rest other =>
    cases whole
    rfl
  | case4 => cases whole

theorem percentDecode_append (first : ∀ c ∈ more.head?, Number.digitIn? 16 c = none)
    (cs : List Char) : percentDecode (cs ++ more) = percentDecode cs ++ percentDecode more := by
  fun_induction percentDecode cs with
  | case1 a b rest x y low high ih =>
    rw [List.cons_append, List.cons_append, List.cons_append, percentDecode, high, low]
    simp only [ih, List.cons_append]
  | case2 a b rest no ih =>
    have plain : ∀ a' b' rest', '%' = '%' → a :: b :: rest ++ more = a' :: b' :: rest' →
        Number.digitIn? 16 a' = none ∨ Number.digitIn? 16 b' = none := by
      rintro _ _ _ - ⟨⟩
      cases high : Number.digitIn? 16 a with
      | none => exact .inl rfl
      | some x =>
        cases low : Number.digitIn? 16 b with
        | none => exact .inr rfl
        | some y => exact (no x y high low).elim
    rw [List.cons_append, percentDecode_cons plain, ih]
    rfl
  | case3 c rest other ih =>
    -- two characters behind a percent sign are not both of `rest`
    have plain : ∀ a b rest', c = '%' → rest ++ more = a :: b :: rest' →
        Number.digitIn? 16 a = none ∨ Number.digitIn? 16 b = none := by
      intro a b rest' percent eq
      match rest with
      | [] =>
        rw [List.nil_append] at eq
        exact .inl (first a (by rw [eq]; rfl))
      | [_] =>
        cases more with
        | nil => cases eq
        | cons d more =>
          cases eq
          exact .inr (first _ rfl)
      | x :: y :: rest => exact (other x y rest percent rfl).elim
    rw [List.cons_append, percentDecode_cons plain, ih, List.append_assoc]
  | case4 => rfl

theorem percentDecode_edges (edges : ∀ c ∈ more, isEdge c = true) :
    percentDecode more = Text.Utf8.encode more := by
  induction more with
  | nil =>
    rw [percentDecode]
    rfl
  | cons c rest ih =>
    obtain ⟨edge, edges⟩ := List.forall_mem_cons.mp edges
    have plain : ∀ a b rest', c = '%' → rest = a :: b :: rest' →
        Number.digitIn? 16 a = none ∨ Number.digitIn? 16 b = none := fun _ _ _ percent =>
      absurd percent (edge_ne edge (by decide))
    rw [percentDecode_cons plain, ih edges]
    rfl

theorem domainForbidden_edge (edge : isEdge c = true) :
    domainIgnored c = false ∧ domainForbidden (domainFold c) = true := by
  have low := edge_low edge
  have ignored : domainIgnored c = false := by
    simp only [domainIgnored, Bool.or_eq_false_iff, Bool.and_eq_false_iff, beq_eq_false_iff_ne,
      decide_eq_false_iff_not]
    omega
  have folded : domainFold c = c := by
    have other : ¬ (c.toNat == 0x3002 || c.toNat == 0xFF61) = true := by
      simp only [Bool.or_eq_true, beq_iff_eq]
      omega
    have narrow : ¬ (decide (0xFF01 ≤ c.toNat) && decide (c.toNat ≤ 0xFF5E)) = true := by
      simp only [Bool.and_eq_true, decide_eq_true_eq]
      omega
    simp only [domainFold]
    rw [if_neg other, if_neg narrow, toLower_edge edge]
  refine ⟨ignored, ?_⟩
  rw [folded, domainForbidden]
  by_cases space : c = ' '
  · subst space
    decide
  · have control : c.toNat < 0x20 := by
      have differs : c.toNat ≠ 0x20 := fun eq => space (Char.toNat_inj.mp eq)
      omega
    simp [control]

theorem domainToAscii?_edges (some : more ≠ []) (edges : ∀ c ∈ more, isEdge c = true)
    (cs : List Char) : domainToAscii? (cs ++ more) = none := by
  obtain ⟨c, rest, rfl⟩ := List.exists_cons_of_ne_nil some
  obtain ⟨counts, forbidden⟩ := domainForbidden_edge (edges c List.mem_cons_self)
  have there : domainFold c ∈
      ((cs ++ c :: rest).filter fun c => !domainIgnored c).map domainFold := by
    refine List.mem_map_of_mem (List.mem_filter.mpr ⟨by simp, ?_⟩)
    rw [counts]
    rfl
  rw [domainToAscii?]
  exact if_pos (List.any_eq_true.mpr ⟨_, there, forbidden⟩)

theorem getLast?_edges (some : more ≠ []) (edges : ∀ c ∈ more, isEdge c = true) (cs : List Char) :
    ∃ c, (cs ++ more).getLast? = Option.some c ∧ isEdge c = true := by
  rw [List.getLast?_append_of_ne_nil _ some, List.getLast?_eq_some_getLast some]
  exact ⟨_, rfl, edges _ (List.getLast_mem some)⟩

theorem hostParse_name (name : ∀ rest, cs ≠ '[' :: rest) : Host.parse cs =
    match (Text.Utf8.decode? (percentDecode cs)).bind domainToAscii? with
    | none => .error .invalidDomainName
    | some [] => .error .emptyHost
    | some name =>
      if endsInNumber name then
        match ipv4? name with
        | some address => .ok (.ipv4 address)
        | none => .error .invalidIpv4
      else .ok (.domain (String.ofList name)) := by
  unfold Host.parse
  split
  · exact absurd rfl (name _)
  · rfl

theorem hostParse_edges {h : Host} (read : Host.parse cs = .ok h) (filled : more ≠ [])
    (edges : ∀ c ∈ more, isEdge c = true) : ∃ e, Host.parse (cs ++ more) = .error e := by
  -- A host in brackets has to end in one; any other is decoded, edge and all, and an edge is
  -- forbidden in a name.
  by_cases bracket : ∃ rest, cs = '[' :: rest
  · obtain ⟨rest, rfl⟩ := bracket
    obtain ⟨c, last, edge⟩ := getLast?_edges filled edges rest
    have open_ : (rest ++ more).getLast? ≠ some ']' := by
      rw [last, Ne, Option.some.injEq]
      exact edge_ne edge (by decide)
    exact ⟨.invalidIpv6, if_pos open_⟩
  · have name : ∀ rest, cs ≠ '[' :: rest := fun rest eq => bracket ⟨rest, eq⟩
    have longer : ∀ rest, cs ++ more ≠ '[' :: rest := by
      intro rest eq
      cases cs with
      | nil =>
        rw [List.nil_append] at eq
        exact edge_ne (edges '[' (by simp [eq])) (by decide) rfl
      | cons c cs =>
        cases eq
        exact name cs rfl
    have start : ∀ c ∈ more.head?, Number.digitIn? 16 c = none := fun c first =>
      digitIn?_edge 16 (by decide) (edges c (List.mem_of_mem_head? first))
    rw [hostParse_name name] at read
    cases decoded : Text.Utf8.decode? (percentDecode cs) with
    | none => simp [decoded] at read
    | some ds =>
      have appended := Text.Utf8.decode?_ascii decoded fun c mem => edge_ascii (edges c mem)
      rw [← percentDecode_edges edges, ← percentDecode_append start] at appended
      rw [hostParse_name longer, appended, Option.bind_some, domainToAscii?_edges filled edges]
      exact ⟨_, rfl⟩

theorem foldlM_digits_none {base start : Nat} (digits : ∃ c ∈ cs, Number.digitIn? base c = none) :
    cs.foldlM (fun acc c => (Number.digitIn? base c).map (acc * base + ·)) start = none := by
  induction cs generalizing start with
  | nil => simp at digits
  | cons c cs ih =>
    rw [List.foldlM_cons]
    obtain ⟨d, mem, none⟩ := digits
    rcases List.mem_cons.mp mem with rfl | later
    · rw [none]
      rfl
    · cases Number.digitIn? base c with
      | none => rfl
      | some n => exact ih ⟨d, later, none⟩

theorem readPort_edges {scheme port : List Char} (filled : more ≠ [])
    (edges : ∀ c ∈ more, isEdge c = true) :
    readPort scheme (port ++ more) = .error .invalidPort := by
  obtain ⟨c, rest, rfl⟩ := List.exists_cons_of_ne_nil filled
  have none : Number.numberIn? 10 (port ++ c :: rest) = none :=
    foldlM_digits_none ⟨c, by simp, digitIn?_edge 10 (by decide) (edges c List.mem_cons_self)⟩
  rw [readPort, if_neg (by simp), none]

/-! ## Whole authorities -/

theorem splitUser_edges (edges : ∀ c ∈ more, isEdge c = true) (authority : List Char) :
    splitUser (authority ++ more) = ((splitUser authority).1, (splitUser authority).2 ++ more) := by
  have behind : ∀ c ∈ more.reverse, (!decide (c = '@')) = true := fun c mem => by
    simpa using edge_ne (edges c (List.mem_reverse.mp mem)) (d := '@') (by decide)
  have broken : breakAt (· = '@') (authority ++ more).reverse =
      (more.reverse ++ (breakAt (· = '@') authority.reverse).1,
        (breakAt (· = '@') authority.reverse).2) := by
    rw [List.reverse_append, breakAt, List.takeWhile_append_of_pos behind,
      List.dropWhile_append_of_pos behind]
    rfl
  unfold splitUser
  rw [broken]
  cases (breakAt (· = '@') authority.reverse) with
  | mk host rest =>
    cases rest with
    | nil => rfl
    | cons c user => simp

theorem splitPort_none (plain : ∀ c ∈ cs, c ≠ ':') (inside : Bool) :
    splitPort inside cs = (cs, none) := by
  induction cs generalizing inside with
  | nil => rfl
  | cons c cs ih =>
    obtain ⟨here, later⟩ := List.forall_mem_cons.mp plain
    rw [splitPort, if_neg (by simp [here])]
    simp only [ih later]

theorem splitPort_append (plain : ∀ c ∈ more, c ≠ ':') (inside : Bool) (cs : List Char) :
    splitPort inside (cs ++ more) =
      match splitPort inside cs with
      | (host, none) => (host ++ more, none)
      | (host, some port) => (host, some (port ++ more)) := by
  induction cs generalizing inside with
  | nil => exact splitPort_none plain inside
  | cons c cs ih =>
    rw [List.cons_append, splitPort, splitPort]
    split
    · rfl
    · simp only [ih]
      generalize splitPort _ cs = parted
      obtain ⟨host, _ | port⟩ := parted
      · rfl
      · rfl

theorem readAuthority_http {scheme authority : List Char} {a : Authority}
    (http : scheme ∈ httpSchemes) (read : readAuthority scheme authority = .ok a) :
    (splitPort false (splitUser authority).2).1 ≠ [] ∧
      (∃ host, Host.parse (splitPort false (splitUser authority).2).1 = .ok host) ∧
      ∃ port, readPort scheme ((splitPort false (splitUser authority).2).2.getD []) = .ok port := by
  obtain ⟨special, noFile⟩ := http_special http
  simp only [readAuthority, if_neg noFile, special, if_true] at read
  split at read
  · cases read
  · rename_i filled
    simp only [Fallible.bind_ok] at read
    obtain ⟨host, named, port, numbered, -⟩ := read
    exact ⟨filled, ⟨host, named⟩, port, numbered⟩

theorem readAuthority_edges {scheme authority : List Char} {a b : Authority}
    (http : scheme ∈ httpSchemes) (read : readAuthority scheme authority = .ok a)
    (filled : more ≠ []) (edges : ∀ c ∈ more, isEdge c = true) :
    readAuthority scheme (authority ++ more) ≠ .ok b := by
  intro longer
  obtain ⟨-, ⟨host, named⟩, -⟩ := readAuthority_http http read
  obtain ⟨-, ⟨host', named'⟩, port', numbered'⟩ := readAuthority_http http longer
  have plain : ∀ c ∈ more, c ≠ ':' := fun c mem => edge_ne (edges c mem) (by decide)
  rw [splitUser_edges edges, splitPort_append plain] at named' numbered'
  generalize splitPort false (splitUser authority).2 = parted at *
  obtain ⟨text, _ | port⟩ := parted
  · obtain ⟨e, failed⟩ := hostParse_edges named filled edges
    rw [failed] at named'
    cases named'
  · change readPort scheme (port ++ more) = _ at numbered'
    rw [readPort_edges filled edges] at numbered'
    cases numbered'

end Url

end Rebac
