import Rebac.Proofs.Json.Decode

set_option autoImplicit false

/-! # Fields of records -/

namespace Rebac

theorem Members.find?_foldl_other {pairs : List (String × Json)} {name : String} (m : Members)
    (apart : ∀ p ∈ pairs, p.1 ≠ name) :
    (pairs.foldl (fun acc pair => acc.insert pair.1 pair.2) m).find? name = m.find? name := by
  induction pairs generalizing m with
  | nil => rfl
  | cons p rest ih =>
    obtain ⟨here, later⟩ := List.forall_mem_cons.mp apart
    rw [List.foldl_cons, ih _ later, Members.find?_insert, if_neg (Ne.symm here)]

theorem Members.filter_insert (m : Members) (name : String) (value : Json) :
    (m.insert name value).filter (fun p => p.1 ≠ name) = m.filter fun p => p.1 ≠ name := by
  induction m with
  | nil => simp [insert]
  | cons member rest ih =>
    obtain ⟨k, v⟩ := member
    unfold insert
    split
    · simp
    · split
      · rename_i same
        simp [same]
      · rw [List.filter_cons, List.filter_cons, ih]

theorem Members.filter_ofList {pairs : List (String × Json)} {name : String}
    (once : (pairs.map Prod.fst).Nodup) (apart : ∀ p ∈ pairs, p.1 ≠ name) :
    (ofList pairs).filter (fun p => p.1 ≠ name) = ofList pairs :=
  List.filter_eq_self.mpr fun p mem =>
    decide_eq_true (apart p ((ofList_perm once).mem_iff.mp mem))

namespace Json

variable {α : Type} {j : Json} {s : String} {m : Members} {name : String}

/-! ## Changes to objects -/

def adding (extra : List (String × Json)) : Json → Json
  | .object m => .object (extra.foldl (fun acc pair => Members.insert pair.1 pair.2 acc) m)
  | j => j

def changing (name : String) (change : Json → Json) : Json → Json
  | .object m => .object (m.map fun p => if p.1 = name then (p.1, change p.2) else p)
  | j => j

def removing (name : String) : Json → Json
  | .object m => .object (m.filter fun p => p.1 ≠ name)
  | j => j

theorem find?_changing (name other : String) (change : Json → Json) (m : Members) :
    Members.find? other (m.map fun p => if p.1 = name then (p.1, change p.2) else p) =
      if other = name then (m.find? other).map change else m.find? other := by
  induction m with
  | nil => simp [Members.find?]
  | cons p rest ih =>
    obtain ⟨k, v⟩ := p
    rw [List.map_cons]
    by_cases here : k = name
    · subst here
      rw [if_pos rfl, Members.find?, Members.find?, ih]
      by_cases same : k = other
      · simp [same]
      · simp [same]
    · rw [if_neg here, Members.find?, Members.find?, ih]
      by_cases same : k = other
      · subst same
        simp [here]
      · simp [same]

/-! ## Values of fields -/

theorem asString_ok : asString j = .ok s ↔ j = .string s := by
  cases j <;> simp [asString]

theorem asMembers_ok : asMembers j = .ok m ↔ j = .object m := by
  cases j <;> simp [asMembers]

theorem required_ok {given : Option α} {a : α} : required name given = .ok a ↔ given = some a := by
  cases given <;> simp [required]

theorem present_string :
    present m name asString = .ok (some s) ↔ m.find? name = some (.string s) := by
  unfold present
  split
  · rename_i absent
    simp [absent]
  · rename_i v there
    simp [there, Fallible.map_ok, asString_ok]

theorem itemAt_string {record : String} {size place : Nat} {items : List Json} :
    itemAt record size items place asString = .ok s ↔ items[place]? = some (.string s) := by
  unfold itemAt
  split
  · rename_i v there
    simp [there, asString_ok]
  · rename_i absent
    simp [absent]

theorem atMost_ok_iff {size : Nat} {items : List Json} {value a : α} :
    atMost size items value = .ok a ↔ items.length ≤ size ∧ value = a := by
  unfold atMost
  split
  · simp; omega
  · simp; omega

/-- What the field of a value that may be left out stands for: nothing, if it is not there or
`null`, and otherwise what is read from it. -/
inductive Optional (reads : Json → α → Prop) : Option Json → Option α → Prop where
  | absent : Optional reads none none
  | null : Optional reads (some .null) none
  | value {j : Json} {a : α} : reads j a → Optional reads (some j) (some a)

section Optional

variable {decode : Json → Decoded α} {reads : Json → α → Prop} {given : Option α}
  (read : ∀ j a, decode j = .ok a ↔ reads j a) (nothing : ∀ a, ¬ reads .null a)

include read nothing

theorem asOption_ok : asOption decode j = .ok given ↔ Optional reads (some j) given := by
  by_cases null : j = .null
  · subst null
    constructor
    · intro read
      cases read
      exact .null
    · intro stands
      cases stands with
      | null => rfl
      | value none => exact absurd none (nothing _)
  · have whole : asOption decode j = (decode j).map some := by
      cases j with
      | null => exact absurd rfl null
      | _ => rfl
    rw [whole, Fallible.map_ok]
    constructor
    · rintro ⟨a, value, rfl⟩
      exact .value ((read j a).mp value)
    · intro stands
      cases stands with
      | null => exact absurd rfl null
      | value here => exact ⟨_, (read j _).mpr here, rfl⟩

theorem present_optional : (∃ found, present m name (asOption decode) = .ok found ∧
    found.join = given) ↔ Optional reads (m.find? name) given := by
  unfold present
  split
  · rename_i absent
    rw [absent]
    constructor
    · rintro ⟨found, eq, rfl⟩
      cases eq
      exact .absent
    · intro stands
      cases stands
      exact ⟨none, rfl, rfl⟩
  · rename_i v there
    rw [there, ← asOption_ok read nothing]
    constructor
    · rintro ⟨found, eq, rfl⟩
      obtain ⟨a, value, rfl⟩ := Fallible.map_ok.mp eq
      exact value
    · intro value
      exact ⟨some given, Fallible.map_ok.mpr ⟨given, value, rfl⟩, rfl⟩

theorem itemOr_optional {items : List Json} {place : Nat} :
    itemOr items place none (asOption decode) = .ok given ↔ Optional reads items[place]? given := by
  unfold itemOr
  split
  · rename_i v there
    rw [there, asOption_ok read nothing]
  · rename_i absent
    rw [absent]
    constructor
    · intro eq
      cases eq
      exact .absent
    · intro stands
      cases stands
      rfl

end Optional

/-- A record is an object, or a list of no more items than it has fields. -/
def Fits (size : Nat) : Json → Prop
  | .object _ => True
  | .array items => items.length ≤ size
  | _ => False

theorem fits_adding {extra : List (String × Json)} {size : Nat} :
    (j.adding extra).Fits size ↔ j.Fits size := by
  cases j <;> rfl

theorem recordField?_adding {extra : List (String × Json)} {names : List String} {place : Nat}
    (unknown : ∀ p ∈ extra, p.1 ∉ names) (known : name ∈ names) :
    (j.adding extra).recordField? name place = j.recordField? name place := by
  cases j with
  | object m => exact Members.find?_foldl_other m fun p mem eq => unknown p mem (eq ▸ known)
  | _ => rfl

end Json

end Rebac
