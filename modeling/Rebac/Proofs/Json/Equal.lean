import Rebac.Proofs.Json.Members
import Mathlib.Data.List.Forall2

set_option autoImplicit false

/-! # Equality of records -/

namespace Rebac

namespace Json

variable {f : Double → Double → Bool}

def Equal (f : Double → Double → Bool) (a b : Json) : Prop := equalBy f a b = true

theorem equal_eq : Equal (· == ·) = (· = ·) := by
  funext a b
  exact propext (equalBy_iff a b)

theorem equal_string {s t : String} : Equal f (.string s) (.string t) ↔ s = t := by
  simp [Equal, equalBy]

theorem equal_array {as bs : List Json} :
    Equal f (.array as) (.array bs) ↔ List.Forall₂ (Equal f) as bs := by
  change equalItems f as bs = true ↔ _
  induction as generalizing bs with
  | nil => cases bs <;> simp [equalItems]
  | cons a as ih =>
    cases bs with
    | nil => simp [equalItems]
    | cons b bs => rw [equalItems, Bool.and_eq_true, ih, List.forall₂_cons, Equal]

end Json

namespace Members

variable {f : Double → Double → Bool} {m m' : Members}

def Equal (f : Double → Double → Bool) (m m' : Members) : Prop :=
  List.Forall₂ (fun p q => p.1 = q.1 ∧ Json.Equal f p.2 q.2) m m'

theorem equal_object : Json.Equal f (.object m) (.object m') ↔ Equal f m m' := by
  change Json.equalMembers f m m' = true ↔ _
  induction m generalizing m' with
  | nil => cases m' <;> simp [Json.equalMembers, Equal]
  | cons p m ih =>
    obtain ⟨k, a⟩ := p
    cases m' with
    | nil => simp [Json.equalMembers, Equal]
    | cons q m' =>
      obtain ⟨l, b⟩ := q
      rw [Json.equalMembers, Bool.and_eq_true, Bool.and_eq_true, beq_iff_eq, ih]
      exact (List.forall₂_cons (R := fun p q => p.1 = q.1 ∧ Json.Equal f p.2 q.2)
        (a := (k, a)) (b := (l, b))).symm

theorem Equal.insert {name : String} {a b : Json} (members : Equal f m m')
    (values : Json.Equal f a b) : Equal f (m.insert name a) (m'.insert name b) := by
  induction members with
  | nil => exact .cons ⟨rfl, values⟩ .nil
  | @cons p q m m' head tail ih =>
    obtain ⟨k, v⟩ := p
    obtain ⟨l, w⟩ := q
    obtain ⟨rfl, same⟩ := head
    unfold Members.insert
    by_cases before : name < k
    · rw [if_pos before, if_pos before]
      exact .cons ⟨rfl, values⟩ (.cons ⟨rfl, same⟩ tail)
    · rw [if_neg before, if_neg before]
      by_cases here : name = k
      · rw [if_pos here, if_pos here]
        exact .cons ⟨rfl, values⟩ tail
      · rw [if_neg here, if_neg here]
        exact .cons ⟨rfl, same⟩ ih

theorem Equal.ofList {ps qs : List (String × Json)} (pairs : Equal f ps qs) :
    Equal f (ofList ps) (ofList qs) := by
  have from_ {m m' : Members} (start : Equal f m m') :
      Equal f (ps.foldl (fun acc pair => acc.insert pair.1 pair.2) m)
        (qs.foldl (fun acc pair => acc.insert pair.1 pair.2) m') := by
    induction pairs generalizing m m' with
    | nil => exact start
    | cons head _ ih =>
      rw [List.foldl_cons, List.foldl_cons, head.1]
      exact ih (start.insert head.2)
  exact from_ .nil

theorem Equal.find? (members : Equal f m m') (name : String) :
    Option.Rel (Json.Equal f) (m.find? name) (m'.find? name) := by
  induction members with
  | nil => exact .none
  | @cons p q m m' head tail ih =>
    obtain ⟨k, v⟩ := p
    obtain ⟨l, w⟩ := q
    obtain ⟨rfl, same⟩ := head
    unfold Members.find?
    split
    · exact .some same
    · exact ih

end Members

namespace Json

variable {f : Double → Double → Bool}

/-- Fields of one name that are both absent, or both there and equal. -/
def SameField (f : Double → Double → Bool) (p q : String × Option Json) : Prop :=
  p.1 = q.1 ∧ Option.Rel (Equal f) p.2 q.2

theorem present_equal {ps qs : List (String × Option Json)}
    (fields : List.Forall₂ (SameField f) ps qs) : Equal f (ofPresent ps) (ofPresent qs) := by
  have listed : Members.Equal f (ps.filterMap fun pair => pair.2.map fun v => (pair.1, v))
      (qs.filterMap fun pair => pair.2.map fun v => (pair.1, v)) := by
    induction fields with
    | nil => exact .nil
    | @cons p q ps qs head _ ih =>
      obtain ⟨k, v⟩ := p
      obtain ⟨l, w⟩ := q
      obtain ⟨rfl, same⟩ := head
      cases same with
      | none => exact ih
      | some same => exact .cons ⟨rfl, same⟩ ih
  exact Members.equal_object.mpr listed.ofList

theorem lookup_equal {ps qs : List (String × Option Json)}
    (names : ps.map Prod.fst = qs.map Prod.fst) (once : (ps.map Prod.fst).Nodup)
    (each : ∀ name, Option.Rel (Equal f) (ps.lookup name).join (qs.lookup name).join) :
    List.Forall₂ (SameField f) ps qs := by
  induction ps generalizing qs with
  | nil =>
    rw [List.map_eq_nil_iff.mp names.symm]
    exact .nil
  | cons p ps ih =>
    obtain ⟨q, qs, rfl⟩ := List.exists_cons_of_ne_nil (l := qs) (by rintro rfl; cases names)
    obtain ⟨k, v⟩ := p
    obtain ⟨l, w⟩ := q
    obtain ⟨rfl, others⟩ := List.cons.inj names
    obtain ⟨absent, once⟩ := List.nodup_cons.mp once
    have head := each k
    rw [List.lookup_cons_self, List.lookup_cons_self] at head
    -- The first name is none of the others, so it finds nothing among them on either side.
    refine .cons ⟨rfl, head⟩ (ih others once fun name => ?_)
    by_cases same : name = k
    · subst same
      rw [Members.lookup_absent absent, Members.lookup_absent (others ▸ absent)]
      exact .none
    · have differs : (name == k) = false := by simpa using same
      simpa [List.lookup_cons, differs] using each name

theorem fields_equal {ps qs : List (String × Option Json)}
    (names : ps.map Prod.fst = qs.map Prod.fst) (once : (ps.map Prod.fst).Nodup) :
    Equal f (ofPresent ps) (ofPresent qs) ↔ List.Forall₂ (SameField f) ps qs := by
  refine ⟨fun equal => lookup_equal names once fun name => ?_, present_equal⟩
  obtain ⟨m, left, found⟩ := ofPresent_object ps once
  obtain ⟨m', right, found'⟩ := ofPresent_object qs (names ▸ once)
  rw [left, right, Members.equal_object] at equal
  rw [← found, ← found']
  exact equal.find? name

theorem ofMembers_present (pairs : List (String × Json)) :
    ofMembers pairs = ofPresent (pairs.map fun pair => (pair.1, some pair.2)) := by
  simp [ofPresent, List.filterMap_map]

end Json

end Rebac
