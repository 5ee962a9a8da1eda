import Rebac.Json.Decode
import Rebac.Proofs.Fallible
import Rebac.Proofs.Json.Members

set_option autoImplicit false

/-! # What decoded values come from -/

namespace Rebac

namespace Json

variable {α β : Type}

/-- The field of a record, by name in an object or by place in a list. -/
def recordField? (name : String) (place : Nat) : Json → Option Json
  | .object members => Members.find? name members
  | .array items => items[place]?
  | _ => none

theorem byName_sublist (l : List (String × α)) : (byName l).Sublist l := by
  induction l with
  | nil => exact .slnil
  | cons pair rest ih =>
    obtain ⟨name, a⟩ := pair
    unfold byName
    split
    · exact ih.cons _
    · exact ih.cons_cons _

theorem byName_nodup (l : List (String × α)) : ((byName l).map Prod.fst).Nodup := by
  induction l with
  | nil => exact List.nodup_nil
  | cons pair rest ih =>
    obtain ⟨name, a⟩ := pair
    unfold byName
    split
    · exact ih
    · rename_i later
      rw [List.map_cons, List.nodup_cons]
      exact ⟨fun mem => later (((byName_sublist rest).map Prod.fst).subset mem), ih⟩

theorem byName_names (l : List (String × α)) (name : String) :
    name ∈ (byName l).map Prod.fst ↔ name ∈ l.map Prod.fst := by
  induction l with
  | nil => rfl
  | cons pair rest ih =>
    obtain ⟨first, a⟩ := pair
    unfold byName
    split
    · rename_i later
      rw [ih, List.map_cons, List.mem_cons]
      exact ⟨.inr, fun mem => mem.elim (fun eq => eq ▸ later) id⟩
    · rw [List.map_cons, List.map_cons, List.mem_cons, List.mem_cons, ih]

theorem byName_self {l : List (String × α)} (once : (l.map Prod.fst).Nodup) : byName l = l := by
  induction l with
  | nil => rfl
  | cons pair rest ih =>
    obtain ⟨name, a⟩ := pair
    rw [List.map_cons, List.nodup_cons] at once
    rw [byName, if_neg once.1, ih once.2]

theorem byName_last {l : List (String × α)} {name : String} {a : α} (mem : (name, a) ∈ byName l) :
    l.reverse.lookup name = some a := by
  induction l with
  | nil => cases mem
  | cons pair rest ih =>
    obtain ⟨first, b⟩ := pair
    rw [List.reverse_cons, List.lookup_append]
    unfold byName at mem
    split at mem
    · rw [ih mem, Option.some_or]
    · rename_i later
      rcases List.mem_cons.mp mem with eq | there
      · cases eq
        have absent : rest.reverse.lookup name = none := by
          apply Members.lookup_absent
          rwa [List.map_reverse, List.mem_reverse]
        rw [absent, Option.none_or, List.lookup_cons_self]
      · rw [ih there, Option.some_or]

theorem asMapOf_related {value : Json → Decoded α} {members : Members} {entries : List (String × α)}
    (once : (members.map Prod.fst).Nodup)
    (related : List.Forall₂ (fun m e => m.1 = e.1 ∧ value m.2 = .ok e.2) members entries) :
    asMapOf value (.object members) = .ok entries := by
  have names : members.map Prod.fst = entries.map Prod.fst := by
    clear once
    induction related with
    | nil => rfl
    | cons head _ ih => rw [List.map_cons, List.map_cons, head.1, ih]
  have all : members.mapM (fun pair => (value pair.2).map fun v => (pair.1, v)) = .ok entries := by
    clear once names
    induction related with
    | nil => rfl
    | cons head _ ih =>
      rw [List.mapM_cons, head.2, ih, head.1]
      rfl
  rw [asMapOf, all]
  exact congrArg Except.ok (byName_self (names ▸ once))

theorem lookup_related {R : α → β → Prop} {ps : List (String × α)} {qs : List (String × β)}
    (related : List.Forall₂ (fun p q => p.1 = q.1 ∧ R p.2 q.2) ps qs) {name : String} {b : β}
    (found : qs.lookup name = some b) : ∃ a, ps.lookup name = some a ∧ R a b := by
  induction related with
  | nil => cases found
  | @cons p q _ _ head _ ih =>
    obtain ⟨k, a⟩ := p
    obtain ⟨k', b'⟩ := q
    obtain ⟨rfl, value⟩ := head
    rw [List.lookup_cons] at found ⊢
    cases same : name == k with
    | true =>
      rw [same] at found
      cases found
      exact ⟨a, rfl, value⟩
    | false =>
      rw [same] at found
      exact ih found

/-- A map has the names of the members, each of them once, with the value that the last member of that
name has. -/
theorem asMapOf_ok {value : Json → Decoded α} {j : Json} {entries : List (String × α)}
    (read : asMapOf value j = .ok entries) : (entries.map Prod.fst).Nodup ∧
      ∃ members, j = .object members ∧
        (∀ name, name ∈ entries.map Prod.fst ↔ name ∈ members.map Prod.fst) ∧
        ∀ name a, (name, a) ∈ entries →
          ∃ item, members.reverse.lookup name = some item ∧ value item = .ok a := by
  cases j with
  | object members =>
    simp only [asMapOf] at read
    cases all : members.mapM fun pair => (value pair.2).map fun v => (pair.1, v) with
    | error e =>
      rw [all] at read
      cases read
    | ok pairs =>
      rw [all] at read
      cases read
      have related : List.Forall₂ (fun p q => p.1 = q.1 ∧ value p.2 = .ok q.2) members pairs := by
        refine (Fallible.mapM_ok.mp all).imp ?_
        rintro ⟨k, item⟩ ⟨k', v⟩ eq
        cases decoded : value item with
        | error e => simp [decoded, Except.map] at eq
        | ok x =>
          simp only [decoded, Except.map, Except.ok.injEq, Prod.mk.injEq] at eq
          exact ⟨eq.1, congrArg Except.ok eq.2⟩
      have names : pairs.map Prod.fst = members.map Prod.fst :=
        map_of_forall₂ (List.forall₂_map_right_iff.mpr (related.imp fun _ _ both => both.1.symm))
      refine ⟨byName_nodup pairs, members, rfl, fun name => names ▸ byName_names pairs name, ?_⟩
      intro name a mem
      have found : pairs.reverse.lookup name = some a := byName_last mem
      exact lookup_related (R := fun item v => value item = .ok v) (List.rel_reverse related) found
  | _ => cases read

theorem atMost_ok {size : Nat} {items : List Json} {value a : α}
    (read : atMost size items value = .ok a) : a = value := by
  unfold atMost at read
  split at read
  · cases read
  · exact (Except.ok.inj read).symm

theorem itemOr_ok {default a : α} {decode : Json → Decoded α} {items : List Json} {place : Nat}
    (read : itemOr items place default decode = .ok a) :
    (items[place]? = none ∧ a = default) ∨ ∃ j, items[place]? = some j ∧ decode j = .ok a := by
  unfold itemOr at read
  cases found : items[place]? with
  | none =>
    rw [found] at read
    exact .inl ⟨rfl, (Except.ok.inj read).symm⟩
  | some j =>
    rw [found] at read
    exact .inr ⟨j, rfl, read⟩

theorem asBool_ok {j : Json} {b : Bool} (read : asBool j = .ok b) : j = .bool b := by
  cases j with
  | bool c => exact congrArg Json.bool (Except.ok.inj read)
  | _ => cases read

end Json

end Rebac
