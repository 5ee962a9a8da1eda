import Rebac.Proofs.Json.Fields
import Rebac.Proofs.Tuple

set_option autoImplicit false

/-! # Forms of tuples -/

namespace Rebac

/-! ## What is read -/

namespace Condition

structure Reads (v : Json) (c : Condition) : Prop where
  fits : v.Fits 2
  name : v.recordField? "name" 0 = some (.string c.name)
  context : Json.Optional (fun j m => j = .object m) (v.recordField? "context" 1) c.context

theorem context_read (j : Json) (m : Members) : Json.asMembers j = .ok m ↔ j = .object m :=
  Json.asMembers_ok

theorem no_context (m : Members) : Json.null ≠ .object m := by
  intro eq
  cases eq

theorem decode_iff (v : Json) (c : Condition) : decode v = .ok c ↔ Reads v c := by
  obtain ⟨name, context⟩ := c
  cases v with
  | object m =>
    constructor
    · intro read
      simp only [decode, Fallible.bind_ok, Json.required_ok] at read
      obtain ⟨found, readContext, _, readName, n, rfl, eq⟩ := read
      cases eq
      exact ⟨trivial, Json.present_string.mp readName,
        (Json.present_optional context_read no_context).mp ⟨found, readContext, rfl⟩⟩
    · rintro ⟨-, hasName, hasContext⟩
      obtain ⟨found, readContext, rfl⟩ :=
        (Json.present_optional context_read no_context).mpr hasContext
      simp only [decode, readContext, Json.present_string.mpr hasName]
      rfl
  | array items =>
    simp only [decode, Fallible.bind_ok, Json.atMost_ok_iff, Json.itemAt_string,
      Json.itemOr_optional context_read no_context]
    constructor
    · rintro ⟨_, hasName, _, hasContext, few, eq⟩
      cases eq
      exact ⟨few, hasName, hasContext⟩
    · rintro ⟨few, hasName, hasContext⟩
      exact ⟨_, hasName, _, hasContext, few, rfl⟩
  | _ =>
    constructor
    · intro read
      cases read
    · intro reads
      exact reads.fits.elim

end Condition

namespace RelationTuple

structure Reads (v : Json) (t : RelationTuple) : Prop where
  fits : v.Fits 4
  user : v.recordField? "user" 0 = some (.string t.user)
  relation : v.recordField? "relation" 1 = some (.string t.relation)
  object : v.recordField? "object" 2 = some (.string t.object)
  condition : Json.Optional Condition.Reads (v.recordField? "condition" 3) t.condition

theorem no_condition (c : Condition) : ¬ Condition.Reads .null c := fun reads => reads.fits

theorem decode_iff (v : Json) (t : RelationTuple) : decode v = .ok t ↔ Reads v t := by
  obtain ⟨user, relation, object, condition⟩ := t
  cases v with
  | object m =>
    constructor
    · intro read
      simp only [decode, Fallible.bind_ok, Json.required_ok] at read
      obtain ⟨found, readCondition, _, readObject, _, readRelation, _, readUser, _, rfl, _, rfl, _,
        rfl, eq⟩ := read
      cases eq
      exact ⟨trivial, Json.present_string.mp readUser, Json.present_string.mp readRelation,
        Json.present_string.mp readObject,
        (Json.present_optional Condition.decode_iff no_condition).mp ⟨found, readCondition, rfl⟩⟩
    · rintro ⟨-, hasUser, hasRelation, hasObject, hasCondition⟩
      obtain ⟨found, readCondition, rfl⟩ :=
        (Json.present_optional Condition.decode_iff no_condition).mpr hasCondition
      simp only [decode, readCondition, Json.present_string.mpr hasUser,
        Json.present_string.mpr hasRelation, Json.present_string.mpr hasObject]
      rfl
  | array items =>
    simp only [decode, Fallible.bind_ok, Json.atMost_ok_iff, Json.itemAt_string,
      Json.itemOr_optional Condition.decode_iff no_condition]
    constructor
    · rintro ⟨_, hasUser, _, hasRelation, _, hasObject, _, hasCondition, few, eq⟩
      cases eq
      exact ⟨few, hasUser, hasRelation, hasObject, hasCondition⟩
    · rintro ⟨few, hasUser, hasRelation, hasObject, hasCondition⟩
      exact ⟨_, hasUser, _, hasRelation, _, hasObject, _, hasCondition, few, rfl⟩
  | _ =>
    constructor
    · intro read
      cases read
    · intro reads
      exact reads.fits.elim

end RelationTuple

/-! ## Unknown members -/

theorem Condition.Reads.adding {v : Json} {c : Condition} {extra : List (String × Json)}
    (reads : Reads v c) (unknown : ∀ p ∈ extra, p.1 ∉ ["name", "context"]) :
    Reads (v.adding extra) c := by
  obtain ⟨fits, name, context⟩ := reads
  refine ⟨Json.fits_adding.mpr fits, ?_, ?_⟩
  · rwa [Json.recordField?_adding unknown (by simp)]
  · rwa [Json.recordField?_adding unknown (by simp)]

namespace RelationTuple

variable {v : Json} {t : RelationTuple}

theorem Reads.adding {extra : List (String × Json)} (reads : Reads v t)
    (unknown : ∀ p ∈ extra, p.1 ∉ ["user", "relation", "object", "condition"]) :
    Reads (v.adding extra) t := by
  obtain ⟨fits, user, relation, object, condition⟩ := reads
  refine ⟨Json.fits_adding.mpr fits, ?_, ?_, ?_, ?_⟩
  · rwa [Json.recordField?_adding unknown (by simp)]
  · rwa [Json.recordField?_adding unknown (by simp)]
  · rwa [Json.recordField?_adding unknown (by simp)]
  · rwa [Json.recordField?_adding unknown (by simp)]

theorem Reads.changing {change : Json → Json} (reads : Reads v t) (null : change .null = .null)
    (keeps : ∀ j c, Condition.Reads j c → Condition.Reads (change j) c) :
    Reads (v.changing "condition" change) t := by
  obtain ⟨_, _, _, given⟩ := t
  cases v with
  | object m =>
    obtain ⟨-, user, relation, object, condition⟩ := reads
    -- Only the member of the one name is changed.
    refine ⟨trivial, ?_, ?_, ?_, ?_⟩
    · rwa [Json.changing, Json.recordField?, Json.find?_changing, if_neg (by decide)]
    · rwa [Json.changing, Json.recordField?, Json.find?_changing, if_neg (by decide)]
    · rwa [Json.changing, Json.recordField?, Json.find?_changing, if_neg (by decide)]
    · rw [Json.recordField?] at condition
      rw [Json.changing, Json.recordField?, Json.find?_changing, if_pos rfl]
      generalize Members.find? "condition" m = field at condition ⊢
      cases condition with
      | absent => exact .absent
      | null =>
        rw [Option.map_some, null]
        exact .null
      | value there => exact .value (keeps _ _ there)
  | _ => exact reads

/-! ## The key of a tuple -/

theorem toJson_reads (t : RelationTuple) : Reads t.toJson t :=
  (decode_iff _ _).mp (decode_toJson t)

theorem key_reads (t : RelationTuple) : Reads t.key.toJson { t with condition := none } :=
  toJson_reads { t with condition := none }

theorem key_toJson (t : RelationTuple) : t.key.toJson = t.toJson.removing "condition" := by
  let fields : List (String × Json) := [("user", .string t.user), ("relation", .string t.relation),
    ("object", .string t.object)]
  have own : (Members.ofList fields).filter (fun p => p.1 ≠ "condition") = Members.ofList fields :=
    Members.filter_ofList (by simp [fields]) (by simp [fields])
  obtain ⟨user, relation, object, _ | c⟩ := t
  · exact congrArg Json.object own.symm
  · have added := Members.filter_insert (.ofList fields) "condition" c.toJson
    exact congrArg Json.object (added.trans own).symm

end RelationTuple

theorem TupleKey.decode_toJson (k : TupleKey) : decode k.toJson = .ok k := by
  -- The form of a key is that of a tuple without a condition.
  have reads : RelationTuple.Reads k.toJson ⟨k.user, k.relation, k.object, none⟩ :=
    RelationTuple.toJson_reads ⟨k.user, k.relation, k.object, none⟩
  obtain ⟨-, user, relation, object, -⟩ := reads
  rw [toJson, Json.ofMembers] at user relation object ⊢
  simp only [decode, Json.present_string.mpr user, Json.present_string.mpr relation,
    Json.present_string.mpr object]
  rfl

theorem TupleKey.toJson_injective {k l : TupleKey} (same : k.toJson = l.toJson) : k = l :=
  Except.ok.inj ((decode_toJson k).symm.trans (same ▸ decode_toJson l))

namespace RelationTuple

/-- The form of a tuple is read as that tuple, whatever members of other names it and its condition
are given. What a tuple is read from has the fields of the tuple, in whichever form, and the tuple
is read again from the form that it is sent in. The form of its key is its form without the
condition, is read as the key, and tells apart tuples that differ elsewhere. -/
theorem sent_forms_read_back :
    (∀ (t : RelationTuple) (extra inner : List (String × Json)),
      (∀ p ∈ extra, p.1 ∉ ["user", "relation", "object", "condition"]) →
      (∀ p ∈ inner, p.1 ∉ ["name", "context"]) →
      decode t.toJson = .ok t ∧
        decode ((t.toJson.changing "condition" (.adding inner)).adding extra) = .ok t) ∧
    (∀ v t, (decode v = .ok t ↔ Reads v t) ∧ (decode v = .ok t → decode t.toJson = .ok t)) ∧
    ∀ t u : RelationTuple, t.key.toJson = t.toJson.removing "condition" ∧
      TupleKey.decode t.key.toJson = .ok t.key ∧
      (t.key.toJson = u.key.toJson ↔
        t.user = u.user ∧ t.relation = u.relation ∧ t.object = u.object) := by
  refine ⟨fun t extra inner unknown unknownInner => ⟨decode_toJson t, ?_⟩,
    fun v t => ⟨decode_iff v t, fun _ => decode_toJson t⟩,
    fun t u => ⟨key_toJson t, TupleKey.decode_toJson t.key, ?_⟩⟩
  · have changed : Reads (t.toJson.changing "condition" (.adding inner)) t :=
      (toJson_reads t).changing rfl fun _ _ there => there.adding unknownInner
    exact (decode_iff _ _).mpr (changed.adding unknown)
  · constructor
    · intro same
      simpa [key] using TupleKey.toJson_injective same
    · rintro ⟨user, relation, object⟩
      rw [key, key, user, relation, object]

/-- A tuple under a condition whose context is empty, with a note on either, and the same tuple from
a list of its fields. -/
theorem noted_and_listed_forms_read :
    let t : RelationTuple := ⟨"user:anne", "viewer", "document:roadmap", some ⟨"open", some []⟩⟩
    let listed : Json := .array [.string "user:anne", .string "viewer", .string "document:roadmap",
      .array [.string "open", .object []]]
    let note : List (String × Json) := [("comment", .null)]
    decode ((t.toJson.changing "condition" (.adding note)).adding note) = .ok t ∧
      decode listed = .ok t ∧ decode t.toJson = .ok t := by
  intro t listed note
  have read : decode listed = .ok t := by decide
  exact ⟨(sent_forms_read_back.1 t note note (by decide) (by decide)).2, read,
    (sent_forms_read_back.2.1 listed t).2 read⟩

end RelationTuple

end Rebac
