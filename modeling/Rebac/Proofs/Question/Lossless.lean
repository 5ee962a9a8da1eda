import Rebac.Proofs.Json.Equal
import Rebac.Proofs.Question.Body

set_option autoImplicit false

/-! # What bodies determine -/

namespace Rebac

/-! ## Agreement -/

section Agreement

variable (contexts : Members → Members → Prop)

@[mk_iff]
structure Condition.Agrees (c d : Condition) : Prop where
  name : c.name = d.name
  context : Option.Rel contexts c.context d.context

@[mk_iff]
structure RelationTuple.Agrees (t u : RelationTuple) : Prop where
  user : t.user = u.user
  relation : t.relation = u.relation
  object : t.object = u.object
  condition : Option.Rel (Condition.Agrees contexts) t.condition u.condition

/-- Agreement of questions in all but their ids. -/
@[mk_iff]
structure Question.Agrees (q r : Question) : Prop where
  user : q.user = r.user
  relation : q.relation = r.relation
  object : q.object = r.object
  contextual : List.Forall₂ (RelationTuple.Agrees contexts) q.contextual r.contextual
  context : Option.Rel contexts q.context r.context

@[mk_iff]
structure ObjectsQuestion.Agrees (q r : ObjectsQuestion) : Prop where
  user : q.user = r.user
  relation : q.relation = r.relation
  objectType : q.objectType = r.objectType
  contextual : List.Forall₂ (RelationTuple.Agrees contexts) q.contextual r.contextual
  context : Option.Rel contexts q.context r.context

@[mk_iff]
structure Identified.Agrees (i j : Identified) : Prop where
  id : i.id = j.id
  question : i.question.Agrees contexts j.question

end Agreement

/-! ## Parts of bodies -/

section Parts

variable {f : Double → Double → Bool}

theorem rel_map_iff {α β : Type} {R : α → α → Prop} {S : β → β → Prop} {g : α → β}
    (each : ∀ a b, S (g a) (g b) ↔ R a b) (x y : Option α) :
    Option.Rel S (x.map g) (y.map g) ↔ Option.Rel R x y := by
  cases x <;> cases y <;> simp [each]

theorem rel_text (x y : Option String) :
    Option.Rel (Json.Equal f) (x.map .string) (y.map .string) ↔ x = y := by
  cases x <;> cases y <;> simp [Json.equal_string]

theorem rel_context (x y : Option Members) :
    Option.Rel (Json.Equal f) (x.map .object) (y.map .object) ↔
      Option.Rel (Members.Equal f) x y :=
  rel_map_iff (fun _ _ => Members.equal_object) x y

theorem Condition.equal_toJson (c d : Condition) :
    Json.Equal f c.toJson d.toJson ↔ c.Agrees (Members.Equal f) d := by
  refine (Json.fields_equal (by simp) (by simp)).trans ?_
  simp [Json.SameField, Json.equal_string, rel_context, Condition.agrees_iff]

theorem RelationTuple.equal_toJson (t u : RelationTuple) :
    Json.Equal f t.toJson u.toJson ↔ t.Agrees (Members.Equal f) u := by
  refine (Json.fields_equal (by simp) (by simp)).trans ?_
  simp [Json.SameField, Json.equal_string, rel_map_iff Condition.equal_toJson,
    RelationTuple.agrees_iff]

theorem TupleKey.equal_toJson (k l : TupleKey) : Json.Equal f k.toJson l.toJson ↔ k = l := by
  rw [toJson, toJson, Json.ofMembers_present, Json.ofMembers_present]
  refine (Json.fields_equal (by simp) (by simp)).trans ?_
  cases k
  cases l
  simp [Json.SameField, Json.equal_string]

theorem equal_list {α : Type} {R : α → α → Prop} {g : α → Json}
    (each : ∀ a b, Json.Equal f (g a) (g b) ↔ R a b) (xs ys : List α) :
    Json.Equal f (.array (xs.map g)) (.array (ys.map g)) ↔ List.Forall₂ R xs ys := by
  rw [Json.equal_array, List.forall₂_map_left_iff, List.forall₂_map_right_iff]
  simp only [each]

/-- Records that are left out for empty lists. -/
theorem rel_unless_empty {α : Type} {xs ys : List α} {a b : Json} {P : Prop}
    (both : xs = [] → ys = [] → P) (lengths : P → xs.length = ys.length)
    (records : xs ≠ [] → (Json.Equal f a b ↔ P)) :
    Option.Rel (Json.Equal f) (if xs = [] then none else some a)
      (if ys = [] then none else some b) ↔ P := by
  cases xs with
  | nil =>
    cases ys with
    | nil => simpa using both rfl rfl
    | cons y ys => exact ⟨nofun, fun holds => nomatch lengths holds⟩
  | cons x xs =>
    cases ys with
    | nil => exact ⟨nofun, fun holds => nomatch lengths holds⟩
    | cons y ys => simpa using records (List.cons_ne_nil x xs)

theorem OnConflict.text_injective (k l : OnConflict) : k.text = l.text ↔ k = l := by
  cases k <;> cases l <;> decide

theorem Consistency.text_injective (c d : Consistency) : c.text = d.text ↔ c = d := by
  cases c <;> cases d <;> decide

namespace Body

theorem rel_contextual (ts us : List RelationTuple) :
    Option.Rel (Json.Equal f) (contextual ts) (contextual us) ↔
      List.Forall₂ (RelationTuple.Agrees (Members.Equal f)) ts us := by
  refine rel_unless_empty ?_ List.Forall₂.length_eq fun _ => ?_
  · rintro rfl rfl
    exact .nil
  · rw [Json.ofMembers_present, Json.ofMembers_present]
    refine (Json.fields_equal (by simp) (by simp)).trans ?_
    simp [Json.SameField, equal_list RelationTuple.equal_toJson]

theorem rel_writes (ts us : List RelationTuple) (k l : OnConflict) :
    Option.Rel (Json.Equal f) (writes ts k) (writes us l) ↔
      List.Forall₂ (RelationTuple.Agrees (Members.Equal f)) ts us ∧ (ts ≠ [] → k = l) := by
  refine rel_unless_empty ?_ (fun same => same.1.length_eq) fun some => ?_
  · rintro rfl rfl
    exact ⟨.nil, absurd rfl⟩
  · rw [Json.ofMembers_present, Json.ofMembers_present]
    refine (Json.fields_equal (by simp) (by simp)).trans ?_
    simp [Json.SameField, equal_list RelationTuple.equal_toJson, Json.equal_string,
      OnConflict.text_injective, some]

theorem rel_deletes (ts us : List RelationTuple) (k l : OnConflict) :
    Option.Rel (Json.Equal f) (deletes ts k) (deletes us l) ↔
      ts.map RelationTuple.key = us.map RelationTuple.key ∧ (ts ≠ [] → k = l) := by
  have keys : Json.Equal f (.array (ts.map fun t => t.key.toJson))
      (.array (us.map fun t => t.key.toJson)) ↔
        ts.map RelationTuple.key = us.map RelationTuple.key := by
    rw [equal_list fun t u => TupleKey.equal_toJson t.key u.key, ← List.forall₂_eq_eq_eq,
      List.forall₂_map_left_iff, List.forall₂_map_right_iff]
  refine rel_unless_empty ?_ (fun same => by simpa using congrArg List.length same.1) fun some => ?_
  · rintro rfl rfl
    exact ⟨rfl, absurd rfl⟩
  · rw [Json.ofMembers_present, Json.ofMembers_present]
    refine (Json.fields_equal (by simp) (by simp)).trans ?_
    simp [Json.SameField, keys, Json.equal_string, OnConflict.text_injective, some]

theorem rel_consistency (c d : Option Consistency) :
    Option.Rel (Json.Equal f) (c.map fun c => .string c.text) (d.map fun d => .string d.text) ↔
      c = d := by
  cases c <;> cases d <;> simp [Json.equal_string, Consistency.text_injective]

theorem tupleKey_equal (q r : Question) : Json.Equal f (tupleKey q) (tupleKey r) ↔
    q.user = r.user ∧ q.relation = r.relation ∧ q.object = r.object := by
  rw [tupleKey, tupleKey, TupleKey.equal_toJson, TupleKey.mk.injEq]

/-! ## Whole bodies -/

/-- Bodies of each kind are equal just when what they were made from agrees. -/
structure Determined (equal : Json → Json → Prop) (contexts : Members → Members → Prop) :
    Prop where
  check (q r : Question) (m n : Option String) (c d : Option Consistency) :
    equal (check q m c) (check r n d) ↔ q.Agrees contexts r ∧ m = n ∧ c = d
  batchCheck (g h : List Identified) (m n : Option String) (c d : Option Consistency) :
    equal (batchCheck g m c) (batchCheck h n d) ↔
      List.Forall₂ (Identified.Agrees contexts) g h ∧ m = n ∧ c = d
  listObjects (q r : ObjectsQuestion) (m n : Option String) (c d : Option Consistency) :
    equal (listObjects q m c) (listObjects r n d) ↔ q.Agrees contexts r ∧ m = n ∧ c = d
  write (r s : WriteRequest) (k l : ConflictPolicy) (m n : Option String) :
    equal (write r k m) (write s l n) ↔
      List.Forall₂ (RelationTuple.Agrees contexts) r.writes s.writes ∧
      r.deletes.map RelationTuple.key = s.deletes.map RelationTuple.key ∧ m = n ∧
      (r.writes ≠ [] → k.onDuplicate = l.onDuplicate) ∧
      (r.deletes ≠ [] → k.onMissing = l.onMissing)

theorem batchItem_equal (i j : Identified) :
    Json.Equal f (batchItem i) (batchItem j) ↔ i.Agrees (Members.Equal f) j := by
  refine (Json.fields_equal (by simp [question]) (by simp [question])).trans ?_
  simp [question, Json.SameField, tupleKey_equal, rel_contextual, rel_context, Json.equal_string,
    Identified.agrees_iff, Question.agrees_iff]
  tauto

theorem determined (f : Double → Double → Bool) :
    Determined (Json.Equal f) (Members.Equal f) where
  check q r m n c d := by
    refine (Json.fields_equal (by simp [question, settings]) (by simp [question, settings])).trans ?_
    simp [question, settings, Json.SameField, tupleKey_equal, rel_contextual, rel_context, rel_text,
      rel_consistency, Question.agrees_iff]
    tauto
  batchCheck g h m n c d := by
    refine (Json.fields_equal (by simp [settings]) (by simp [settings])).trans ?_
    simp [settings, Json.SameField, equal_list batchItem_equal, rel_text, rel_consistency]
  listObjects q r m n c d := by
    refine (Json.fields_equal (by simp [settings]) (by simp [settings])).trans ?_
    simp [settings, Json.SameField, Json.equal_string, rel_contextual, rel_context, rel_text,
      rel_consistency, ObjectsQuestion.agrees_iff]
    tauto
  write r s k l m n := by
    refine (Json.fields_equal (by simp) (by simp)).trans ?_
    simp [Json.SameField, rel_writes, rel_deletes, rel_text]
    tauto

/-- Two bodies of a kind are equal just when they were made from the same questions or tuples, the
same model and the same consistency or conflict settings, but for the conditions of tuples to delete
and for the setting of a side without tuples. So it is for what is written of values, and for the
equality that takes both floating-point zeros for one number. -/
theorem equal_bodies_agree : Determined (· = ·) (· = ·) ∧
    Determined (fun a b => a.same b) fun m m' => (Json.object m).same (.object m') := by
  have objects (f : Double → Double → Bool) : Members.Equal f =
      fun m m' => Json.Equal f (.object m) (.object m') := by
    funext m m'
    exact propext Members.equal_object.symm
  have written := determined (· == ·)
  have valued := determined Double.same
  rw [objects] at written valued
  refine ⟨?_, valued⟩
  simpa only [Json.equal_eq, Json.object.injEq] using written

end Body

end Parts

end Rebac
