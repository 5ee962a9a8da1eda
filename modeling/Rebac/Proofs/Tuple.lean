import Rebac.Proofs.Json.Members
import Rebac.Tuple

set_option autoImplicit false

/-! # Tuples and their JSON form -/

namespace Rebac

theorem Condition.decode_toJson (c : Condition) : Condition.decode c.toJson = .ok c := by
  obtain ⟨members, eq, found⟩ := Json.ofPresent_object
    [("name", some (.string c.name)), ("context", c.context.map .object)] (by simp)
  have hasName : members.find? "name" = some (.string c.name) := found "name"
  have hasContext : members.find? "context" = c.context.map .object := by
    simpa [List.lookup_cons] using found "context"
  rw [toJson, eq]
  simp only [decode, Json.present, hasName, hasContext]
  obtain ⟨name, _ | values⟩ := c <;> rfl

theorem RelationTuple.decode_toJson (t : RelationTuple) :
    RelationTuple.decode t.toJson = .ok t := by
  obtain ⟨members, eq, found⟩ := Json.ofPresent_object
    [("user", some (.string t.user)), ("relation", some (.string t.relation)),
      ("object", some (.string t.object)), ("condition", t.condition.map Condition.toJson)]
    (by simp)
  have hasUser : members.find? "user" = some (.string t.user) := found "user"
  have hasRelation : members.find? "relation" = some (.string t.relation) := by
    simpa [List.lookup_cons] using found "relation"
  have hasObject : members.find? "object" = some (.string t.object) := by
    simpa [List.lookup_cons] using found "object"
  have hasCondition : members.find? "condition" = t.condition.map Condition.toJson := by
    simpa [List.lookup_cons] using found "condition"
  rw [toJson, eq]
  simp only [decode, Json.present, hasUser, hasRelation, hasObject, hasCondition]
  obtain ⟨user, relation, object, _ | c⟩ := t
  · rfl
  · have read : Json.asOption Condition.decode c.toJson = .ok (some c) := by
      change (Condition.decode c.toJson).map some = .ok (some c)
      rw [Condition.decode_toJson]
      rfl
    simp only [Option.map_some, read]
    rfl

end Rebac
