import Rebac.Json.Decode

set_option autoImplicit false

/-!
# Relationship tuples

A tuple says that a user has a relation to an object, perhaps under a named condition with a
context of its own. `toJson` is the form that is sent, which leaves out what is absent, and
`decode` reads that form and the looser ones that are accepted.
-/
namespace Rebac

structure Condition where
  name : String
  context : Option Members
  deriving DecidableEq

structure RelationTuple where
  user : String
  relation : String
  object : String
  condition : Option Condition
  deriving DecidableEq

structure TupleKey where
  user : String
  relation : String
  object : String
  deriving DecidableEq

namespace Condition

def toJson (c : Condition) : Json :=
  Json.ofPresent [("name", some (.string c.name)), ("context", c.context.map .object)]

def decode : Json → Json.Decoded Condition
  | .object members => do
    let context ← Json.present members "context" (Json.asOption Json.asMembers)
    let name ← Json.present members "name" Json.asString
    let name ← Json.required "name" name
    return ⟨name, context.join⟩
  | .array items => do
    let name ← Json.itemAt "ConditionReference" 2 items 0 Json.asString
    let context ← Json.itemOr items 1 none (Json.asOption Json.asMembers)
    Json.atMost 2 items ⟨name, context⟩
  | j => .error (.invalidType j "struct ConditionReference")

/-- Equality in which both floating-point zeros are one number. -/
def same (a b : Condition) : Bool := a.toJson.same b.toJson

end Condition

namespace RelationTuple

def toJson (t : RelationTuple) : Json :=
  Json.ofPresent
    [("user", some (.string t.user)), ("relation", some (.string t.relation)),
     ("object", some (.string t.object)), ("condition", t.condition.map Condition.toJson)]

def decode : Json → Json.Decoded RelationTuple
  | .object members => do
    let condition ← Json.present members "condition" (Json.asOption Condition.decode)
    let object ← Json.present members "object" Json.asString
    let relation ← Json.present members "relation" Json.asString
    let user ← Json.present members "user" Json.asString
    let user ← Json.required "user" user
    let relation ← Json.required "relation" relation
    let object ← Json.required "object" object
    return ⟨user, relation, object, condition.join⟩
  | .array items => do
    let user ← Json.itemAt "RelationshipTuple" 4 items 0 Json.asString
    let relation ← Json.itemAt "RelationshipTuple" 4 items 1 Json.asString
    let object ← Json.itemAt "RelationshipTuple" 4 items 2 Json.asString
    let condition ← Json.itemOr items 3 none (Json.asOption Condition.decode)
    Json.atMost 4 items ⟨user, relation, object, condition⟩
  | j => .error (.invalidType j "struct RelationshipTuple")

def describe (t : RelationTuple) : String :=
  t.object ++ "#" ++ t.relation ++ "@" ++ t.user ++
    match t.condition with
    | some c => "[" ++ c.name ++ "]"
    | none => ""

def key (t : RelationTuple) : TupleKey := ⟨t.user, t.relation, t.object⟩

def same (a b : RelationTuple) : Bool := a.toJson.same b.toJson

end RelationTuple

namespace TupleKey

def toJson (k : TupleKey) : Json :=
  Json.ofMembers
    [("user", .string k.user), ("relation", .string k.relation), ("object", .string k.object)]

def decode : Json → Json.Decoded TupleKey
  | .object members => do
    let object ← Json.present members "object" Json.asString
    let relation ← Json.present members "relation" Json.asString
    let user ← Json.present members "user" Json.asString
    let user ← Json.required "user" user
    let relation ← Json.required "relation" relation
    let object ← Json.required "object" object
    return ⟨user, relation, object⟩
  | .array items => do
    let user ← Json.itemAt "TupleKeyWithoutCondition" 3 items 0 Json.asString
    let relation ← Json.itemAt "TupleKeyWithoutCondition" 3 items 1 Json.asString
    let object ← Json.itemAt "TupleKeyWithoutCondition" 3 items 2 Json.asString
    Json.atMost 3 items ⟨user, relation, object⟩
  | j => .error (.invalidType j "struct TupleKeyWithoutCondition")

end TupleKey

end Rebac
