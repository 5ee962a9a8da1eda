import Rebac.Options
import Rebac.Question.Basic

set_option autoImplicit false

/-!
# Request bodies

The JSON bodies that questions and writes are sent in. What is absent is left out, and so is an
empty list of contextual tuples and an empty side of a write.
-/
namespace Rebac.Body

def contextual (tuples : List RelationTuple) : Option Json :=
  if tuples = [] then none
  else some (Json.ofMembers [("tuple_keys", .array (tuples.map RelationTuple.toJson))])

def tupleKey (q : Question) : Json := TupleKey.toJson ⟨q.user, q.relation, q.object⟩

def question (q : Question) : List (String × Option Json) :=
  [("tuple_key", some (tupleKey q)), ("contextual_tuples", contextual q.contextual),
   ("context", q.context.map .object)]

def settings (modelId : Option String) (consistency : Option Consistency) :
    List (String × Option Json) :=
  [("authorization_model_id", modelId.map .string),
   ("consistency", consistency.map fun c => .string c.text)]

def check (q : Question) (modelId : Option String) (consistency : Option Consistency) : Json :=
  Json.ofPresent (question q ++ settings modelId consistency)

def batchItem (item : Identified) : Json :=
  Json.ofPresent (question item.question ++ [("correlation_id", some (.string item.id))])

def batchCheck (group : List Identified) (modelId : Option String)
    (consistency : Option Consistency) : Json :=
  Json.ofPresent (("checks", some (.array (group.map batchItem))) :: settings modelId consistency)

def writes (tuples : List RelationTuple) (onDuplicate : OnConflict) : Option Json :=
  if tuples = [] then none
  else some (Json.ofMembers [("tuple_keys", .array (tuples.map RelationTuple.toJson)),
    ("on_duplicate", .string onDuplicate.text)])

def deletes (tuples : List RelationTuple) (onMissing : OnConflict) : Option Json :=
  if tuples = [] then none
  else some (Json.ofMembers [("tuple_keys", .array (tuples.map fun t => t.key.toJson)),
    ("on_missing", .string onMissing.text)])

def write (request : WriteRequest) (conflict : ConflictPolicy) (modelId : Option String) : Json :=
  Json.ofPresent [("writes", writes request.writes conflict.onDuplicate),
    ("deletes", deletes request.deletes conflict.onMissing),
    ("authorization_model_id", modelId.map .string)]

def listObjects (q : ObjectsQuestion) (modelId : Option String)
    (consistency : Option Consistency) : Json :=
  Json.ofPresent ([("type", some (.string q.objectType)), ("relation", some (.string q.relation)),
    ("user", some (.string q.user)), ("contextual_tuples", contextual q.contextual),
    ("context", q.context.map .object)] ++ settings modelId consistency)

end Rebac.Body
