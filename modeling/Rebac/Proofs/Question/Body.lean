import Rebac.Proofs.Tuple
import Rebac.Question.Body

set_option autoImplicit false

/-! # Reading request bodies -/

namespace Rebac

def Json.text? : Json → Option String
  | .string s => some s
  | _ => none

namespace Body

def contextual? (body : Json) : Option (List RelationTuple) :=
  match body.member? "contextual_tuples" with
  | none => some []
  | some record =>
    match record.member? "tuple_keys" with
    | some (.array items) => (items.mapM RelationTuple.decode).toOption
    | _ => none

def context? (body : Json) : Option (Option Members) :=
  match body.member? "context" with
  | none => some none
  | some (.object members) => some (some members)
  | some _ => none

/-- The question that a body asks, with the id that it gives it. -/
def question? (body : Json) : Option Question := do
  let key ← body.member? "tuple_key"
  let user ← (key.member? "user").bind Json.text?
  let relation ← (key.member? "relation").bind Json.text?
  let object ← (key.member? "object").bind Json.text?
  let contextual ← contextual? body
  let context ← context? body
  return ⟨user, relation, object, (body.member? "correlation_id").bind Json.text?, contextual,
    context⟩

def model? (body : Json) : Option String :=
  (body.member? "authorization_model_id").bind Json.text?

def consistency? (body : Json) : Option Consistency :=
  ((body.member? "consistency").bind Json.text?).bind fun text => Consistency.variants.lookup text

def checks (body : Json) : List Json :=
  match body.member? "checks" with
  | some (.array items) => items
  | _ => []

theorem mapM_decode (tuples : List RelationTuple) :
    (tuples.map RelationTuple.toJson).mapM RelationTuple.decode = .ok tuples := by
  induction tuples with
  | nil => rfl
  | cons t rest ih =>
    rw [List.map_cons, List.mapM_cons, RelationTuple.decode_toJson, ih]
    rfl

theorem contextual?_eq {body : Json} {tuples : List RelationTuple}
    (sent : body.member? "contextual_tuples" = contextual tuples) :
    contextual? body = some tuples := by
  rw [contextual?, sent, contextual]
  by_cases none : tuples = []
  · simp [none]
  · have keys := Json.member?_ofMembers
      [("tuple_keys", .array (tuples.map RelationTuple.toJson))] (by simp) "tuple_keys"
    rw [List.lookup_cons_self] at keys
    simp only [none, ↓reduceIte, keys, mapM_decode]
    rfl

theorem context?_eq {body : Json} {context : Option Members}
    (sent : body.member? "context" = context.map .object) : context? body = some context := by
  rw [context?, sent]
  cases context <;> rfl

theorem question?_ofPresent (q : Question) (others : List (String × Option Json))
    (once : ((question q ++ others).map Prod.fst).Nodup) :
    question? (Json.ofPresent (question q ++ others)) =
      some { q with correlationId := (others.lookup "correlation_id").join.bind Json.text? } := by
  have parts := Json.member?_ofPresent _ once
  have key : (Json.ofPresent (question q ++ others)).member? "tuple_key" = some (tupleKey q) :=
    parts "tuple_key"
  have tuples : contextual? (Json.ofPresent (question q ++ others)) = some q.contextual := by
    apply contextual?_eq
    rw [parts]
    simp [question, List.lookup_cons]
  have values : context? (Json.ofPresent (question q ++ others)) = some q.context := by
    apply context?_eq
    rw [parts]
    simp [question, List.lookup_cons]
  have id : (Json.ofPresent (question q ++ others)).member? "correlation_id" =
      (others.lookup "correlation_id").join := by
    rw [parts]
    simp [question, List.lookup_cons]
  have named := Json.member?_ofMembers [("user", .string q.user),
    ("relation", .string q.relation), ("object", .string q.object)] (by simp)
  have user : (tupleKey q).member? "user" = some (.string q.user) := named "user"
  have relation : (tupleKey q).member? "relation" = some (.string q.relation) := by
    simpa [tupleKey, TupleKey.toJson, List.lookup_cons] using named "relation"
  have object : (tupleKey q).member? "object" = some (.string q.object) := by
    simpa [tupleKey, TupleKey.toJson, List.lookup_cons] using named "object"
  simp [question?, key, user, relation, object, tuples, values, id, Json.text?]

theorem question?_check (q : Question) (modelId : Option String)
    (consistency : Option Consistency) :
    question? (check q modelId consistency) = some { q with correlationId := none } := by
  rw [check, question?_ofPresent q _ (by simp [question, settings])]
  simp [settings, List.lookup_cons]

theorem question?_batchItem (item : Identified) :
    question? (batchItem item) = some { item.question with correlationId := some item.id } := by
  rw [batchItem, question?_ofPresent item.question _ (by simp [question])]
  rfl

theorem model?_check (q : Question) (modelId : Option String)
    (consistency : Option Consistency) : model? (check q modelId consistency) = modelId := by
  rw [model?, check, Json.member?_ofPresent _ (by simp [question, settings])]
  cases modelId <;> simp [question, settings, List.lookup_cons, Json.text?]

theorem model?_batchCheck (group : List Identified) (modelId : Option String)
    (consistency : Option Consistency) :
    model? (batchCheck group modelId consistency) = modelId := by
  rw [model?, batchCheck, Json.member?_ofPresent _ (by simp [settings])]
  cases modelId <;> simp [settings, List.lookup_cons, Json.text?]

theorem model?_listObjects (q : ObjectsQuestion) (modelId : Option String)
    (consistency : Option Consistency) :
    model? (listObjects q modelId consistency) = modelId := by
  rw [model?, listObjects, Json.member?_ofPresent _ (by simp [settings])]
  cases modelId <;> simp [settings, List.lookup_cons, Json.text?]

theorem model?_write (request : WriteRequest) (conflict : ConflictPolicy)
    (modelId : Option String) : model? (write request conflict modelId) = modelId := by
  rw [model?, write, Json.member?_ofPresent _ (by simp)]
  cases modelId <;> simp [List.lookup_cons, Json.text?]

theorem variants_text (c : Consistency) : Consistency.variants.lookup c.text = some c := by
  cases c <;> rfl

theorem consistency?_check (q : Question) (modelId : Option String)
    (consistency : Option Consistency) :
    consistency? (check q modelId consistency) = consistency := by
  rw [consistency?, check, Json.member?_ofPresent _ (by simp [question, settings])]
  cases consistency <;> simp [question, settings, List.lookup_cons, Json.text?, variants_text]

theorem consistency?_batchCheck (group : List Identified) (modelId : Option String)
    (consistency : Option Consistency) :
    consistency? (batchCheck group modelId consistency) = consistency := by
  rw [consistency?, batchCheck, Json.member?_ofPresent _ (by simp [settings])]
  cases consistency <;> simp [settings, List.lookup_cons, Json.text?, variants_text]

theorem checks_batchCheck (group : List Identified) (modelId : Option String)
    (consistency : Option Consistency) :
    checks (batchCheck group modelId consistency) = group.map batchItem := by
  rw [checks, batchCheck, Json.member?_ofPresent _ (by simp [settings])]
  rfl

theorem questions_batchCheck (group : List Identified) (modelId : Option String)
    (consistency : Option Consistency) :
    (checks (batchCheck group modelId consistency)).filterMap question? =
      group.map fun item => { item.question with correlationId := some item.id } := by
  have each : question? ∘ batchItem =
      some ∘ fun item => { item.question with correlationId := some item.id } :=
    funext question?_batchItem
  rw [checks_batchCheck, List.filterMap_map, each, List.filterMap_eq_map]

end Body

end Rebac
