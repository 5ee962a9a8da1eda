import Rebac.Question.Basic

set_option autoImplicit false

/-! # Answers -/

namespace Rebac.Answer

/-- A field of a record, from an object by name or from a list by place, with a default. -/
def field {α : Type} (default : α) (decode : Json → Json.Decoded α) (members : Members)
    (name : String) : Json.Decoded α :=
  (Json.present members name decode).map fun a => a.getD default

def check : Json → Json.Decoded Bool
  | .object members => field false Json.asBool members "allowed"
  | .array items => do
    let allowed ← Json.itemOr items 0 false Json.asBool
    Json.atMost 1 items allowed
  | j => .error (.invalidType j "struct CheckResponseBody")

structure Fault where
  inputError : Option String
  internalError : Option String
  message : String
  deriving DecidableEq

def fault : Json → Json.Decoded Fault
  | .object members => do
    let inputError ← field none (Json.asOption Json.asString) members "input_error"
    let internalError ← field none (Json.asOption Json.asString) members "internal_error"
    let message ← field "" Json.asString members "message"
    return ⟨inputError, internalError, message⟩
  | .array items => do
    let inputError ← Json.itemOr items 0 none (Json.asOption Json.asString)
    let internalError ← Json.itemOr items 1 none (Json.asOption Json.asString)
    let message ← Json.itemOr items 2 "" Json.asString
    Json.atMost 3 items ⟨inputError, internalError, message⟩
  | j => .error (.invalidType j "struct CheckErrorBody")

structure Entry where
  allowed : Option Bool
  error : Option Fault
  deriving DecidableEq

def entry : Json → Json.Decoded Entry
  | .object members => do
    let allowed ← field none (Json.asOption Json.asBool) members "allowed"
    let error ← field none (Json.asOption fault) members "error"
    return ⟨allowed, error⟩
  | .array items => do
    let allowed ← Json.itemOr items 0 none (Json.asOption Json.asBool)
    let error ← Json.itemOr items 1 none (Json.asOption fault)
    Json.atMost 2 items ⟨allowed, error⟩
  | j => .error (.invalidType j "struct BatchCheckSingleResult")

def batch : Json → Json.Decoded (List (String × Entry))
  | .object members => field [] (Json.asMapOf entry) members "result"
  | .array items => do
    let result ← Json.itemOr items 0 [] (Json.asMapOf entry)
    Json.atMost 1 items result
  | j => .error (.invalidType j "struct BatchCheckResponseBody")

def objects : Json → Json.Decoded (List String)
  | .object members => field [] (Json.asListOf Json.asString) members "objects"
  | .array items => do
    let objects ← Json.itemOr items 0 [] (Json.asListOf Json.asString)
    Json.atMost 1 items objects
  | j => .error (.invalidType j "struct ListObjectsResponseBody")

def Entry.verdict (entry : Entry) (item : Identified) : Verdict :=
  { id := item.id
    allowed := entry.allowed.getD false
    question := item.question
    error := entry.error.map fun f => .checkItem f.inputError f.internalError f.message }

def ofOutcome {α : Type} (decode : Json → Json.Decoded α) (outcome : Outcome) :
    Except ClientError α :=
  match outcome with
  | .error e => .error (.ofCall e)
  | .ok response =>
    match response.decode decode with
    | .ok a => .ok a
    | .error e => .error (.ofCall e)

end Rebac.Answer
