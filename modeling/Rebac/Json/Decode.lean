import Rebac.Json.Basic

set_option autoImplicit false

/-!
# Decoding JSON values

Readers from a JSON value to a typed one. A record is read from an object, whose unknown members
are passed over, or from a list of its fields in their declared order, whose tail may be left out
where fields have defaults. In an object the members that are there are read in the order of
their names, and only then is a missing one reported.
-/
namespace Rebac.Json

inductive DecodeError where
  | invalidType (found : Json) (expected : String)
  | invalidLength (length : Nat) (expected : String)
  | missingField (name : String)
  | unknownVariant (name : String) (variants : List String)
  | notSingleKey
  | malformed (reason : String)
  deriving DecidableEq

def oneOf (variants : List String) : String :=
  let quoted := variants.map fun v => "`" ++ v ++ "`"
  match quoted with
  | [a] => a
  | [a, b] => a ++ " or " ++ b
  | _ => "one of " ++ String.intercalate ", " quoted

def DecodeError.message : DecodeError → String
  | .invalidType found expected =>
    "invalid type: " ++ found.describe ++ ", expected " ++ expected
  | .invalidLength length expected =>
    "invalid length " ++ toString length ++ ", expected " ++ expected
  | .missingField name => "missing field `" ++ name ++ "`"
  | .unknownVariant name variants =>
    "unknown variant `" ++ name ++ "`, expected " ++ oneOf variants
  | .notSingleKey => "invalid value: map, expected map with a single key"
  | .malformed reason => reason

abbrev Decoded (α : Type) := Except DecodeError α

def asString : Json → Decoded String
  | .string s => .ok s
  | j => .error (.invalidType j "a string")

def asBool : Json → Decoded Bool
  | .bool b => .ok b
  | j => .error (.invalidType j "a boolean")

def asMembers : Json → Decoded Members
  | .object members => .ok members
  | j => .error (.invalidType j "a map")

def asListOf {α : Type} (item : Json → Decoded α) : Json → Decoded (List α)
  | .array items => items.mapM item
  | j => .error (.invalidType j "a sequence")

/-- The entries of a map: of equal names the last counts. -/
def byName {α : Type} : List (String × α) → List (String × α)
  | [] => []
  | (name, a) :: rest =>
    if name ∈ rest.map Prod.fst then byName rest else (name, a) :: byName rest

def asMapOf {α : Type} (value : Json → Decoded α) : Json → Decoded (List (String × α))
  | .object members =>
    (members.mapM fun pair => (value pair.2).map fun v => (pair.1, v)).map byName
  | j => .error (.invalidType j "a map")

def asOption {α : Type} (decode : Json → Decoded α) : Json → Decoded (Option α)
  | .null => .ok none
  | j => (decode j).map some

/-- One of several named variants: its name, or an object of that one name with `null`. -/
def asVariant {α : Type} (variants : List (String × α)) (j : Json) : Decoded α :=
  let find (name : String) : Decoded α :=
    match variants.lookup name with
    | some v => .ok v
    | none => .error (.unknownVariant name (variants.map Prod.fst))
  match j with
  | .string name => find name
  | .object [(name, content)] => do
    let v ← find name
    match content with
    | .null => return v
    | other => .error (.invalidType other "unit")
  | .object _ => .error .notSingleKey
  | other => .error (.invalidType other "string or map")

def present {α : Type} (members : Members) (name : String) (decode : Json → Decoded α) :
    Decoded (Option α) :=
  match members.find? name with
  | none => .ok none
  | some j => (decode j).map some

def required {α : Type} (name : String) : Option α → Decoded α
  | some a => .ok a
  | none => .error (.missingField name)

/-- A field of a record given as a list, with the default for one that is left out. -/
def itemOr {α : Type} (items : List Json) (index : Nat) (default : α)
    (decode : Json → Decoded α) : Decoded α :=
  match items[index]? with
  | some j => decode j
  | none => .ok default

def itemAt {α : Type} (record : String) (size : Nat) (items : List Json) (index : Nat)
    (decode : Json → Decoded α) : Decoded α :=
  match items[index]? with
  | some j => decode j
  | none =>
    let elements := if size = 1 then " element" else " elements"
    .error (.invalidLength index
      ("struct " ++ record ++ " with " ++ toString size ++ elements))

def atMost {α : Type} (size : Nat) (items : List Json) (value : α) : Decoded α :=
  if size < items.length then
    .error (.invalidLength items.length "fewer elements in array")
  else .ok value

end Rebac.Json
