import Rebac.Number.Reading
import Rebac.Settings.Basic
import Rebac.Settings.LoadError
import Rebac.Settings.Tree

set_option autoImplicit false

/-!
# Settings in a tree

How a tree is read as settings. Single values are converted where they can be: numbers and truth
values to text, and truth values, doubles and texts to whole numbers. A setting that is left out
has its default; only the address must be there.
-/
namespace Rebac.Settings

/-! ## Single values -/

def Found.ofTree : Tree → Found
  | .leaf value _ => .ofJson value
  | .table .. => .table
  | .list .. => .list

def reject {α : Type} (expected key : String) (t : Tree) : Loaded α :=
  .error (.wrongType (.ofTree t) expected key t.origin)

def readText (key : String) (t : Tree) : Loaded String :=
  match t with
  | .leaf (.string s) _ => .ok s
  | .leaf (.bool b) _ => .ok (if b then "true" else "false")
  | .leaf (.int n) _ => .ok (toString n)
  | .leaf (.float x) _ => .ok x.toPlain
  | t => reject "a string" key t

def naturalOf? (s : String) : Option Nat :=
  let word := String.ofList (s.toList.map Char.toLower)
  if word ∈ ["true", "on", "yes"] then some 1
  else if word ∈ ["false", "off", "no"] then some 0
  else
    let digits := match s.toList with
      | '+' :: rest => rest
      | cs => cs
    (Number.readNat? digits).filter (· < Nat.pow 2 64)

/-- A natural number below `2 ^ 64`. A double is rounded, and a greater one is the greatest. -/
def readNatural (key : String) (t : Tree) : Loaded Nat :=
  match t with
  | .leaf (.int n) origin =>
    if n < 0 then
      .error (.wrongType (.whole n) "an unsigned 64 bit or less integer" key origin)
    else .ok n.toNat
  | .leaf (.bool b) _ => .ok b.toNat
  | .leaf (.float x) _ => .ok (x.toNatSaturating (Nat.pow 2 64 - 1))
  | .leaf (.string s) origin =>
    match naturalOf? s with
    | some n => .ok n
    | none => .error (.wrongType (.text s) "an integer" key origin)
  | t => reject "an integer" key t

def readSmall (key : String) (t : Tree) : Loaded Nat := do
  let n ← readNatural key t
  if n < Nat.pow 2 32 then return n
  else throw (.wrongType (.large n) "an unsigned 32 bit integer" key none)

/-! ## Groups of settings -/

def settingOr {α : Type} (default : α) (t : Tree) (name : String) (read : Tree → Loaded α) :
    Loaded α :=
  match t.child? name with
  | some value => read value
  | none => .ok default

def readOptional (key : String) (t : Tree) : Loaded (Option String) :=
  match t with
  | .leaf .null _ => .ok none
  | t => (readText key t).map some

/-- The retry settings, from a table or from a list in the order of the fields. What is left out
has its default. -/
def readRetry (key : String) (t : Tree) : Loaded RetrySettings :=
  let standard : RetrySettings := {}
  match t with
  | .table .. => do
    let at? {α : Type} (default : α) (name : String) (read : String → Tree → Loaded α) : Loaded α :=
      settingOr default t name (read (key ++ "." ++ name))
    let maxRetries ← at? standard.maxRetries "max_retries" readSmall
    let minWaitMillis ← at? standard.minWaitMillis "min_wait_ms" readNatural
    let maxWaitMillis ← at? standard.maxWaitMillis "max_wait_ms" readNatural
    return { maxRetries, minWaitMillis, maxWaitMillis }
  | .list items _ => do
    let at? {α : Type} (default : α) (n : Nat) (read : String → Tree → Loaded α) : Loaded α :=
      match items[n]? with
      | some item => read (key ++ "[" ++ toString n ++ "]") item
      | none => .ok default
    let maxRetries ← at? standard.maxRetries 0 readSmall
    let minWaitMillis ← at? standard.minWaitMillis 1 readNatural
    let maxWaitMillis ← at? standard.maxWaitMillis 2 readNatural
    return { maxRetries, minWaitMillis, maxWaitMillis }
  | t => .error (.wrongShape (.ofTree t) "struct RetrySettings" key)

def readHeaders (key : String) (t : Tree) : Loaded Headers :=
  match t with
  | .table es _ => do
    let headers ← es.mapM fun e => do
      let value ← readText (key ++ "." ++ e.1) e.2
      return (e.1, value)
    return Headers.ofList headers
  | t => .error (.wrongShape (.ofTree t) "a map" key)

def ofTree (t : Tree) : Loaded Settings := do
  let named {α : Type} (default : α) (name : String) (read : String → Tree → Loaded α) : Loaded α :=
    settingOr default t name (read name)
  let apiUrl ← named none "api_url" fun key t => (readText key t).map some
  let storeId ← named none "store_id" readOptional
  let modelId ← named none "authorization_model_id" readOptional
  let apiToken ← named none "api_token" readOptional
  let headers ← named [] "default_headers" readHeaders
  let retry ← named {} "retry" readRetry
  let timeoutMillis ← named standardTimeoutMillis "timeout_ms" readNatural
  match apiUrl with
  | none => throw (.missing "api_url")
  | some apiUrl => return { apiUrl, storeId, modelId, apiToken, headers, retry, timeoutMillis }

end Rebac.Settings
