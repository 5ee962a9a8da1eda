import Rebac.Json.Decode
import Rebac.Time.Duration

set_option autoImplicit false

/-! # Calls and their outcomes -/

namespace Rebac

/-- Header names with their values, in ascending order of the names. -/
abbrev Headers := List (String × String)

structure Call where
  path : String
  headers : Headers
  body : Json
  timeout : Option Duration
  deriving DecidableEq

structure Response where
  status : Nat
  body : Json
  deriving DecidableEq

structure ErrorBody where
  code : Option String
  message : Option String
  deriving DecidableEq, Repr

def ErrorBody.decode : Json → Json.Decoded ErrorBody
  | .object members => do
    let code ← Json.present members "code" (Json.asOption Json.asString)
    let message ← Json.present members "message" (Json.asOption Json.asString)
    return ⟨code.join, message.join⟩
  | .array items => do
    let code ← Json.itemOr items 0 none (Json.asOption Json.asString)
    let message ← Json.itemOr items 1 none (Json.asOption Json.asString)
    Json.atMost 2 items ⟨code, message⟩
  | j => .error (.invalidType j "struct ApiErrorBody")

inductive CallError where
  | http (status : Nat) (retryAfter : Option String) (body : Option ErrorBody)
  | timeout (path : String)
  | connection (reason : String)
  | decode (reason : String)
  deriving DecidableEq, Repr

abbrev Outcome := Except CallError Response

instance : DecidableEq Outcome
  | .ok a, .ok b => decidable_of_iff (a = b) (by simp)
  | .error a, .error b => decidable_of_iff (a = b) (by simp)
  | .ok _, .error _ => isFalse (by simp)
  | .error _, .ok _ => isFalse (by simp)

inductive FailureClass where
  | rateLimited
  | notImplemented
  | service
  | unauthenticated
  | forbidden
  | notFound
  | invalidRequest
  | transport
  deriving DecidableEq, Repr

namespace CallError

def status? : CallError → Option Nat
  | .http status _ _ => some status
  | _ => none

def retryAfter? : CallError → Option String
  | .http _ hint _ => hint
  | _ => none

def code? : CallError → Option String
  | .http _ _ (some body) => body.code
  | _ => none

def describe : CallError → String
  | .http status _ body =>
    "HTTP " ++ toString status ++
      (match body.bind ErrorBody.code with
       | some code => " (" ++ code ++ ")"
       | none => "") ++
      (match body.bind ErrorBody.message with
       | some message => ": " ++ message
       | none => "")
  | .timeout path => "request to '" ++ path ++ "' timed out"
  | .connection reason => "connection failed: " ++ reason
  | .decode reason => "failed to decode response: " ++ reason

def message (e : CallError) : String :=
  match e with
  | .http _ _ (some ⟨_, some message⟩) => message
  | other => other.describe

def classOf (status : Nat) : FailureClass :=
  if status = 429 then .rateLimited
  else if status = 501 then .notImplemented
  else if 500 ≤ status ∧ status ≤ 599 then .service
  else if status = 401 then .unauthenticated
  else if status = 403 then .forbidden
  else if status = 404 then .notFound
  else .invalidRequest

def failureClass (e : CallError) : FailureClass :=
  match e.status? with
  | some status => classOf status
  | none => .transport

def retryable (e : CallError) : Bool :=
  e.failureClass = .rateLimited || e.failureClass = .service

end CallError

def Response.decode {α : Type} (r : Response) (decode : Json → Json.Decoded α) :
    Except CallError α :=
  match decode r.body with
  | .ok a => .ok a
  | .error e => .error (.decode e.message)

end Rebac
