import Rebac.Call
import Rebac.Validation

set_option autoImplicit false

/-!
# Errors of operations

How an operation can fail, from rejected input to an answer that makes no sense. Only rejected
credentials are fatal: they end a whole batch, all else is reported with the item it concerns.
-/
namespace Rebac

inductive ClientError where
  | validation (cause : ValidationError)
  | configuration (reason : String)
  | authentication (text : String)
  | authorization (text : String)
  | rateLimited (text : String)
  | service (status : Nat) (text : String)
  | notImplemented (text : String)
  | invalidRequest (status : Nat) (code : Option String) (text : String)
  | notFound (text : String)
  | checkItem (inputError internalError : Option String) (text : String)
  | transport (reason : String)
  | protocol (reason : String)
  deriving DecidableEq, Repr

namespace ClientError

def message : ClientError → String
  | .validation cause => "validation failed: " ++ cause.message
  | .configuration reason => "invalid configuration: " ++ reason
  | .authentication text => "authentication failed: " ++ text
  | .authorization text => "not authorized: " ++ text
  | .rateLimited text => "rate limited: " ++ text
  | .service status text => "service error (HTTP " ++ toString status ++ "): " ++ text
  | .notImplemented text => "not implemented: " ++ text
  | .invalidRequest status (some code) text =>
    "request rejected (HTTP " ++ toString status ++ ", " ++ code ++ "): " ++ text
  | .invalidRequest status none text =>
    "request rejected (HTTP " ++ toString status ++ "): " ++ text
  | .notFound text => "not found: " ++ text
  | .checkItem inputError internalError text =>
    "check failed: " ++ text ++
      (match inputError with
       | some e => " (input error: " ++ e ++ ")"
       | none => "") ++
      (match internalError with
       | some e => " (internal error: " ++ e ++ ")"
       | none => "")
  | .transport reason => "transport failure: " ++ reason
  | .protocol reason => "protocol error: " ++ reason

/-- Whether the error ends the whole operation: the credentials were rejected. -/
def fatal : ClientError → Bool
  | .authentication _ => true
  | .authorization _ => true
  | _ => false

def isValidation : ClientError → Bool
  | .validation _ => true
  | _ => false

def ofCall (e : CallError) : ClientError :=
  match e with
  | .decode reason => .protocol reason
  | .timeout _ => .transport e.message
  | .connection _ => .transport e.message
  | .http status _ _ =>
    match CallError.classOf status with
    | .transport => .transport e.message
    | .unauthenticated => .authentication e.message
    | .forbidden => .authorization e.message
    | .rateLimited => .rateLimited e.message
    | .notImplemented => .notImplemented e.message
    | .notFound => .notFound e.message
    | .service => .service status e.message
    | .invalidRequest => .invalidRequest status e.code? e.message

end ClientError

end Rebac
