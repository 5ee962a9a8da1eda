import Rebac.Http.Request
import Rebac.Json.Reader

set_option autoImplicit false

/-!
# Exchanges over HTTP

What becomes of a call, by what the server does with its request while the call has time. A
status from 200 to 299 is a success and its body is JSON or empty; any other status is a failure
whose body may say more.
-/
namespace Rebac.Http

/-- How the body of a response ends: as its length says, before that, or not while the call has
time. -/
inductive Ending where
  | complete
  | cutOff
  | stalled
  deriving DecidableEq, Repr

/-- What a server does with a request: nothing while the call has time, a closed connection, or a
response with a head and as much of a body as arrives. -/
inductive Reply where
  | silent
  | dropped
  | answered (status : Nat) (headers : List (String × List UInt8)) (body : List UInt8)
      (ending : Ending)
  deriving DecidableEq, Repr

def isSuccess (status : Nat) : Bool := 200 ≤ status && status ≤ 299

def isBodiless (status : Nat) : Bool := status = 204 || status = 304

def valueText? (bytes : List UInt8) : Option String :=
  let inner := Text.trimWhile (fun c => c = ' ' || c = '\t') (bytes.map fun b => Char.ofNat b.toNat)
  if inner.all fun c => c = '\t' || (0x20 ≤ c.toNat && c.toNat < 0x7F) then
    some (String.ofList inner)
  else none

def retryAfter? (headers : List (String × List UInt8)) : Option String :=
  (headers.find? fun h => Headers.fold h.1 = "retry-after").bind fun h => valueText? h.2

/-- What the body of a failure says, if it is an error body. None of its parts may come twice. -/
def errorBody? (bytes : List UInt8) : Option ErrorBody :=
  let bytes := Text.Utf8.encode (Text.Utf8.decodeLossy bytes)
  let once (name : String) (pairs : List (String × Json)) : Bool :=
    (pairs.filter fun p => p.1 = name).length ≤ 1
  let unique := match Json.readPairs? bytes with
    | some pairs => once "code" pairs && once "message" pairs
    | none => true
  match Json.read bytes with
  | .ok j => if unique then (ErrorBody.decode j).toOption else none
  | .error _ => none

def successBody (status : Nat) (body : List UInt8) (ending : Ending) : Outcome :=
  if isBodiless status then .ok ⟨status, .null⟩
  else match ending with
    | .complete =>
      if body = [] then .ok ⟨status, .null⟩
      else match Json.read body with
        | .ok j => .ok ⟨status, j⟩
        | .error e => .error (.decode e.message)
    | _ => .error (.decode "error decoding response body")

/-- What the body of a failure says; a body that does not end says nothing. -/
def failureBody (status : Nat) (body : List UInt8) (ending : Ending) : Option ErrorBody :=
  match ending with
  | .complete => if isBodiless status then none else errorBody? body
  | _ => none

def Reply.outcome (path : String) (url : Url) : Reply → Outcome
  | .silent => .error (.timeout path)
  | .dropped => .error (.connection ("error sending request for url (" ++ url.text ++ ")"))
  | .answered status headers body ending =>
    if isSuccess status then successBody status body ending
    else .error (.http status (retryAfter? headers) (failureBody status body ending))

def outcome (address : String) (call : Call) (reply : Reply) : Outcome :=
  match Request.ofCall address call with
  | .error e => .error e
  | .ok request => reply.outcome call.path request.url

end Rebac.Http
