import Rebac.Client.Basic
import Rebac.ClientError
import Rebac.Url.Basic

set_option autoImplicit false

/-!
# Settings

What a client is built from, as it is written down: texts that have not been checked and times in
whole milliseconds. `Settings.resolve` checks them and makes the client.
-/
namespace Rebac

structure RetrySettings where
  maxRetries : Nat := 3
  minWaitMillis : Nat := 100
  maxWaitMillis : Nat := 120000
  deriving DecidableEq, Repr

namespace RetrySettings

def policy (r : RetrySettings) : Retry.Policy :=
  ⟨r.maxRetries, .ofMillis r.minWaitMillis, .ofMillis r.maxWaitMillis⟩

/-- The settings of a policy; parts of a millisecond are dropped. -/
def ofPolicy (p : Retry.Policy) : RetrySettings :=
  ⟨p.maxRetries, p.minWait.millis64, p.maxWait.millis64⟩

end RetrySettings

def standardTimeoutMillis : Nat := 10000

structure Settings where
  apiUrl : String
  storeId : Option String := none
  modelId : Option String := none
  apiToken : Option String := none
  headers : Headers := []
  retry : RetrySettings := {}
  timeoutMillis : Nat := standardTimeoutMillis
  deriving DecidableEq, Repr

namespace Settings

def withStoreId (s : Settings) (id : String) : Settings := { s with storeId := some id }

def withModelId (s : Settings) (id : String) : Settings := { s with modelId := some id }

def withApiToken (s : Settings) (token : String) : Settings := { s with apiToken := some token }

def withHeader (s : Settings) (name value : String) : Settings :=
  { s with headers := Headers.insert name value s.headers }

def withRetry (s : Settings) (p : Retry.Policy) : Settings :=
  { s with retry := .ofPolicy p }

def withTimeout (s : Settings) (d : Duration) : Settings :=
  { s with timeoutMillis := d.millis64 }

def timeout (s : Settings) : Duration := .ofMillis s.timeoutMillis

def schemes : List String := ["http", "https"]

def checkUrl (s : Settings) : Except ClientError Url :=
  match Url.parse s.apiUrl with
  | .error e =>
    .error (.configuration ("api_url '" ++ s.apiUrl ++ "' is not a valid URL: " ++ e.message))
  | .ok url =>
    if url.scheme ∈ schemes then .ok url
    else .error (.configuration ("api_url '" ++ s.apiUrl ++ "' must use http or https"))

def readId (kind : Identifier.Kind) : Option String → Except ClientError (Option Identifier)
  | none => .ok none
  | some raw =>
    match Identifier.parse raw with
    | .ok id => .ok (some id)
    | .error _ => .error (.validation (.malformedIdentifier kind.settingName raw))

def authorization : String := "Authorization"

/-- The standing headers of the client. A token goes before any header of its name. -/
def standingHeaders (s : Settings) : Headers :=
  match s.apiToken with
  | none => s.headers
  | some token =>
    Headers.insert authorization ("Bearer " ++ token)
      (s.headers.filter fun h => Headers.fold h.1 ≠ Headers.fold authorization)

/-- Checks the address, the store, the model and the number of retries, in this order, and makes
the client. -/
def resolve (s : Settings) : Except ClientError Client := do
  let _ ← s.checkUrl
  let storeId ← readId .store s.storeId
  let modelId ← readId .model s.modelId
  match s.retry.policy.validate with
  | .error e => throw (.validation e)
  | .ok _ =>
    return {
      storeId, modelId
      headers := s.standingHeaders
      retry := s.retry.policy
      timeout := s.timeout }

end Settings

end Rebac
