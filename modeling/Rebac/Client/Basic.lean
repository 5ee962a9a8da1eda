import Rebac.Headers
import Rebac.Identifier
import Rebac.Options
import Rebac.Question.Basic
import Rebac.Dispatch.Program

set_option autoImplicit false

/-! # Clients -/

namespace Rebac

structure Client where
  storeId : Option Identifier
  modelId : Option Identifier
  headers : Headers
  retry : Retry.Policy
  timeout : Duration
  deriving DecidableEq

/-- The choices of one operation, all made and checked. -/
structure Prepared where
  storePath : String
  modelId : Option String
  policy : Retry.Policy
  headers : Headers
  timeout : Duration
  consistency : Option Consistency
  deriving DecidableEq

namespace Client

def forStore (c : Client) (id : Identifier) : Client := { c with storeId := some id }

def forModel (c : Client) (id : Identifier) : Client := { c with modelId := some id }

def chooseModel (c : Client) (named : Option String) : Except ValidationError (Option String) :=
  match named with
  | none => .ok (c.modelId.map Identifier.text)
  | some raw =>
    match Identifier.parse raw with
    | .ok id => .ok (some id.text)
    | .error _ => .error (.malformedIdentifier Identifier.Kind.model.settingName raw)

/-- Checks that there is a store, that the model is well named and that the retries are within
bounds, in this order. -/
def prepare (c : Client) (o : RequestOptions) : Except ValidationError Prepared :=
  match c.storeId with
  | none => .error (.missingField Identifier.Kind.store.settingName)
  | some store => do
    let modelId ← c.chooseModel o.modelId
    let policy := o.retry.getD c.retry
    policy.validate
    return {
      storePath := "/stores/" ++ store.text
      modelId, policy
      headers := Headers.merge c.headers o.headers
      timeout := o.timeout.getD c.timeout
      consistency := o.consistency }

end Client

namespace Prepared

def call (p : Prepared) (endpoint : String) (body : Json) : Call :=
  { path := p.storePath ++ "/" ++ endpoint, headers := p.headers, body, timeout := some p.timeout }

def single {τ : Type} (p : Prepared) (call : Call) (settle : Outcome → Except ClientError τ) :
    Dispatch.Round τ :=
  { policy := p.policy, limit := 1, requests := [{ call, settle, report := fun _ => [] }] }

end Prepared

end Rebac
