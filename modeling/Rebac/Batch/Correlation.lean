import Rebac.Validation

set_option autoImplicit false

/-! # Correlation ids -/

namespace Rebac.Batch

structure Tracker where
  seen : List String
  deriving DecidableEq

namespace Tracker

def empty : Tracker := ⟨[]⟩

def ensure (t : Tracker) (declared : Option String) (generated : String) :
    Except ValidationError String × Tracker :=
  let id := declared.getD generated
  if id ∈ t.seen then (.error (.duplicateCorrelationId id), t)
  else (.ok id, ⟨id :: t.seen⟩)

end Tracker

/-- A supply of ids to generate from: the one at a place, whatever was used before it. -/
abbrev IdSupply := Nat → String

def IdSupply.skip (supply : IdSupply) (n : Nat) : IdSupply := fun i => supply (n + i)

end Rebac.Batch
