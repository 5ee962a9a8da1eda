import Rebac.Validation

set_option autoImplicit false

/-! # Groups of a batch -/

namespace Rebac.Batch

def groups {α : Type} (size : Nat) : List α → List (List α)
  | [] => []
  | x :: xs => (x :: xs.take (size - 1)) :: groups size (xs.drop (size - 1))
termination_by items => items.length
decreasing_by
  simp only [List.length_drop, List.length_cons]
  omega

/-- Cuts a list into groups; a size of zero is rejected, for an empty list too. -/
def chunk {α : Type} (items : List α) (size : Nat) : Except ValidationError (List (List α)) :=
  if size = 0 then .error (.invalidChunkSize size) else .ok (groups size items)

end Rebac.Batch
