set_option autoImplicit false

/-! # Rejected input -/

namespace Rebac

inductive ValidationError where
  | duplicateCorrelationId (id : String)
  | invalidChunkSize (size : Nat)
  | malformedIdentifier (kind value : String)
  | missingField (field : String)
  | outOfRange (field : String) (value max : Nat)
  deriving DecidableEq, Repr

def ValidationError.message : ValidationError → String
  | .duplicateCorrelationId id => "duplicate correlation id '" ++ id ++ "' in batch"
  | .invalidChunkSize size => "chunk size must be at least 1, got " ++ toString size
  | .malformedIdentifier kind value => "malformed " ++ kind ++ ": '" ++ value ++ "'"
  | .missingField field => "'" ++ field ++ "' is required"
  | .outOfRange field value max =>
    "'" ++ field ++ "' is " ++ toString value ++ ", must be at most " ++ toString max

end Rebac
