import Rebac.Call
import Rebac.Retry.Policy

set_option autoImplicit false

/-! # Options of operations -/

namespace Rebac

inductive Consistency where
  | unspecified
  | minimizeLatency
  | higherConsistency
  deriving DecidableEq, Repr

inductive OnConflict where
  | error
  | ignore
  deriving DecidableEq, Repr

namespace Consistency

def standard : Consistency := .unspecified

def variants : List (String × Consistency) :=
  [("UNSPECIFIED", .unspecified), ("MINIMIZE_LATENCY", .minimizeLatency),
   ("HIGHER_CONSISTENCY", .higherConsistency)]

def text : Consistency → String
  | .unspecified => "UNSPECIFIED"
  | .minimizeLatency => "MINIMIZE_LATENCY"
  | .higherConsistency => "HIGHER_CONSISTENCY"

def decode : Json → Json.Decoded Consistency := Json.asVariant variants

end Consistency

namespace OnConflict

def variants : List (String × OnConflict) := [("error", .error), ("ignore", .ignore)]

def text : OnConflict → String
  | .error => "error"
  | .ignore => "ignore"

def decode : Json → Json.Decoded OnConflict := Json.asVariant variants

end OnConflict

structure RequestOptions where
  modelId : Option String := none
  consistency : Option Consistency := none
  headers : Headers := []
  retry : Option Retry.Policy := none
  timeout : Option Duration := none
  deriving DecidableEq

structure BatchOptions where
  request : RequestOptions := {}
  maxParallel : Nat := 10
  maxBatchSize : Nat := 50
  deriving DecidableEq

structure TransactionPolicy where
  transactional : Bool := true
  maxPerChunk : Nat := 1
  maxParallel : Nat := 10
  deriving DecidableEq, Repr

def TransactionPolicy.chunked (maxPerChunk maxParallel : Nat) : TransactionPolicy :=
  ⟨false, maxPerChunk, maxParallel⟩

structure ConflictPolicy where
  onDuplicate : OnConflict := .error
  onMissing : OnConflict := .error
  deriving DecidableEq, Repr

def ConflictPolicy.ignoreAll : ConflictPolicy := ⟨.ignore, .ignore⟩

structure WriteOptions where
  request : RequestOptions := {}
  transaction : TransactionPolicy := {}
  conflict : ConflictPolicy := {}
  deriving DecidableEq

end Rebac
