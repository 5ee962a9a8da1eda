import Rebac.Json.Basic

set_option autoImplicit false

/-! # Events -/

namespace Rebac

inductive Level where
  | warn
  | debug
  deriving DecidableEq, Repr

inductive Event where
  | retrying (attempt maxRetries status delayMillis : Nat)
  | retriesExhausted (attempts : Nat) (error : String)
  | checked (allowed : Bool)
  | objectsListed (count : Nat)
  | batchChecked (allowed failed : Nat)
  | groupsChecked (allowed failed : Nat)
  | writeCommitted
  | chunksWritten (failed : Nat)
  | relationsResolved (relations : List String)
  | checkFailed (id error : String)
  | groupFailed (items : Nat) (error : String)
  | itemOmitted (id : String)
  | chunkFailed (side : String) (tuples : Nat) (error : String)
  deriving DecidableEq, Repr

namespace Event

def level : Event → Level
  | .retrying .. => .warn
  | .checkFailed .. => .warn
  | .groupFailed .. => .warn
  | .itemOmitted .. => .warn
  | .chunkFailed .. => .warn
  | _ => .debug

def message : Event → String
  | .retrying .. => "retrying request"
  | .retriesExhausted .. => "retries exhausted"
  | .checked _ => "check result"
  | .objectsListed _ => "list objects result"
  | .batchChecked .. => "batch check complete"
  | .groupsChecked .. => "grouped batch check complete"
  | .writeCommitted => "transactional write committed"
  | .chunksWritten _ => "chunked write complete"
  | .relationsResolved _ => "relations resolved"
  | .checkFailed .. => "check failed"
  | .groupFailed .. => "batch check group failed"
  | .itemOmitted _ => "batch check response omitted item"
  | .chunkFailed .. => "write chunk failed"

def fields : Event → Members
  | .retrying attempt maxRetries status delayMillis =>
    Members.ofList [("attempt", .int attempt), ("max_retries", .int maxRetries),
      ("status", .int status), ("delay_ms", .int delayMillis)]
  | .retriesExhausted attempts error =>
    Members.ofList [("attempts", .int attempts), ("error", .string error)]
  | .checked allowed => [("allowed", .bool allowed)]
  | .objectsListed count => [("count", .int count)]
  | .batchChecked allowed failed => [("allowed", .int allowed), ("failed", .int failed)]
  | .groupsChecked allowed failed => [("allowed", .int allowed), ("failed", .int failed)]
  | .writeCommitted => []
  | .chunksWritten failed => [("failed", .int failed)]
  | .relationsResolved relations => [("relations", .string (Text.quoteList relations))]
  | .checkFailed id error => [("correlation_id", .string id), ("error", .string error)]
  | .groupFailed items error => [("error", .string error), ("items", .int items)]
  | .itemOmitted id => [("correlation_id", .string id)]
  | .chunkFailed side tuples error =>
    [("error", .string error), ("side", .string side), ("tuples", .int tuples)]

end Event

end Rebac
