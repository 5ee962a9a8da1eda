import Rebac.Batch.Chunk
import Rebac.Client.Check

set_option autoImplicit false

/-!
# Writes

A transactional write is one request that succeeds or fails as a whole. A chunked write sends the
tuples to write and then the tuples to delete in chunks, and a chunk that fails fails its own
tuples only.
-/
namespace Rebac

inductive WriteSide where
  | writes
  | deletes
  deriving DecidableEq, Repr

namespace WriteSide

def text : WriteSide → String
  | .writes => "writes"
  | .deletes => "deletes"

def only (side : WriteSide) (tuples : List RelationTuple) : WriteRequest :=
  match side with
  | .writes => ⟨tuples, []⟩
  | .deletes => ⟨[], tuples⟩

def settleChunk (tuples : List RelationTuple) (outcome : Outcome) :
    Except ClientError (List TupleOutcome) :=
  match outcome with
  | .ok _ => .ok (tuples.map .success)
  | .error e =>
    let e := ClientError.ofCall e
    if e.fatal then .error e else .ok (tuples.map (.failure e))

def reportChunk (side : WriteSide) (tuples : List RelationTuple) (outcome : Outcome) :
    List Event :=
  match outcome with
  | .ok _ => []
  | .error e =>
    let e := ClientError.ofCall e
    if e.fatal then [] else [.chunkFailed side.text tuples.length e.message]

end WriteSide

namespace Client

open Dispatch

def writeCall (p : Prepared) (request : WriteRequest) (conflict : ConflictPolicy) : Call :=
  p.call "write" (Body.write request conflict p.modelId)

def chunkRequest (p : Prepared) (conflict : ConflictPolicy) (side : WriteSide)
    (tuples : List RelationTuple) : Request (List TupleOutcome) :=
  { call := writeCall p (side.only tuples) conflict
    settle := WriteSide.settleChunk tuples
    report := side.reportChunk tuples }

def writeChunks {α : Type} (p : Prepared) (o : WriteOptions) (side : WriteSide)
    (tuples : List RelationTuple)
    (next : Option (List TupleOutcome) → Program (List TupleOutcome) α) :
    Program (List TupleOutcome) α :=
  if tuples = [] then next none
  else match Batch.chunk tuples o.transaction.maxPerChunk with
    | .error e => .refuse (.validation e)
    | .ok chunks =>
      .round
        { policy := p.policy
          limit := o.transaction.maxParallel
          requests := chunks.map (chunkRequest p o.conflict side) }
        fun outcomes => next (some outcomes.flatten)

def allSucceeded (tuples : List RelationTuple) : Option (List TupleOutcome) :=
  if tuples = [] then none else some (tuples.map .success)

def writeAtOnce (p : Prepared) (request : WriteRequest) (o : WriteOptions) :
    Program (List TupleOutcome) WriteReport :=
  .round
    (p.single (writeCall p request o.conflict) fun outcome =>
      match outcome with
      | .ok _ => .ok []
      | .error e => .error (.ofCall e))
    fun _ => .done (.ok ⟨allSucceeded request.writes, allSucceeded request.deletes⟩)
      [.writeCommitted]

def write (c : Client) (request : WriteRequest) (o : WriteOptions) :
    Program (List TupleOutcome) WriteReport :=
  if request.isEmpty then .refuse (.validation (.missingField "writes or deletes"))
  else match c.prepare o.request with
    | .error e => .refuse (.validation e)
    | .ok p =>
      if o.transaction.transactional then writeAtOnce p request o
      else
        writeChunks p o .writes request.writes fun writes =>
          writeChunks p o .deletes request.deletes fun deletes =>
            let report : WriteReport := ⟨writes, deletes⟩
            .done (.ok report) [.chunksWritten report.failures.length]

def writeTuples (c : Client) (tuples : List RelationTuple) (o : WriteOptions) :
    Program (List TupleOutcome) WriteReport :=
  c.write ⟨tuples, []⟩ o

def deleteTuples (c : Client) (tuples : List RelationTuple) (o : WriteOptions) :
    Program (List TupleOutcome) WriteReport :=
  c.write ⟨[], tuples⟩ o

end Client

end Rebac
