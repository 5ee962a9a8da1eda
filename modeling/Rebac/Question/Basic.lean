import Rebac.ClientError
import Rebac.Tuple

set_option autoImplicit false

/-! # Questions and reports -/

namespace Rebac

/-- Whether a user has a relation to an object, perhaps in the light of further tuples and values. -/
structure Question where
  user : String
  relation : String
  object : String
  correlationId : Option String := none
  contextual : List RelationTuple := []
  context : Option Members := none
  deriving DecidableEq

structure Identified where
  id : String
  question : Question
  deriving DecidableEq

structure ObjectsQuestion where
  user : String
  relation : String
  objectType : String
  contextual : List RelationTuple := []
  context : Option Members := none
  deriving DecidableEq

structure RelationsQuestion where
  user : String
  object : String
  relations : List String
  contextual : List RelationTuple := []
  context : Option Members := none
  deriving DecidableEq

def RelationsQuestion.about (q : RelationsQuestion) (relation : String) : Question :=
  { user := q.user, relation, object := q.object, contextual := q.contextual
    context := q.context }

structure Verdict where
  id : String
  allowed : Bool
  question : Question
  error : Option ClientError
  deriving DecidableEq

namespace Verdict

def answered (item : Identified) (allowed : Bool) : Verdict :=
  ⟨item.id, allowed, item.question, none⟩

def failed (item : Identified) (error : ClientError) : Verdict :=
  ⟨item.id, false, item.question, some error⟩

def isOk (v : Verdict) : Bool := v.error.isNone

end Verdict

structure TupleOutcome where
  tuple : RelationTuple
  succeeded : Bool
  error : Option ClientError
  deriving DecidableEq

namespace TupleOutcome

def success (t : RelationTuple) : TupleOutcome := ⟨t, true, none⟩

def failure (error : ClientError) (t : RelationTuple) : TupleOutcome := ⟨t, false, some error⟩

end TupleOutcome

structure WriteRequest where
  writes : List RelationTuple
  deletes : List RelationTuple
  deriving DecidableEq

def WriteRequest.isEmpty (r : WriteRequest) : Bool := r.writes.isEmpty && r.deletes.isEmpty

/-- What became of the tuples of each side; a side without tuples has no report. -/
structure WriteReport where
  writes : Option (List TupleOutcome)
  deletes : Option (List TupleOutcome)
  deriving DecidableEq

def WriteReport.failures (r : WriteReport) : List TupleOutcome :=
  (r.writes.getD [] ++ r.deletes.getD []).filter fun o => !o.succeeded

end Rebac
