import Rebac.Batch.Chunk
import Rebac.Batch.Correlation
import Rebac.Client.Check

set_option autoImplicit false

/-!
# Batches of questions

A batch is checked by one request for each question, or by one request for each group of
questions. Either way every question gets one verdict, and only rejected credentials, or an answer
about a question that was not asked, fail the batch as a whole.
-/
namespace Rebac

namespace Batch

def identifyFrom (t : Tracker) (supply : IdSupply) (used : Nat) :
    List Question → Except ValidationError (List Identified)
  | [] => .ok []
  | q :: rest =>
    match t.ensure q.correlationId (supply used) with
    | (.error e, _) => .error e
    | (.ok id, t) => do
      let used := if q.correlationId.isSome then used else used + 1
      let others ← identifyFrom t supply used rest
      return ⟨id, { q with correlationId := some id }⟩ :: others

def identify (supply : IdSupply) (questions : List Question) :
    Except ValidationError (List Identified) :=
  identifyFrom .empty supply 0 questions

def generatedCount (questions : List Question) : Nat :=
  (questions.filter fun q => q.correlationId.isNone).length

def settleOne (item : Identified) (outcome : Outcome) : Except ClientError Verdict :=
  match Answer.ofOutcome Answer.check outcome with
  | .ok allowed => .ok (.answered item allowed)
  | .error e => if e.fatal then .error e else .ok (.failed item e)

def reportOne (item : Identified) (outcome : Outcome) : List Event :=
  match Answer.ofOutcome Answer.check outcome with
  | .ok _ => []
  | .error e => if e.fatal then [] else [.checkFailed item.id e.message]

def unknownId (id : String) : ClientError :=
  .protocol ("batch check response names unknown correlation id '" ++ id ++ "'")

def noResult (id : String) : ClientError :=
  .protocol ("batch check response has no result for correlation id '" ++ id ++ "'")

def take? (id : String) : List Identified → Option (Identified × List Identified)
  | [] => none
  | item :: rest =>
    if item.id = id then some (item, rest)
    else (take? id rest).map fun found => (found.1, item :: found.2)

/-- The verdicts that the entries of an answer give to a group, and the questions left over. -/
def assign (pending : List Identified) :
    List (String × Answer.Entry) → Except ClientError (List Verdict × List Identified)
  | [] => .ok ([], pending)
  | (id, entry) :: rest =>
    match take? id pending with
    | none => .error (unknownId id)
    | some (item, pending) => do
      let (verdicts, left) ← assign pending rest
      return (entry.verdict item :: verdicts, left)

/-- The orders in which the entries of an answer and the questions left over are visited. A map
has no order of its own, so any will do. -/
structure Visit where
  entries : List (String × Answer.Entry) → List (String × Answer.Entry)
  leftovers : List Identified → List Identified
  entries_perm (l : List (String × Answer.Entry)) : (entries l).Perm l
  leftovers_perm (l : List Identified) : (leftovers l).Perm l

def Visit.inOrder : Visit := ⟨id, id, fun _ => .refl _, fun _ => .refl _⟩

def settleGroup (visit : Visit) (group : List Identified) (outcome : Outcome) :
    Except ClientError (List Verdict) :=
  match Answer.ofOutcome Answer.batch outcome with
  | .error e => if e.fatal then .error e else .ok (group.map fun item => .failed item e)
  | .ok entries => do
    let (verdicts, left) ← assign group (visit.entries entries)
    return verdicts ++ (visit.leftovers left).map fun item => .failed item (noResult item.id)

def reportGroup (visit : Visit) (group : List Identified) (outcome : Outcome) : List Event :=
  match Answer.ofOutcome Answer.batch outcome with
  | .error e => if e.fatal then [] else [.groupFailed group.length e.message]
  | .ok entries =>
    match assign group (visit.entries entries) with
    | .error _ => []
    | .ok (_, left) => (visit.leftovers left).map fun item => .itemOmitted item.id

def allowedCount (verdicts : List Verdict) : Nat := (verdicts.filter Verdict.allowed).length

def failedCount (verdicts : List Verdict) : Nat := (verdicts.filter fun v => !v.isOk).length

end Batch

def Prepared.groupCall (p : Prepared) (group : List Identified) : Call :=
  p.call "batch-check" (Body.batchCheck group p.modelId p.consistency)

namespace Client

open Dispatch

def questionRequest (p : Prepared) (item : Identified) : Request Verdict :=
  { call := p.checkCall item.question
    settle := Batch.settleOne item
    report := Batch.reportOne item }

def groupRequest (p : Prepared) (visit : Batch.Visit) (group : List Identified) :
    Request (List Verdict) :=
  { call := p.groupCall group
    settle := Batch.settleGroup visit group
    report := Batch.reportGroup visit group }

def checkEach (c : Client) (supply : Batch.IdSupply) (questions : List Question)
    (o : BatchOptions) : Program Verdict (List Verdict) :=
  match Batch.identify supply questions with
  | .error e => .refuse (.validation e)
  | .ok [] => .done (.ok []) []
  | .ok items =>
    match c.prepare o.request with
    | .error e => .refuse (.validation e)
    | .ok p =>
      .round
        { policy := p.policy, limit := o.maxParallel, requests := items.map (questionRequest p) }
        fun verdicts => .done (.ok verdicts)
          [.batchChecked (Batch.allowedCount verdicts) (Batch.failedCount verdicts)]

/-- Checks the questions in groups; the order of the verdicts within a group is as the answer to
that group is visited. -/
def checkGroups (c : Client) (supply : Batch.IdSupply) (questions : List Question)
    (o : BatchOptions) (visits : List Identified → Batch.Visit := fun _ => .inOrder) :
    Program (List Verdict) (List Verdict) :=
  match Batch.identify supply questions with
  | .error e => .refuse (.validation e)
  | .ok items =>
    match Batch.chunk items o.maxBatchSize with
    | .error e => .refuse (.validation e)
    | .ok [] => .done (.ok []) []
    | .ok groups =>
      match c.prepare o.request with
      | .error e => .refuse (.validation e)
      | .ok p =>
        .round
          { policy := p.policy
            limit := o.maxParallel
            requests := groups.map fun group => groupRequest p (visits group) group }
          fun answers =>
            let verdicts := answers.flatten
            .done (.ok verdicts)
              [.groupsChecked (Batch.allowedCount verdicts) (Batch.failedCount verdicts)]

/-- The relations of a list that a user has to an object, in the order of the list. The first
check that failed, in that order, fails the whole. -/
def listRelations (c : Client) (supply : Batch.IdSupply) (q : RelationsQuestion)
    (o : BatchOptions) : Program Verdict (List String) :=
  if q.relations = [] then .refuse (.validation (.missingField "relations"))
  else
    (c.checkEach supply (q.relations.map q.about) o).andThen fun verdicts =>
      match verdicts.findSome? Verdict.error with
      | some e => (.error e, [])
      | none =>
        let relations := (verdicts.filter Verdict.allowed).map fun v => v.question.relation
        (.ok relations, [.relationsResolved relations])

end Client

end Rebac
