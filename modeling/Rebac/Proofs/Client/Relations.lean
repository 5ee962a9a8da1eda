import Rebac.Proofs.Client.EachCheck
import Rebac.Proofs.Client.Screening

set_option autoImplicit false

/-! # A list of relations is a filter -/

namespace Rebac

open Dispatch Batch

variable {c : Client} {supply : IdSupply} {q : RelationsQuestion} {b : BatchOptions} {p : Prepared}
  {answer : Call → Outcome} {items : List Identified}

def RelationsQuestion.candidate (q : RelationsQuestion) (relation : String) : Question where
  user := q.user
  relation := relation
  object := q.object
  correlationId := none
  contextual := q.contextual
  context := q.context

theorem RelationsQuestion.about_eq (q : RelationsQuestion) : q.about = q.candidate := rfl

namespace Prepared

def candidates (p : Prepared) (q : RelationsQuestion) : List (Nat × Call) :=
  Pool.placed (q.relations.map fun relation => p.checkCall (q.candidate relation))

def allows (p : Prepared) (answer : Call → Outcome) (q : Question) : Bool :=
  match p.checked answer q with
  | .ok allowed => allowed
  | .error _ => false

def failure? (p : Prepared) (answer : Call → Outcome) (q : Question) : Option ClientError :=
  match p.checked answer q with
  | .ok _ => none
  | .error e => some e

/-- No check of a candidate is answered by rejecting the credentials. -/
def Accepts (p : Prepared) (answer : Call → Outcome) (q : RelationsQuestion) : Prop :=
  ∀ relation ∈ q.relations, ∀ err, ¬ p.RejectedWith answer (q.candidate relation) err

end Prepared

structure Filters (c : Client) (supply : IdSupply) (q : RelationsQuestion) (b : BatchOptions)
    (p : Prepared) (answer : Call → Outcome) : Prop where
  /-- The candidates are asked for in their order, each of them once, and nothing else is sent. -/
  asked : ∀ traces, (c.listRelations supply q b).Runs traces →
    traces.flatMap Trace.launches <+: p.candidates q ∧
    ∀ sent ∈ traces.flatMap Trace.sent, sent ∈ p.candidates q
  /-- What is asked for is the check of the candidate alone, with all that the list is about. -/
  carried : ∀ relation, c.Addressed b.request "check" (p.checkCall (q.candidate relation)) ∧
    Body.question? (p.checkCall (q.candidate relation)).body = some (q.candidate relation)
  single : ∀ relation, (c.check (q.candidate relation) b.request).Returns answer
    (· = p.checked answer (q.candidate relation))
  whole : p.Accepts answer q → ∀ traces result, (c.listRelations supply q b).Yields traces result →
    (∀ trace ∈ traces, trace.AnsweredBy answer) → ∃ trace, traces = [trace] ∧
      trace.launches = p.candidates q ∧
      ∀ candidate ∈ p.candidates q, trace.final? candidate.1 = some (answer candidate.2)
  filtered : (∀ relation ∈ q.relations, ∃ allowed,
      p.checked answer (q.candidate relation) = .ok allowed) →
    (c.listRelations supply q b).Returns answer
      (· = .ok (q.relations.filter fun relation => p.allows answer (q.candidate relation)))
  /-- The error is that of the first candidate whose check fails. -/
  failed : p.Accepts answer q →
    (∃ relation ∈ q.relations, ∃ e, p.checked answer (q.candidate relation) = .error e) →
    ∃ before first after e, q.relations = before ++ first :: after ∧
      (∀ relation ∈ before, ∃ allowed, p.checked answer (q.candidate relation) = .ok allowed) ∧
      p.checked answer (q.candidate first) = .error e ∧
      (c.listRelations supply q b).Returns answer (· = .error e)
  rejected : (∃ relation ∈ q.relations, ∃ err, p.RejectedWith answer (q.candidate relation) err) →
    (c.listRelations supply q b).Returns answer fun result =>
      ∃ relation ∈ q.relations, ∃ err, p.RejectedWith answer (q.candidate relation) err ∧
        result = .error (.ofCall err)

namespace Prepared

theorem allows_ok {question : Question} {allowed : Bool}
    (checked : p.checked answer question = .ok allowed) :
    p.allows answer question = allowed := by
  rw [allows, checked]

theorem failure?_eq_none {question : Question} : p.failure? answer question = none ↔
    ∃ allowed, p.checked answer question = .ok allowed := by
  rw [failure?]
  cases p.checked answer question <;> simp

theorem failure?_eq_some {question : Question} {e : ClientError} :
    p.failure? answer question = some e ↔ p.checked answer question = .error e := by
  rw [failure?]
  cases p.checked answer question <;> simp

end Prepared

namespace Client

/-! ## Verdicts on candidates -/

structure Tells (p : Prepared) (answer : Call → Outcome) (q : RelationsQuestion)
    (candidate : String) (v : Verdict) : Prop where
  relation : v.question.relation = candidate
  allowed : v.allowed = p.allows answer (q.candidate candidate)
  error : v.error = p.failure? answer (q.candidate candidate)

theorem tells_of {relation : String} {item : Identified} (names : Names (q.candidate relation) item) :
    Tells p answer q relation (.of item (p.checked answer item.question)) := by
  have same : p.checked answer item.question = p.checked answer (q.candidate relation) := by
    rw [names.question]
    rfl
  have about : item.question.relation = relation := by
    rw [names.question]
    rfl
  rw [same]
  cases checked : p.checked answer (q.candidate relation) with
  | ok allowed =>
    exact ⟨about, (p.allows_ok checked).symm, (p.failure?_eq_none.mpr ⟨allowed, checked⟩).symm⟩
  | error e =>
    refine ⟨about, ?_, (p.failure?_eq_some.mpr checked).symm⟩
    rw [Prepared.allows, checked]
    rfl

theorem tells_error {relations : List String} {verdicts : List Verdict}
    (tell : List.Forall₂ (Tells p answer q) relations verdicts) :
    verdicts.findSome? Verdict.error =
      relations.findSome? fun relation => p.failure? answer (q.candidate relation) := by
  induction tell with
  | nil => rfl
  | cons head _ ih => rw [List.findSome?_cons, List.findSome?_cons, head.error, ih]

theorem tells_relations {relations : List String} {verdicts : List Verdict}
    (tell : List.Forall₂ (Tells p answer q) relations verdicts) :
    (verdicts.filter Verdict.allowed).map (fun v => v.question.relation) =
      relations.filter fun relation => p.allows answer (q.candidate relation) := by
  induction tell with
  | nil => rfl
  | cons head _ ih =>
    rw [List.filter_cons, List.filter_cons, head.allowed]
    split
    · rw [List.map_cons, head.relation, ih]
    · exact ih

/-! ## The batch of a list -/

theorem about_named (fresh : supply.Fresh (q.relations.map q.candidate)) :
    identify supply (q.relations.map q.candidate) =
      .ok (itemsFrom supply 0 (q.relations.map q.candidate)) := by
  refine (identify_eq_ok_iff fresh).mpr ⟨?_, rfl⟩
  rw [← q.about_eq, declared_about]
  exact List.nodup_nil

theorem about_names (named : identify supply (q.relations.map q.candidate) = .ok items) :
    List.Forall₂ (fun relation item => Names (q.candidate relation) item) q.relations items :=
  List.forall₂_map_left_iff.mp (identify_ok named).1

theorem candidates_eq (named : identify supply (q.relations.map q.candidate) = .ok items) :
    (eachRound p b items).calls = p.candidates q := by
  have call : List.Forall₂ (fun relation item => p.checkCall item.question =
      p.checkCall (q.candidate relation)) q.relations items := by
    refine (about_names named).imp fun relation item names => ?_
    rw [names.question]
    rfl
  have calls : items.map (fun item => p.checkCall item.question) =
      q.relations.map fun relation => p.checkCall (q.candidate relation) :=
    map_of_forall₂ (List.forall₂_map_right_iff.mpr call)
  rw [Round.calls, eachRound, Pool.placed_map, List.map_map, Prepared.candidates, ← calls,
    Pool.placed_map]
  rfl

def collect (verdicts : List Verdict) : Except ClientError (List String) :=
  match verdicts.findSome? Verdict.error with
  | some e => .error e
  | none => .ok ((verdicts.filter Verdict.allowed).map fun v => v.question.relation)

theorem listRelations_collects (c : Client) (supply : IdSupply) (b : BatchOptions)
    (filled : q.relations ≠ []) : ∃ f : List Verdict → Except ClientError (List String) × List Event,
      c.listRelations supply q b = (c.checkEach supply (q.relations.map q.candidate) b).andThen f ∧
      ∀ verdicts, (f verdicts).1 = collect verdicts := by
  rw [listRelations, if_neg filled, q.about_eq]
  refine ⟨_, rfl, fun verdicts => ?_⟩
  rw [collect]
  cases verdicts.findSome? Verdict.error <;> rfl

theorem listRelations_returns {R : Except ClientError (List Verdict) → Prop}
    {S : Except ClientError (List String) → Prop} (filled : q.relations ≠ [])
    (batch : (c.checkEach supply (q.relations.map q.candidate) b).Returns answer R)
    (goes : ∀ first, R first → S (first.bind collect)) :
    (c.listRelations supply q b).Returns answer S := by
  obtain ⟨f, eq, collects⟩ := listRelations_collects c supply b filled
  rw [eq]
  refine batch.andThen fun first given => ?_
  rw [funext collects]
  exact goes first given

theorem collect_tells {verdicts : List Verdict}
    (tell : List.Forall₂ (Tells p answer q) q.relations verdicts) : collect verdicts =
      match q.relations.findSome? fun relation => p.failure? answer (q.candidate relation) with
      | some e => .error e
      | none => .ok (q.relations.filter fun relation => p.allows answer (q.candidate relation)) := by
  rw [collect, tells_error tell, tells_relations tell]

/-! ## Runs of a list -/

theorem listRelations_runs (filled : q.relations ≠ []) {traces : List Trace}
    (named : identify supply (q.relations.map q.candidate) = .ok items)
    (ready : c.prepare b.request = .ok p) (run : (c.listRelations supply q b).Runs traces) :
    traces = [] ∨ ∃ trace s, traces = [trace] ∧ (eachRound p b items).Runs s trace := by
  obtain ⟨f, eq, -⟩ := listRelations_collects c supply b filled
  have asked : items ≠ [] := fun none =>
    filled (List.map_eq_nil_iff.mp ((items_eq_nil_iff named).mp none))
  rw [eq, Program.runs_andThen, checkEach_round named asked ready] at run
  cases run with
  | idle => exact .inl rfl
  | within run => exact .inr ⟨_, _, rfl, run⟩
  | beyond ends later =>
    obtain ⟨s, run, -⟩ := ends
    cases later
    exact .inr ⟨_, s, rfl, run⟩

theorem listRelations_asked (filled : q.relations ≠ []) {traces : List Trace}
    (named : identify supply (q.relations.map q.candidate) = .ok items)
    (ready : c.prepare b.request = .ok p) (run : (c.listRelations supply q b).Runs traces) :
    traces.flatMap Trace.launches <+: p.candidates q ∧
      ∀ sent ∈ traces.flatMap Trace.sent, sent ∈ p.candidates q := by
  rcases listRelations_runs filled named ready run with rfl | ⟨trace, s, rfl, ran⟩
  · exact ⟨List.nil_prefix, by simp⟩
  · rw [List.flatMap_singleton, List.flatMap_singleton, ← candidates_eq (b := b) named]
    refine ⟨?_, fun sent => Round.sent_calls ran⟩
    rw [Round.launches_eq ran]
    exact List.take_prefix _ _

theorem accepts_items (named : identify supply (q.relations.map q.candidate) = .ok items)
    (accepts : p.Accepts answer q) :
    ∀ item ∈ items, ∀ err, ¬ p.RejectedWith answer item.question err := by
  intro item mem err rejected
  obtain ⟨relation, there, names⟩ := forall₂_mem_right (about_names named) mem
  exact accepts relation there err ((rejectedWith_names names err).mp rejected)

theorem listRelations_whole (filled : q.relations ≠ []) {traces : List Trace}
    {result : Except ClientError (List String)}
    (named : identify supply (q.relations.map q.candidate) = .ok items)
    (ready : c.prepare b.request = .ok p) (accepts : p.Accepts answer q)
    (run : (c.listRelations supply q b).Yields traces result)
    (honest : ∀ trace ∈ traces, trace.AnsweredBy answer) : ∃ trace, traces = [trace] ∧
      trace.launches = p.candidates q ∧
      ∀ candidate ∈ p.candidates q, trace.final? candidate.1 = some (answer candidate.2) := by
  obtain ⟨f, eq, -⟩ := listRelations_collects c supply b filled
  have asked : items ≠ [] := fun none =>
    filled (List.map_eq_nil_iff.mp ((items_eq_nil_iff named).mp none))
  rw [eq, Program.yields_andThen] at run
  obtain ⟨first, run, -⟩ := run
  rw [checkEach_round named asked ready] at run
  obtain ⟨trace, ending, ends, rfl, -⟩ := Program.yields_single.mp run
  have honest := honest trace (List.mem_singleton_self trace)
  cases ending with
  | error e =>
    obtain ⟨i, item, err, there, rejected, -⟩ := eachRound_error ends honest
    exact absurd rejected (accepts_items named accepts item (List.mem_of_getElem? there) err)
  | ok verdicts =>
    rw [← candidates_eq (b := b) named]
    exact ⟨trace, rfl, (Round.ends_ok ends).1, Round.ends_ok_answered ends honest⟩

theorem listRelations_returned (filled : q.relations ≠ [])
    (named : identify supply (q.relations.map q.candidate) = .ok items)
    (ready : c.prepare b.request = .ok p) (accepts : p.Accepts answer q) :
    (c.listRelations supply q b).Returns answer (· =
      match q.relations.findSome? fun relation => p.failure? answer (q.candidate relation) with
      | some e => .error e
      | none => .ok (q.relations.filter fun relation => p.allows answer (q.candidate relation))) := by
  have accepted : ∀ question ∈ q.relations.map q.candidate, ∀ err,
      ¬ p.RejectedWith answer question err := List.forall_mem_map.mpr accepts
  refine listRelations_returns filled (checkEach_returned named ready accepted) ?_
  rintro _ rfl
  refine collect_tells (List.forall₂_map_right_iff.mpr ?_)
  exact (about_names named).imp fun relation item => tells_of

theorem listRelations_rejected (filled : q.relations ≠ [])
    (named : identify supply (q.relations.map q.candidate) = .ok items)
    (ready : c.prepare b.request = .ok p) {relation : String} (mem : relation ∈ q.relations)
    {err : CallError} (rejected : p.RejectedWith answer (q.candidate relation) err) :
    (c.listRelations supply q b).Returns answer fun result =>
      ∃ relation ∈ q.relations, ∃ err, p.RejectedWith answer (q.candidate relation) err ∧
        result = .error (.ofCall err) := by
  refine listRelations_returns filled
    (checkEach_rejected named ready (List.mem_map_of_mem mem) rejected) ?_
  rintro _ ⟨i, question, err, asked, rejected, rfl, -⟩
  obtain ⟨relation, there, rfl⟩ := List.mem_map.mp (List.mem_of_getElem? asked)
  exact ⟨relation, there, err, rejected, rfl⟩

theorem checked_accepts (fine : ∀ relation ∈ q.relations, ∃ allowed,
    p.checked answer (q.candidate relation) = .ok allowed) : p.Accepts answer q := by
  intro relation mem err rejected
  obtain ⟨allowed, checked⟩ := fine relation mem
  cases (rejected_checked rejected).symm.trans checked

/-- Under a transport that answers by the call, a list of relations keeps the candidates whose
checks are allowed, or fails as the first check does that fails. Only if credentials are rejected
it may fail otherwise, and then it fails as one of the checks that are rejected. -/
theorem relations_filtered (filled : q.relations ≠ [])
    (fresh : supply.Fresh (q.relations.map q.candidate)) (ready : c.prepare b.request = .ok p)
    (answer : Call → Outcome) : Filters c supply q b p answer where
  asked _ := listRelations_asked filled (about_named fresh) ready
  carried relation :=
    ⟨addressed_call ready (Body.model?_check _ _ _), Body.question?_check _ _ _⟩
  single relation := check_returns ready answer (q.candidate relation)
  whole accepts _ _ := listRelations_whole filled (about_named fresh) ready accepts
  filtered fine := by
    have none : q.relations.findSome? (fun relation => p.failure? answer (q.candidate relation)) =
        none := List.findSome?_eq_none_iff.mpr fun relation mem =>
      p.failure?_eq_none.mpr (fine relation mem)
    have returns := listRelations_returned filled (about_named fresh) ready (checked_accepts fine)
    rwa [none] at returns
  failed accepts fails := by
    obtain ⟨relation, mem, e, checked⟩ := fails
    have returns := listRelations_returned filled (about_named fresh) ready accepts
    cases found : q.relations.findSome? fun relation => p.failure? answer (q.candidate relation) with
    | none =>
      have fine := List.findSome?_eq_none_iff.mp found relation mem
      cases fine.symm.trans (p.failure?_eq_some.mpr checked)
    | some first =>
      rw [found] at returns
      obtain ⟨before, relation, after, split, fails, fine⟩ := List.findSome?_eq_some_iff.mp found
      exact ⟨before, relation, after, first, split,
        fun relation mem => p.failure?_eq_none.mp (fine relation mem),
        p.failure?_eq_some.mp fails, returns⟩
  rejected fails := by
    obtain ⟨relation, mem, err, rejected⟩ := fails
    exact listRelations_rejected filled (about_named fresh) ready mem rejected

def anneRoles : RelationsQuestion := { anneAtNine with relations := ["viewer", "editor", "viewer"] }

def yesTo (relation : String) : Call → Outcome := fun call =>
  .ok ⟨200, .object [("allowed", .bool ((Body.question? call.body).any fun q =>
    q.relation = relation))]⟩

theorem yesTo_checked (relation : String) (p : Prepared) (question : Question) :
    p.checked (yesTo relation) question = .ok (question.relation = relation) := by
  have asked : Body.question? (p.checkCall question).body =
      some { question with correlationId := none } := Body.question?_check _ _ _
  rw [Prepared.checked, yesTo, asked]
  rfl

/-- A candidate that comes twice and is allowed is kept twice, and every check is about anne at nine.
A transport that runs out of time for every call fails the list as it fails the first check. -/
theorem repeated_candidate_kept : ∃ p, (ofStore (.ofNat 1)).prepare {} = .ok p ∧
    ((ofStore (.ofNat 1)).listRelations (fun i => toString i) anneRoles
      { maxParallel := 2 }).Returns (yesTo "viewer") (· = .ok ["viewer", "viewer"]) ∧
    (∀ traces, ((ofStore (.ofNat 1)).listRelations (fun i => toString i) anneRoles
        { maxParallel := 2 }).Runs traces → ∀ sent ∈ traces.flatMap Trace.sent,
      ∃ relation ∈ ["viewer", "editor", "viewer"], Body.question? sent.2.body =
        some ⟨"user:anne", relation, "doc:1", none, [⟨"user:anne", "member", "group:1", none⟩],
          some [("hour", .int 9)]⟩) ∧
    ((ofStore (.ofNat 1)).listRelations (fun i => toString i) anneRoles {}).Returns
      (fun _ => .error (.timeout "check")) fun result => ∃ e, result = .error e := by
  obtain ⟨p, ready⟩ := ofStore_ready (.ofNat 1)
  have fresh : IdSupply.Fresh (fun i => toString i) (anneRoles.relations.map anneRoles.candidate) := by
    constructor <;> decide
  have filled : anneRoles.relations ≠ [] := by decide
  refine ⟨p, ready, ?_, fun traces run sent mem => ?_, ?_⟩
  · have filters := relations_filtered (b := { maxParallel := 2 }) filled fresh ready
      (yesTo "viewer")
    have returns := filters.filtered fun relation _ => ⟨_, yesTo_checked _ _ _⟩
    simpa [Prepared.allows, yesTo_checked, anneRoles, RelationsQuestion.candidate] using returns
  · have filters := relations_filtered (b := { maxParallel := 2 }) filled fresh ready
      (yesTo "viewer")
    obtain ⟨relation, candidate, called⟩ :=
      List.mem_map.mp (List.mem_of_getElem? (Pool.mem_placed.mp ((filters.asked _ run).2 _ mem)))
    exact ⟨relation, candidate, called ▸ (filters.carried relation).2⟩
  · have filters := relations_filtered (b := {}) filled fresh ready
      fun _ => .error (.timeout "check")
    have accepts : p.Accepts (fun _ => .error (.timeout "check")) anneRoles := by
      rintro relation - err ⟨answered, rejected⟩
      cases answered
      simp [CallError.Rejected, CallError.status?] at rejected
    obtain ⟨-, -, -, e, -, -, -, returns⟩ :=
      filters.failed accepts ⟨"viewer", by decide, _, rfl⟩
    exact returns.mono fun result failed => ⟨e, failed⟩

end Client

end Rebac
