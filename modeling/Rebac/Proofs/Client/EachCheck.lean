import Rebac.Proofs.Client.FailClosed
import Rebac.Proofs.Dispatch.Progress

set_option autoImplicit false

/-! # A batch is a loop of single checks -/

namespace Rebac

open Dispatch Batch

variable {o : RequestOptions} {b : BatchOptions} {p : Prepared} {answer : Call → Outcome}
  {trace : Trace}

def Prepared.RejectedWith (p : Prepared) (answer : Call → Outcome) (q : Question)
    (err : CallError) : Prop :=
  answer (p.checkCall q) = .error err ∧ err.Rejected

def Prepared.checked (p : Prepared) (answer : Call → Outcome) (q : Question) :
    Except ClientError Bool :=
  Answer.ofOutcome Answer.check (answer (p.checkCall q))

def Verdict.of (item : Identified) : Except ClientError Bool → Verdict
  | .ok allowed => .answered item allowed
  | .error e => .failed item e

theorem Verdict.of_item (item : Identified) (result : Except ClientError Bool) :
    (Verdict.of item result).id = item.id ∧ (Verdict.of item result).question = item.question := by
  cases result <;> exact ⟨rfl, rfl⟩

namespace Batch

theorem settleOne_error_iff {item : Identified} {outcome : Outcome} {e : ClientError} :
    settleOne item outcome = .error e ↔
      ∃ err, outcome = .error err ∧ err.Rejected ∧ e = .ofCall err := by
  unfold settleOne
  constructor
  · intro failed
    cases read : Answer.ofOutcome Answer.check outcome with
    | ok allowed => simp [read] at failed
    | error f =>
      by_cases fatal : f.fatal = true
      · simp only [read, fatal, ↓reduceIte, Except.error.injEq] at failed
        subst failed
        rcases Answer.ofOutcome_error.mp read with ⟨err, rfl, rfl⟩ | ⟨_, reason, -, -, rfl⟩
        · exact ⟨err, rfl, (ClientError.fatal_ofCall err).mp fatal, rfl⟩
        · cases fatal
      · simp [read, fatal] at failed
  · rintro ⟨err, rfl, rejected, rfl⟩
    simp [Answer.ofOutcome, (ClientError.fatal_ofCall err).mpr rejected]

theorem settleOne_ok {item : Identified} {outcome : Outcome} {v : Verdict}
    (settled : settleOne item outcome = .ok v) :
    v = .of item (Answer.ofOutcome Answer.check outcome) := by
  unfold settleOne at settled
  cases read : Answer.ofOutcome Answer.check outcome with
  | ok allowed =>
    rw [read] at settled
    exact (Except.ok.inj settled).symm
  | error e =>
    rw [read] at settled
    by_cases fatal : e.fatal = true
    · simp [fatal] at settled
    · simp only [fatal, Bool.false_eq_true, ↓reduceIte, Except.ok.injEq] at settled
      exact settled.symm

end Batch

namespace Client

variable {c : Client} {supply : IdSupply} {questions : List Question} {items : List Identified}

/-! ## Single checks -/

theorem single_known {τ : Type} {call : Call} {settle : Outcome → Except ClientError τ}
    {ending : Except ClientError (List τ)} (ends : (p.single call settle).Ends trace ending)
    (honest : trace.AnsweredBy answer) : ending = (settle (answer call)).map fun x => [x] := by
  cases ending with
  | ok results =>
    have known := Round.ends_ok_known ends honest
    obtain ⟨x, _, settled, rest, rfl⟩ := List.forall₂_cons_left_iff.mp known
    cases List.forall₂_nil_left_iff.mp rest
    have settled : settle (answer call) = .ok x := settled
    rw [settled]
    rfl
  | error e =>
    obtain ⟨i, q, here, settled, -⟩ := Round.ends_error_known ends honest
    cases List.mem_singleton.mp (List.mem_of_getElem? here)
    have settled : settle (answer call) = .error e := settled
    rw [settled]
    rfl

theorem check_returns (ready : c.prepare o = .ok p) (answer : Call → Outcome) (q : Question) :
    (c.check q o).Returns answer (· = p.checked answer q) := by
  simp only [check, ready]
  refine Program.returns_single fun trace ending ends honest => ?_
  rw [single_known ends honest, Prepared.checked]
  cases Answer.ofOutcome Answer.check (answer (p.checkCall q)) with
  | error e => rfl
  | ok allowed => simp [Except.map]

/-! ## Batches -/

/-- A verdict tells what a check of its question alone comes to. -/
structure Agrees (c : Client) (o : RequestOptions) (answer : Call → Outcome) (q : Question)
    (v : Verdict) : Prop where
  question : v.question = { q with correlationId := some v.id }
  declared : ∀ id, q.correlationId = some id → v.id = id ∧ v.question = q
  single : ∃ result, (c.check q o).Returns answer (· = result) ∧
    (∀ allowed, result = .ok allowed → v.allowed = allowed ∧ v.error = none) ∧
    ∀ e, result = .error e → v.allowed = false ∧ v.error = some e

theorem agrees_of (ready : c.prepare o = .ok p) {q : Question} {item : Identified}
    (names : Names q item) :
    Agrees c o answer q (.of item (p.checked answer item.question)) := by
  have same : p.checked answer item.question = p.checked answer q := by
    rw [names.question]
    rfl
  have single := check_returns ready answer q
  rw [← same] at single
  clear same
  have whole (id : String) (given : q.correlationId = some id) : item.question = q := by
    rw [names.question, names.declared id given, ← given]
  generalize p.checked answer item.question = result at single ⊢
  cases result with
  | ok allowed =>
    refine ⟨names.question, fun id given => ⟨names.declared id given, whole id given⟩,
      _, single, ?_, ?_⟩
    · rintro _ ⟨⟩
      exact ⟨rfl, rfl⟩
    · rintro e ⟨⟩
  | error e =>
    refine ⟨names.question, fun id given => ⟨names.declared id given, whole id given⟩,
      _, single, ?_, ?_⟩
    · rintro allowed ⟨⟩
    · rintro _ ⟨⟩
      exact ⟨rfl, rfl⟩

theorem rejected_settles {item : Identified} {err : CallError}
    (rejected : p.RejectedWith answer item.question err) :
    settleOne item (answer (p.checkCall item.question)) = .error (.ofCall err) :=
  settleOne_error_iff.mpr ⟨err, rejected.1, rejected.2, rfl⟩

theorem eachRound_ok {verdicts : List Verdict}
    (ends : (eachRound p b items).Ends trace (.ok verdicts)) (honest : trace.AnsweredBy answer) :
    verdicts = items.map (fun item => .of item (p.checked answer item.question)) ∧
      ∀ item ∈ items, ∀ err, ¬ p.RejectedWith answer item.question err := by
  have known := Round.ends_ok_known ends honest
  rw [eachRound, List.forall₂_map_left_iff] at known
  constructor
  · exact map_of_forall₂ (known.imp fun item v settled => settleOne_ok settled)
  · intro item mem err rejected
    obtain ⟨v, -, settled⟩ := forall₂_mem_left known mem
    cases (rejected_settles rejected).symm.trans settled

theorem eachRound_error {e : ClientError} (ends : (eachRound p b items).Ends trace (.error e))
    (honest : trace.AnsweredBy answer) : ∃ (i : Nat) (item : Identified) (err : CallError),
      items[i]? = some item ∧ p.RejectedWith answer item.question err ∧ e = .ofCall err ∧
      (b.maxParallel ≤ 1 → ∀ j < i, ∀ item', items[j]? = some item' →
        ∀ err, ¬ p.RejectedWith answer item'.question err) := by
  obtain ⟨i, q, here, settled, before⟩ := Round.ends_error_known ends honest
  rw [eachRound, List.getElem?_map, Option.map_eq_some_iff] at here
  obtain ⟨item, there, rfl⟩ := here
  obtain ⟨err, answered, rejected, rfl⟩ := settleOne_error_iff.mp settled
  refine ⟨i, item, err, there, ⟨answered, rejected⟩, rfl, ?_⟩
  intro alone j lt item' earlier err' rejected'
  obtain ⟨v, settled'⟩ := before alone j lt (questionRequest p item') (by simp [eachRound, earlier])
  cases (rejected_settles rejected').symm.trans settled'

theorem checkEach_returns {R : Except ClientError (List Verdict) → Prop}
    (named : identify supply questions = .ok items) (ready : c.prepare b.request = .ok p)
    (empty : items = [] → R (.ok []))
    (holds : ∀ trace ending, (eachRound p b items).Ends trace ending → trace.AnsweredBy answer →
      R ending) : (c.checkEach supply questions b).Returns answer R := by
  by_cases none : items = []
  · subst none
    simp only [checkEach, named]
    exact Program.returns_done (empty rfl)
  · rw [checkEach_round named none ready]
    refine Program.returns_single fun trace ending ends honest => ?_
    have whole := holds trace ending ends honest
    cases ending <;> exact whole

/-- A batch comes to what a loop of single checks comes to, whatever its limit. -/
structure Loops (c : Client) (supply : IdSupply) (questions : List Question) (b : BatchOptions)
    (p : Prepared) (answer : Call → Outcome) : Prop where
  /-- If no check is rejected, there is one list of verdicts for all limits and schedules. -/
  returned : (∀ q ∈ questions, ∀ err, ¬ p.RejectedWith answer q err) → ∃ verdicts,
    (∀ limit, (c.checkEach supply questions { b with maxParallel := limit }).Returns answer
      (· = .ok verdicts)) ∧
    List.Forall₂ (Agrees c b.request answer) questions verdicts ∧
    (verdicts.map Verdict.id).Nodup
  /-- If one is, the batch has the error of one that is, and of the first in a loop. -/
  rejected : (∃ q ∈ questions, ∃ err, p.RejectedWith answer q err) → ∀ limit,
    (c.checkEach supply questions { b with maxParallel := limit }).Returns answer fun result =>
      ∃ (i : Nat) (q : Question) (err : CallError), questions[i]? = some q ∧
        p.RejectedWith answer q err ∧ result = .error (.ofCall err) ∧
        (c.check q b.request).Returns answer (· = .error (.ofCall err)) ∧
        (limit ≤ 1 → ∀ j < i, ∀ q', questions[j]? = some q' →
          ∀ err, ¬ p.RejectedWith answer q' err)

theorem rejectedWith_names {q : Question} {item : Identified} (names : Names q item)
    (err : CallError) : p.RejectedWith answer item.question err ↔ p.RejectedWith answer q err := by
  rw [names.question]
  rfl

theorem rejected_checked {q : Question} {err : CallError} (rejected : p.RejectedWith answer q err) :
    p.checked answer q = .error (.ofCall err) := by
  rw [Prepared.checked, rejected.1]
  rfl

theorem checkEach_returned (named : identify supply questions = .ok items)
    (ready : c.prepare b.request = .ok p)
    (accepted : ∀ q ∈ questions, ∀ err, ¬ p.RejectedWith answer q err) :
    (c.checkEach supply questions b).Returns answer
      (· = .ok (items.map fun item => .of item (p.checked answer item.question))) := by
  have names := (identify_ok named).1
  refine checkEach_returns named ready (by rintro rfl; rfl) fun trace ending ends honest => ?_
  cases ending with
  | ok verdicts => rw [(eachRound_ok ends honest).1]
  | error e =>
    obtain ⟨i, item, err, there, rejected, -⟩ := eachRound_error ends honest
    obtain ⟨q, asked, name⟩ := forall₂_get_right names there
    exact absurd ((rejectedWith_names name err).mp rejected)
      (accepted q (List.mem_of_getElem? asked) err)

theorem checkEach_rejected (named : identify supply questions = .ok items)
    (ready : c.prepare b.request = .ok p) {q : Question} (mem : q ∈ questions) {err : CallError}
    (rejected : p.RejectedWith answer q err) :
    (c.checkEach supply questions b).Returns answer fun result =>
      ∃ (i : Nat) (q : Question) (err : CallError), questions[i]? = some q ∧
        p.RejectedWith answer q err ∧ result = .error (.ofCall err) ∧
        (c.check q b.request).Returns answer (· = .error (.ofCall err)) ∧
        (b.maxParallel ≤ 1 → ∀ j < i, ∀ q', questions[j]? = some q' →
          ∀ err, ¬ p.RejectedWith answer q' err) := by
  have names := (identify_ok named).1
  obtain ⟨item, there, name⟩ := forall₂_mem_left names mem
  have fails := (rejectedWith_names name err).mpr rejected
  refine checkEach_returns named ready ?_ fun trace ending ends honest => ?_
  · rintro rfl
    cases there
  · cases ending with
    | ok verdicts => exact absurd fails ((eachRound_ok ends honest).2 item there err)
    | error e =>
      obtain ⟨i, item, err, there, rejected, rfl, first⟩ := eachRound_error ends honest
      obtain ⟨q, asked, name⟩ := forall₂_get_right names there
      have rejected := (rejectedWith_names name err).mp rejected
      refine ⟨i, q, err, asked, rejected, rfl, ?_, ?_⟩
      · rw [← rejected_checked rejected]
        exact check_returns ready answer q
      · intro alone j lt q' earlier err' rejected'
        obtain ⟨item', there', name'⟩ := forall₂_get_right names.flip earlier
        exact first alone j lt item' there' err' ((rejectedWith_names name' err').mpr rejected')

/-- Under a transport that answers by the call, a batch of questions with distinct ids comes to what
a loop of single checks comes to, whatever its limit and its schedule. -/
theorem each_check_loops (distinct : (declared questions).Nodup) (fresh : supply.Fresh questions)
    (ready : c.prepare b.request = .ok p) (answer : Call → Outcome) :
    Loops c supply questions b p answer := by
  have named := (identify_eq_ok_iff fresh).mpr ⟨distinct, rfl⟩
  obtain ⟨names, once⟩ := identify_ok named
  generalize itemsFrom supply 0 questions = items at named names once
  constructor
  · intro accepted
    refine ⟨_, fun limit => checkEach_returned named ready accepted, ?_, ?_⟩
    · rw [List.forall₂_map_right_iff]
      exact names.imp fun q item name => agrees_of ready name
    · have ids : Verdict.id ∘ (fun item => Verdict.of item (p.checked answer item.question)) =
          Identified.id := funext fun item => (Verdict.of_item item _).1
      rwa [List.map_map, ids]
  · rintro ⟨q, mem, err, rejected⟩ limit
    exact checkEach_rejected named ready mem rejected

def bobUnnamed : Question := { bobReads with correlationId := none }

def yesOnly (call : Call) : Call → Outcome := fun other =>
  if other = call then .ok ⟨200, .object [("allowed", .bool true)]⟩
  else .error (.timeout other.path)

/-- One question declares its id and the other does not. A transport that runs out of time for one
of them fails no batch, and one that rejects the credentials fails every batch. -/
theorem unnamed_question_loops : ∃ p, (ofStore (.ofNat 1)).prepare {} = .ok p ∧
    (∃ verdicts, ((ofStore (.ofNat 1)).checkEach (fun _ => "g") [anneReads, bobUnnamed]
        { maxParallel := 7 }).Returns (yesOnly (p.checkCall anneReads)) (· = .ok verdicts) ∧
      List.Forall₂ (Agrees (ofStore (.ofNat 1)) {} (yesOnly (p.checkCall anneReads)))
        [anneReads, bobUnnamed] verdicts) ∧
    ((ofStore (.ofNat 1)).checkEach (fun _ => "g") [anneReads, bobUnnamed]
      { maxParallel := 1 }).Returns (fun _ => .error (.http 401 none none))
        fun result => ∃ e, result = .error e := by
  obtain ⟨p, ready⟩ := ofStore_ready (.ofNat 1)
  have distinct : (declared [anneReads, bobUnnamed]).Nodup := by decide
  have fresh : IdSupply.Fresh (fun _ => "g") [anneReads, bobUnnamed] := by
    constructor <;> decide
  have loops := each_check_loops (b := {}) distinct fresh ready
  refine ⟨p, ready, ?_, ?_⟩
  · have accepted : ∀ q ∈ [anneReads, bobUnnamed], ∀ err,
        ¬ p.RejectedWith (yesOnly (p.checkCall anneReads)) q err := by
      rintro q - err ⟨answered, rejected⟩
      unfold yesOnly at answered
      split at answered
      · cases answered
      · cases answered
        simp [CallError.Rejected, CallError.status?] at rejected
    obtain ⟨verdicts, returns, agree, -⟩ := (loops _).returned accepted
    exact ⟨verdicts, returns 7, agree⟩
  · have rejects := (loops fun _ => .error (.http 401 none none)).rejected
      ⟨anneReads, List.mem_cons_self, _, rfl, .inl rfl⟩ 1
    refine ⟨rejects.finite, rejects.completes, fun traces result run honest => ?_⟩
    obtain ⟨-, -, err, -, -, failed, -⟩ := rejects.result traces result run honest
    exact ⟨_, failed⟩

end Client

end Rebac
