import Rebac.Proofs.Client.GroupedCheck
import Rebac.Proofs.Question.Body

set_option autoImplicit false

/-! # Nothing is allowed that was not granted -/

namespace Rebac

open Dispatch Batch

def Answered (traces : List Trace) (place : Nat) (call : Call) (response : Response) : Prop :=
  ∃ trace ∈ traces, (place, call, .ok response) ∈ trace.exchanges

namespace Client

structure Addressed (c : Client) (o : RequestOptions) (endpoint : String) (call : Call) : Prop where
  path : ∃ store, c.storeId = some store ∧ call.path = storePath store ++ "/" ++ endpoint
  model : c.chooseModel o.modelId = .ok (Body.model? call.body)

/-- The server has granted a question in answer to a check of that question alone. -/
def Granted (c : Client) (o : RequestOptions) (traces : List Trace) (place : Nat) (q : Question) :
    Prop :=
  ∃ call response, Answered traces place call response ∧ c.Addressed o "check" call ∧
    Body.question? call.body = some { q with correlationId := none } ∧
    Answer.Allows response.body

/-- The server has granted a question under its id, in answer to a batch with one check of that
id, which is a check of that question. -/
def GrantedAmong (c : Client) (o : RequestOptions) (traces : List Trace) (place : Nat)
    (q : Question) (id : String) : Prop :=
  ∃ call response, Answered traces place call response ∧ c.Addressed o "batch-check" call ∧
    ((Body.checks call.body).filterMap Body.question?).filter (fun r => r.correlationId = some id) =
      [{ q with correlationId := some id }] ∧
    Answer.AllowsUnder id response.body

structure FailsClosed (c : Client) (supply : IdSupply) : Prop where
  check : ∀ q o traces, (c.check q o).Yields traces (.ok true) → c.Granted o traces 0 q
  checkEach : ∀ questions o traces verdicts,
    (c.checkEach supply questions o).Yields traces (.ok verdicts) →
    ∀ (i : Nat) v, verdicts[i]? = some v → v.allowed = true → ∃ q, questions[i]? = some q ∧
      v.question = { q with correlationId := some v.id } ∧ c.Granted o.request traces i q
  checkGroups : ∀ questions o visits traces verdicts,
    (c.checkGroups supply questions o visits).Yields traces (.ok verdicts) →
    ∀ v ∈ verdicts, v.allowed = true → ∃ (i : Nat) (q : Question), questions[i]? = some q ∧
      v.question = { q with correlationId := some v.id } ∧
      c.GrantedAmong o.request traces (i / o.maxBatchSize) q v.id
  listRelations : ∀ q o traces relations,
    (c.listRelations supply q o).Yields traces (.ok relations) →
    ∀ relation ∈ relations, ∃ i : Nat, q.relations[i]? = some relation ∧
      c.Granted o.request traces i { user := q.user, relation, object := q.object
                                     correlationId := none, contextual := q.contextual
                                     context := q.context }

variable {c : Client} {supply : IdSupply} {o : RequestOptions} {b : BatchOptions} {p : Prepared}
  {trace : Trace} {traces : List Trace} {verdicts : List Verdict}

theorem addressed_call {endpoint : String} {body : Json} (ready : c.prepare o = .ok p)
    (model : Body.model? body = p.modelId) : c.Addressed o endpoint (p.call endpoint body) := by
  obtain ⟨store, given, path, chosen, -⟩ := prepare_ok ready
  refine ⟨⟨store, given, ?_⟩, ?_⟩
  · rw [← path]
    rfl
  · rw [chosen, ← model]
    rfl

theorem granted_check {q : Question} {place : Nat} {response : Response}
    (ready : c.prepare o = .ok p)
    (exchanged : (place, p.checkCall q, .ok response) ∈ trace.exchanges)
    (allows : Answer.Allows response.body) : c.Granted o [trace] place q :=
  ⟨p.checkCall q, response, ⟨trace, List.mem_singleton_self trace, exchanged⟩,
    addressed_call ready (Body.model?_check _ _ _), Body.question?_check _ _ _, allows⟩

/-! ## Single checks -/

theorem check_granted {q : Question} (run : (c.check q o).Yields traces (.ok true)) :
    c.Granted o traces 0 q := by
  unfold check at run
  cases ready : c.prepare o with
  | error e =>
    rw [ready] at run
    cases (Program.yields_refuse.mp run).2
  | ok p =>
    rw [ready] at run
    obtain ⟨trace, ending, ends, rfl, eq⟩ := Program.yields_single.mp run
    cases ending with
    | error e => cases eq
    | ok answers =>
      have yes : true ∈ answers := by
        have any : answers.any id = true := (Except.ok.inj eq).symm
        simpa using any
      obtain ⟨i, got⟩ := List.mem_iff_getElem?.mp yes
      obtain ⟨request, outcome, here, exchanged, settle⟩ := Round.ends_ok_answer ends got
      obtain ⟨lt, single⟩ := List.getElem?_eq_some_iff.mp here
      -- the round has one request, so the answer that says yes is the first
      have first : i = 0 := by
        simp only [Prepared.single, List.length_singleton] at lt
        omega
      subst first
      cases single
      obtain ⟨response, rfl, read⟩ := Answer.ofOutcome_ok.mp settle
      exact granted_check ready exchanged (Answer.check_allows read)

def eachRound (p : Prepared) (b : BatchOptions) (items : List Identified) : Round Verdict where
  policy := p.policy
  limit := b.maxParallel
  requests := items.map (questionRequest p)

theorem checkEach_round {questions : List Question} {items : List Identified}
    (named : identify supply questions = .ok items) (some : items ≠ [])
    (ready : c.prepare b.request = .ok p) : c.checkEach supply questions b =
      .round (eachRound p b items) fun verdicts => .done (.ok verdicts)
        [.batchChecked (allowedCount verdicts) (failedCount verdicts)] := by
  obtain ⟨item, rest, rfl⟩ := List.exists_cons_of_ne_nil some
  simp only [checkEach, named, ready]
  rfl

theorem checkEach_shape (c : Client) (supply : IdSupply) (questions : List Question)
    (b : BatchOptions) :
    (∃ cause, (questions ≠ [] ∧
        (c.Unready b.request ∨ identify supply questions = .error cause)) ∧
      c.checkEach supply questions b = .refuse (.validation cause)) ∨
    (questions = [] ∧ c.checkEach supply questions b = .done (.ok []) []) ∨
    ∃ (items : List Identified) (p : Prepared) (events : List Verdict → List Event),
      items ≠ [] ∧ identify supply questions = .ok items ∧ c.prepare b.request = .ok p ∧
      c.checkEach supply questions b =
        .round (eachRound p b items) fun verdicts => .done (.ok verdicts) (events verdicts) := by
  cases named : identify supply questions with
  | error cause =>
    have some : questions ≠ [] := by
      rintro rfl
      cases named
    exact .inl ⟨cause, ⟨some, .inr rfl⟩, by simp only [checkEach, named]⟩
  | ok items =>
    by_cases none : items = []
    · subst none
      exact .inr (.inl ⟨(items_eq_nil_iff named).mp rfl, by simp only [checkEach, named]⟩)
    cases ready : c.prepare b.request with
    | error cause =>
      have some : questions ≠ [] := mt (items_eq_nil_iff named).mpr none
      obtain ⟨item, rest, rfl⟩ := List.exists_cons_of_ne_nil none
      exact .inl ⟨cause, ⟨some, .inl (prepare_refuses.mp ⟨cause, ready⟩)⟩, by
        simp only [checkEach, named, ready]⟩
    | ok p => exact .inr (.inr ⟨items, p, _, none, rfl, rfl, checkEach_round named none ready⟩)

theorem checkEach_ended {questions : List Question} {result : Except ClientError (List Verdict)}
    (run : (c.checkEach supply questions b).Yields traces result) :
    (∃ cause, result = .error (.validation cause)) ∨ result = .ok [] ∨
    ∃ items p trace, identify supply questions = .ok items ∧ c.prepare b.request = .ok p ∧
      (eachRound p b items).Ends trace result ∧ traces = [trace] := by
  rcases checkEach_shape c supply questions b with
    ⟨cause, -, eq⟩ | ⟨-, eq⟩ | ⟨items, p, events, -, named, ready, eq⟩
  · rw [eq] at run
    exact .inl ⟨cause, (Program.yields_refuse.mp run).2⟩
  · rw [eq] at run
    exact .inr (.inl (Program.yields_done.mp run).2)
  · rw [eq] at run
    obtain ⟨trace, ending, ends, rfl, eq⟩ := Program.yields_single.mp run
    have same : result = ending := by cases ending <;> exact eq
    exact .inr (.inr ⟨items, p, trace, named, ready, same ▸ ends, rfl⟩)

theorem checkEach_ok {questions : List Question}
    (run : (c.checkEach supply questions b).Yields traces (.ok verdicts)) : verdicts = [] ∨
      ∃ items p trace, identify supply questions = .ok items ∧ c.prepare b.request = .ok p ∧
        (eachRound p b items).Ends trace (.ok verdicts) ∧ traces = [trace] := by
  rcases checkEach_ended run with ⟨cause, eq⟩ | eq | whole
  · cases eq
  · exact .inl (Except.ok.inj eq)
  · exact .inr whole

theorem settleOne_allowed {item : Identified} {outcome : Outcome} {v : Verdict}
    (settled : settleOne item outcome = .ok v) (allowed : v.allowed = true) :
    ∃ response, outcome = .ok response ∧ Answer.Allows response.body ∧ v = .answered item true := by
  unfold settleOne at settled
  cases read : Answer.ofOutcome Answer.check outcome with
  | error e =>
    rw [read] at settled
    by_cases fatal : e.fatal = true
    · simp [fatal] at settled
    · simp only [fatal, Bool.false_eq_true, ↓reduceIte, Except.ok.injEq] at settled
      subst settled
      cases allowed
  | ok answer =>
    rw [read] at settled
    cases settled
    change answer = true at allowed
    subst allowed
    obtain ⟨response, rfl, decoded⟩ := Answer.ofOutcome_ok.mp read
    exact ⟨response, rfl, Answer.check_allows decoded, rfl⟩

theorem checkEach_granted {questions : List Question}
    (run : (c.checkEach supply questions b).Yields traces (.ok verdicts)) {i : Nat} {v : Verdict}
    (got : verdicts[i]? = some v) (allowed : v.allowed = true) : ∃ q, questions[i]? = some q ∧
      v.question = { q with correlationId := some v.id } ∧ c.Granted b.request traces i q := by
  rcases checkEach_ok run with rfl | ⟨items, p, trace, named, ready, ends, rfl⟩
  · cases got
  · obtain ⟨request, outcome, here, exchanged, settle⟩ := Round.ends_ok_answer ends got
    rw [eachRound, List.getElem?_map, Option.map_eq_some_iff] at here
    obtain ⟨item, there, rfl⟩ := here
    obtain ⟨response, rfl, allows, rfl⟩ := settleOne_allowed settle allowed
    obtain ⟨q, asked, names⟩ := forall₂_get_right (identify_ok named).1 there
    have granted : c.Granted b.request [trace] i item.question :=
      granted_check ready exchanged allows
    rw [names.question] at granted
    exact ⟨q, asked, names.question, granted⟩

/-! ## Checks in groups -/

theorem decides_allowed {outcome : Outcome} {id : String} {error : Option ClientError}
    (decided : Decides outcome id true error) :
    ∃ response, outcome = .ok response ∧ Answer.AllowsUnder id response.body := by
  generalize given : true = allowed at decided
  cases decided with
  | failed _ => cases given
  | undecodable _ => cases given
  | omitted _ _ _ => cases given
  | @answered response entries id record entry _ _ under reads =>
    have yes : entry.allowed = some true := by
      cases said : entry.allowed with
      | none =>
        rw [said] at given
        cases given
      | some answer =>
        rw [said] at given
        exact congrArg some given.symm
    exact ⟨response, rfl, record, under, reads.allows yes⟩

theorem filter_id {group : List Identified} (once : (group.map Identified.id).Nodup)
    {item : Identified} (mem : item ∈ group) :
    group.filter (fun other => other.id = item.id) = [item] := by
  induction group with
  | nil => cases mem
  | cons first rest ih =>
    rw [List.map_cons, List.nodup_cons] at once
    rcases List.mem_cons.mp mem with rfl | there
    · have others : rest.filter (fun other => other.id = item.id) = [] := by
        apply List.filter_eq_nil_iff.mpr
        intro other within same
        rw [decide_eq_true_eq] at same
        exact once.1 (same ▸ List.mem_map_of_mem within)
      simp [others]
    · have differs : first.id ≠ item.id := by
        intro same
        exact once.1 (same ▸ List.mem_map_of_mem there)
      simp [differs, ih once.2 there]

theorem checks_filter {group : List Identified} (once : (group.map Identified.id).Nodup)
    {item : Identified} (mem : item ∈ group) (modelId : Option String)
    (consistency : Option Consistency) :
    ((Body.checks (Body.batchCheck group modelId consistency)).filterMap Body.question?).filter
      (fun r => r.correlationId = some item.id) =
        [{ item.question with correlationId := some item.id }] := by
  have ids : group.filter (fun other => decide (some other.id = some item.id)) = [item] := by
    simpa using filter_id once mem
  rw [Body.questions_batchCheck, List.filter_map]
  exact congrArg (List.map _) ids

theorem granted_among {group : List Identified} {item : Identified} {place : Nat}
    {response : Response} (ready : c.prepare o = .ok p)
    (exchanged : (place, p.groupCall group, .ok response) ∈ trace.exchanges)
    (once : (group.map Identified.id).Nodup) (mem : item ∈ group)
    (allows : Answer.AllowsUnder item.id response.body) :
    c.GrantedAmong o [trace] place item.question item.id :=
  ⟨p.groupCall group, response, ⟨trace, List.mem_singleton_self trace, exchanged⟩,
    addressed_call ready (Body.model?_batchCheck _ _ _), checks_filter once mem _ _, allows⟩

theorem group_exchanged {items : List Identified} {visits : List Identified → Visit}
    {ending : Except ClientError (List (List Verdict))} (size : 0 < b.maxBatchSize)
    (once : (items.map Identified.id).Nodup)
    (ends : (groupRound p b visits items).Ends trace ending)
    {j : Nat} {item : Identified} (there : items[j]? = some item) {outcome : Outcome}
    (final : trace.final? (j / b.maxBatchSize) = some outcome) :
    ∃ group, item ∈ group ∧ (group.map Identified.id).Nodup ∧
      (j / b.maxBatchSize, p.groupCall group, outcome) ∈ trace.exchanges := by
  obtain ⟨s, run, -⟩ := ends
  obtain ⟨request, sent, exchanged⟩ :=
    Round.final_exchange run ((Round.final?_eq_some run).mp final)
  obtain ⟨group, got, rfl⟩ := groupRound_request sent
  exact ⟨group, (carried size once there got).mpr rfl,
    group_nodup size once (List.mem_of_getElem? got), exchanged⟩

theorem checkGroups_granted {questions : List Question} {visits : List Identified → Visit}
    (run : (c.checkGroups supply questions b visits).Yields traces (.ok verdicts)) {v : Verdict}
    (mem : v ∈ verdicts) (allowed : v.allowed = true) :
    ∃ (i : Nat) (q : Question), questions[i]? = some q ∧
      v.question = { q with correlationId := some v.id } ∧
      c.GrantedAmong b.request traces (i / b.maxBatchSize) q v.id := by
  rcases checkGroups_ended run with
    ⟨cause, eq⟩ | ⟨-, -, eq⟩ | ⟨items, p, trace, ending, named, size, ready, ends, rfl, eq⟩
  · cases eq
  · cases eq
    cases mem
  cases ending with
  | error e => cases eq
  | ok answers =>
    cases eq
    obtain ⟨i, q, item, outcome, asked, there, name, final, report⟩ :=
      ends_verdict named size ends mem
    obtain ⟨response, rfl, allows⟩ := decides_allowed (allowed ▸ report.decided)
    obtain ⟨group, within, distinct, exchanged⟩ :=
      group_exchanged size (identify_ok named).2 ends there final
    have granted := granted_among ready exchanged distinct within allows
    rw [name.question] at granted
    refine ⟨i, q, asked, ?_, ?_⟩
    · rw [report.question, report.id, name.question]
    · rw [report.id]
      exact granted

/-! ## Lists of relations -/

theorem listRelations_granted {q : RelationsQuestion} {relations : List String}
    (run : (c.listRelations supply q b).Yields traces (.ok relations)) {relation : String}
    (mem : relation ∈ relations) : ∃ i : Nat, q.relations[i]? = some relation ∧
      c.Granted b.request traces i { user := q.user, relation, object := q.object
                                     correlationId := none, contextual := q.contextual
                                     context := q.context } := by
  unfold listRelations at run
  split at run
  · cases (Program.yields_refuse.mp run).2
  · obtain ⟨first, checked, eq⟩ := Program.yields_andThen.mp run
    cases first with
    | error e => cases eq
    | ok verdicts =>
      simp only [Except.bind] at eq
      split at eq
      · cases eq
      · cases eq
        obtain ⟨v, listed, rfl⟩ := List.mem_map.mp mem
        obtain ⟨there, allowed⟩ := List.mem_filter.mp listed
        obtain ⟨i, got⟩ := List.mem_iff_getElem?.mp there
        obtain ⟨asked, here, question, granted⟩ := checkEach_granted checked got allowed
        rw [List.getElem?_map, Option.map_eq_some_iff] at here
        obtain ⟨relation, candidate, rfl⟩ := here
        have same : v.question.relation = relation := by
          rw [question]
          rfl
        rw [same]
        exact ⟨i, candidate, granted⟩

/-- Whatever the transport answers and in whatever order requests end, no operation of a client
reports a permission that was not granted for that very question. -/
theorem every_operation_fails_closed (c : Client) (supply : IdSupply) : c.FailsClosed supply where
  check _ _ _ := check_granted
  checkEach _ _ _ _ run _ _ := checkEach_granted run
  checkGroups _ _ _ _ _ run _ := checkGroups_granted run
  listRelations _ _ _ _ run _ := listRelations_granted run

def anneAtNine : RelationsQuestion where
  user := "user:anne"
  object := "doc:1"
  relations := ["viewer"]
  contextual := [⟨"user:anne", "member", "group:1", none⟩]
  context := some [("hour", .int 9)]

/-- A check, a batch of one question and a list of one relation, all answered with a yes. -/
theorem yes_granted :
    (∃ traces, ((ofStore (.ofNat 1)).check anneReads {}).Yields traces (.ok true) ∧
      (ofStore (.ofNat 1)).Granted {} traces 0 anneReads) ∧
    (∃ traces, ((ofStore (.ofNat 1)).checkGroups (fun _ => "") [anneReads] {}).Yields traces
        (.ok [.answered ⟨"a", anneReads⟩ true]) ∧
      ∃ (i : Nat) (q : Question), [anneReads][i]? = some q ∧
        (ofStore (.ofNat 1)).GrantedAmong {} traces (i / 50) q "a") ∧
    ∃ traces, ((ofStore (.ofNat 1)).listRelations (fun _ => "") anneAtNine {}).Yields traces
        (.ok ["viewer"]) ∧
      ∃ i, (ofStore (.ofNat 1)).Granted {} traces i ⟨"user:anne", "viewer", "doc:1", none,
        [⟨"user:anne", "member", "group:1", none⟩], some [("hour", .int 9)]⟩ := by
  have closed := every_operation_fails_closed (ofStore (.ofNat 1)) fun _ => ""
  refine ⟨?_, ?_, ?_⟩
  · have run : ∃ traces, ((ofStore (.ofNat 1)).check anneReads {}).Yields traces (.ok true) :=
      ⟨_, .finished ⟨_, .next (.next .opened (c := .start) rfl)
        (c := .answer 0 (.ok ⟨200, .object [("allowed", .bool true)]⟩) ⟨0, 0⟩) rfl, rfl⟩ .done⟩
    obtain ⟨traces, run⟩ := run
    exact ⟨traces, run, closed.check _ _ _ run⟩
  · have cut : groups 50 [(⟨"a", anneReads⟩ : Identified)] = [[⟨"a", anneReads⟩]] := by
      simp [groups]
    have run : ∃ traces, ((ofStore (.ofNat 1)).checkGroups (fun _ => "") [anneReads] {}).Yields
        traces (.ok [.answered ⟨"a", anneReads⟩ true]) := by
      have named : identify (fun _ => "") [anneReads] = .ok [⟨"a", anneReads⟩] := rfl
      obtain ⟨p, ready⟩ := ofStore_ready (.ofNat 1)
      simp only [checkGroups, named, chunk, cut, ready]
      exact ⟨_, .finished ⟨_, .next (.next .opened (c := .start) rfl)
        (c := .answer 0 (.ok ⟨200, .object
          [("result", .object [("a", .object [("allowed", .bool true)])])]⟩) ⟨0, 0⟩) rfl, rfl⟩
        .done⟩
    obtain ⟨traces, run⟩ := run
    obtain ⟨i, q, asked, -, granted⟩ :=
      closed.checkGroups _ _ _ _ _ run _ (List.mem_singleton_self _) rfl
    exact ⟨traces, run, i, q, asked, granted⟩
  · have run : ∃ traces, ((ofStore (.ofNat 1)).listRelations (fun _ => "") anneAtNine {}).Yields
        traces (.ok ["viewer"]) :=
      ⟨_, .finished ⟨_, .next (.next .opened (c := .start) rfl)
        (c := .answer 0 (.ok ⟨200, .object [("allowed", .bool true)]⟩) ⟨0, 0⟩) rfl, rfl⟩ .done⟩
    obtain ⟨traces, run⟩ := run
    obtain ⟨i, candidate, granted⟩ :=
      closed.listRelations _ _ _ _ run "viewer" (List.mem_singleton_self _)
    exact ⟨traces, run, i, granted⟩

end Client

end Rebac
