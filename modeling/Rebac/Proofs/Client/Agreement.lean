import Rebac.Proofs.Client.EachCheck

set_option autoImplicit false

/-! # Both ways to check a batch agree -/

namespace Rebac

open Dispatch Batch

/-! ## Servers that answer by a rule -/

/-- All that a server is told when it is asked a question. -/
structure Inquiry where
  user : String
  relation : String
  object : String
  contextual : List RelationTuple
  context : Option Members
  modelId : Option String
  consistency : Option Consistency

def Question.inquiry (q : Question) (modelId : Option String) (consistency : Option Consistency) :
    Inquiry :=
  ⟨q.user, q.relation, q.object, q.contextual, q.context, modelId, consistency⟩

namespace Server

variable (rule : Inquiry → Bool)

def answer (allowed : Bool) : Json := .object [("allowed", .bool allowed)]

def answerOne (body : Json) : Json :=
  match Body.question? body with
  | some q => answer (rule (q.inquiry (Body.model? body) (Body.consistency? body)))
  | none => .null

def answerAll (body : Json) : Json :=
  .object [("result", Json.ofMembers (((Body.checks body).filterMap Body.question?).filterMap
    fun q => q.correlationId.map fun id =>
      (id, answer (rule (q.inquiry (Body.model? body) (Body.consistency? body))))))]

/-- A server that answers the checks of a store by a rule, and other calls as it may. -/
def respond (store : String) (elsewhere : Call → Outcome) (call : Call) : Outcome :=
  if call.path = store ++ "/" ++ "check" then .ok ⟨200, answerOne rule call.body⟩
  else if call.path = store ++ "/" ++ "batch-check" then .ok ⟨200, answerAll rule call.body⟩
  else elsewhere call

def verdict (p : Prepared) (item : Identified) : Verdict :=
  .answered item (rule (item.question.inquiry p.modelId p.consistency))

variable {rule} {elsewhere : Call → Outcome} {p : Prepared}

theorem respond_check (q : Question) : respond rule p.storePath elsewhere (p.checkCall q) =
    .ok ⟨200, answer (rule (q.inquiry p.modelId p.consistency))⟩ := by
  have here : (p.checkCall q).path = p.storePath ++ "/" ++ "check" := rfl
  have body : (p.checkCall q).body = Body.check q p.modelId p.consistency := rfl
  rw [respond, if_pos here, answerOne, body, Body.question?_check, Body.model?_check,
    Body.consistency?_check]
  rfl

def results (rule : Inquiry → Bool) (p : Prepared) (group : List Identified) :
    List (String × Json) :=
  group.map fun item => (item.id, answer (rule (item.question.inquiry p.modelId p.consistency)))

theorem respond_group (group : List Identified) :
    respond rule p.storePath elsewhere (p.groupCall group) =
      .ok ⟨200, .object [("result", Json.ofMembers (results rule p group))]⟩ := by
  have here : (p.groupCall group).path = p.storePath ++ "/" ++ "batch-check" := rfl
  have apart : p.storePath ++ "/" ++ "batch-check" ≠ p.storePath ++ "/" ++ "check" := by
    simp [String.append_right_inj]
  have body : (p.groupCall group).body = Body.batchCheck group p.modelId p.consistency := rfl
  have listed : (group.map fun item =>
      { item.question with correlationId := some item.id }).filterMap (fun q =>
        q.correlationId.map fun id => (id, answer (rule (q.inquiry p.modelId p.consistency)))) =
      results rule p group := by
    rw [List.filterMap_map]
    exact congrFun List.filterMap_eq_map group
  rw [respond, here, if_neg apart, if_pos rfl, answerAll, body, Body.questions_batchCheck,
    Body.model?_batchCheck, Body.consistency?_batchCheck, listed]

theorem entry_answer (allowed : Bool) : Answer.entry (answer allowed) = .ok ⟨some allowed, none⟩ :=
  rfl

theorem batch_results (rule : Inquiry → Bool) (p : Prepared) {group : List Identified}
    (once : (group.map Identified.id).Nodup) :
    ∃ entries, Answer.batch (.object [("result", Json.ofMembers (results rule p group))]) =
        .ok entries ∧
      entries.Perm (group.map fun item =>
        (item.id, ⟨some (rule (item.question.inquiry p.modelId p.consistency)), none⟩)) := by
  have names : ((results rule p group).map Prod.fst).Nodup := by
    simpa [results, Function.comp_def] using once
  have perm := Members.ofList_perm names
  have each : List.Forall₂ (fun m e => m.1 = e.1 ∧ Answer.entry m.2 = .ok e.2)
      (results rule p group) (group.map fun item =>
        (item.id, ⟨some (rule (item.question.inquiry p.modelId p.consistency)), none⟩)) := by
    rw [results, List.forall₂_map_left_iff, List.forall₂_map_right_iff, List.forall₂_same]
    exact fun item _ => ⟨rfl, entry_answer _⟩
  obtain ⟨entries, related, rearranged⟩ := List.perm_comp_forall₂ perm each
  refine ⟨entries, ?_, rearranged⟩
  have read := Json.asMapOf_related ((perm.map Prod.fst).nodup_iff.mpr names) related
  simp only [Answer.batch, Answer.field, Json.present, Members.find?, ↓reduceIte, Json.ofMembers,
    read]
  rfl

theorem reports_answered {group : List Identified} {response : Response}
    {entries : List (String × Answer.Entry)} {allowed : Identified → Bool} {item : Identified}
    {v : Verdict} (once : (group.map Identified.id).Nodup) (mem : item ∈ group)
    (read : Answer.batch response.body = .ok entries)
    (perm : entries.Perm (group.map fun item => (item.id, ⟨some (allowed item), none⟩)))
    (reports : Reports (.ok response) item v) : v = .answered item (allowed item) := by
  obtain ⟨id, given, question, error⟩ := v
  obtain ⟨rfl, rfl, decided⟩ := reports
  cases decided with
  | undecodable bad => cases read.symm.trans bad
  | @answered _ entries id _ entry decoded there _ _ =>
    cases read.symm.trans decoded
    obtain ⟨other, within, eq⟩ := List.mem_map.mp (perm.mem_iff.mp there)
    have ids : other.id = item.id := congrArg Prod.fst eq
    obtain rfl := List.inj_on_of_nodup_map once within mem ids
    obtain rfl : entry = ⟨some (allowed other), none⟩ := (congrArg Prod.snd eq).symm
    rfl
  | omitted decoded absent _ =>
    cases read.symm.trans decoded
    exact absurd (perm.mem_iff.mpr (List.mem_map_of_mem mem)) (absent _)

theorem respond_settled (rule : Inquiry → Bool) (elsewhere : Call → Outcome) (p : Prepared)
    (visit : Visit) {group : List Identified}
    (once : (group.map Identified.id).Nodup) : ∃ verdicts,
      settleGroup visit group (respond rule p.storePath elsewhere (p.groupCall group)) =
        .ok verdicts ∧
      verdicts.Perm (group.map (verdict rule p)) := by
  obtain ⟨entries, read, perm⟩ := batch_results rule p once
  rw [respond_group]
  cases settled : settleGroup visit group (.ok ⟨200, .object [("result",
      Json.ofMembers (results rule p group))]⟩) with
  | error e =>
    -- the answer names no other id, so nothing ends the batch
    cases settleGroup_error settled with
    | unknown decoded under absent =>
      cases read.symm.trans decoded
      obtain ⟨entry, mem⟩ := Answer.batch_under decoded under
      obtain ⟨item, within, eq⟩ := List.mem_map.mp (perm.mem_iff.mp mem)
      exact absurd (congrArg Prod.fst eq) (absent item within)
  | ok verdicts =>
    obtain ⟨inOrder, rearranged, reports⟩ := settleGroup_ok once settled
    refine ⟨verdicts, rfl, ?_⟩
    have each := (List.forall₂_and_left _ _).mpr ⟨fun item (mem : item ∈ group) => mem, reports⟩
    have given : List.Forall₂ (fun item v => v = verdict rule p item) group inOrder :=
      each.imp fun item v said => reports_answered once said.1 read perm said.2
    rwa [← map_of_forall₂ given]

end Server

namespace Client

open Server

variable {c : Client} {supply other : IdSupply} {questions : List Question}
  {items : List Identified} {o : RequestOptions} {b : BatchOptions} {p : Prepared}
  {rule : Inquiry → Bool} {elsewhere : Call → Outcome} {visits : List Identified → Visit}
  {trace : Trace} {traces : List Trace}

theorem checkEach_ruled (named : identify supply questions = .ok items)
    (ready : c.prepare b.request = .ok p) :
    (c.checkEach supply questions b).Returns (respond rule p.storePath elsewhere)
      (· = .ok (items.map (verdict rule p))) := by
  have checked (item : Identified) : Verdict.of item
      (p.checked (respond rule p.storePath elsewhere) item.question) = verdict rule p item := by
    rw [Prepared.checked, respond_check]
    rfl
  have accepted : ∀ q ∈ questions, ∀ err,
      ¬ p.RejectedWith (respond rule p.storePath elsewhere) q err := by
    rintro q - err ⟨failed, -⟩
    rw [respond_check] at failed
    cases failed
  have returned := checkEach_returned named ready accepted
  simp only [checked] at returned
  exact returned

/-! ## Groups -/

theorem groupRound_ruled (size : 0 < b.maxBatchSize) (once : (items.map Identified.id).Nodup)
    {ending : Except ClientError (List (List Verdict))}
    (ends : (groupRound p b visits items).Ends trace ending)
    (honest : trace.AnsweredBy (respond rule p.storePath elsewhere)) :
    ∃ answers, ending = .ok answers ∧ answers.flatten.Perm (items.map (verdict rule p)) := by
  cases ending with
  | error e =>
    obtain ⟨i, q, here, failed, -⟩ := Round.ends_error_known ends honest
    obtain ⟨group, got, rfl⟩ := groupRound_request here
    obtain ⟨verdicts, settled, -⟩ := respond_settled rule elsewhere p (visits group)
      (group_nodup size once (List.mem_of_getElem? got))
    cases settled.symm.trans failed
  | ok answers =>
    refine ⟨answers, rfl, ?_⟩
    have known := Round.ends_ok_known ends honest
    rw [groupRound, List.forall₂_map_left_iff] at known
    have within := (List.forall₂_and_left _ _).mpr
      ⟨fun group (mem : group ∈ groups b.maxBatchSize items) => mem, known⟩
    have each : List.Forall₂ List.Perm answers
        ((groups b.maxBatchSize items).map (List.map (verdict rule p))) := by
      rw [List.forall₂_map_right_iff]
      refine List.Forall₂.flip (within.imp ?_)
      rintro group verdicts ⟨mem, settled⟩
      obtain ⟨_, again, perm⟩ := respond_settled rule elsewhere p (visits group)
        (group_nodup size once mem)
      cases settled.symm.trans again
      exact perm
    have whole := List.Perm.flatten_congr each
    rwa [← List.map_flatten, groups_flatten size] at whole

theorem checkGroups_returns {R : Except ClientError (List Verdict) → Prop}
    {answer : Call → Outcome} (named : identify supply questions = .ok items)
    (size : 0 < b.maxBatchSize) (ready : c.prepare b.request = .ok p)
    (empty : items = [] → R (.ok []))
    (holds : ∀ trace ending, (groupRound p b visits items).Ends trace ending →
      trace.AnsweredBy answer → R (ending.map List.flatten)) :
    (c.checkGroups supply questions b visits).Returns answer R := by
  by_cases none : items = []
  · subst none
    rw [checkGroups_empty named size]
    exact Program.returns_done (empty rfl)
  · rw [checkGroups_round named size none ready]
    exact Program.returns_single holds

theorem groupRound_sent (size : 0 < b.maxBatchSize) (once : (items.map Identified.id).Nodup)
    {ending : Except ClientError (List (List Verdict))}
    (ends : (groupRound p b visits items).Ends trace ending)
    (honest : trace.AnsweredBy (respond rule p.storePath elsewhere)) :
    trace.sent = (Pool.placed (groups b.maxBatchSize items)).map
      fun g => (g.1, p.groupCall g.2) := by
  obtain ⟨answers, rfl, -⟩ := groupRound_ruled size once ends honest
  rw [← groupRound_calls, ← (Round.ends_ok ends).1]
  obtain ⟨s, run, -⟩ := ends
  apply Round.sent_launches run
  rintro exchange mem ⟨err, failed, -⟩
  obtain ⟨q, here, asked⟩ := Round.exchanges_request run mem
  obtain ⟨group, -, rfl⟩ := groupRound_request here
  have answered := honest exchange mem
  rw [← asked, failed] at answered
  cases answered.trans (respond_group group)

/-- The calls of a batch that is checked in groups: as few as the size of the groups allows, and
none with more checks than that. -/
structure GroupsSent (p : Prepared) (size : Nat) (questions : List Question)
    (traces : List Trace) : Prop where
  count : (traces.flatMap Trace.sent).length = (questions.length + size - 1) / size
  bounds : ∀ sent ∈ traces.flatMap Trace.sent,
    sent.2.path = p.storePath ++ "/" ++ "batch-check" ∧ (Body.checks sent.2.body).length ≤ size

theorem groups_sent (size : 0 < b.maxBatchSize) (named : identify supply questions = .ok items)
    (ready : c.prepare b.request = .ok p) {result : Except ClientError (List Verdict)}
    (run : (c.checkGroups supply questions b visits).Yields traces result)
    (honest : ∀ trace ∈ traces, trace.AnsweredBy (respond rule p.storePath elsewhere)) :
    GroupsSent p b.maxBatchSize questions traces := by
  obtain ⟨names, once⟩ := identify_ok named
  have sent : traces.flatMap Trace.sent = (Pool.placed (groups b.maxBatchSize items)).map
      fun g => (g.1, p.groupCall g.2) := by
    rcases checkGroups_yields named size ready run with
      ⟨rfl, rfl, -⟩ | ⟨trace, ending, ends, rfl, -⟩
    · simp [groups, Pool.placed]
    · rw [List.flatMap_singleton]
      exact groupRound_sent size once ends (honest trace (List.mem_singleton_self trace))
  constructor
  · rw [sent, List.length_map, Pool.placed_length, groups_length size, names.length_eq]
  · rw [sent]
    intro call mem
    obtain ⟨⟨i, group⟩, placed, rfl⟩ := List.mem_map.mp mem
    have within := groups_bounds size (List.mem_of_getElem? (Pool.mem_placed.mp placed))
    have checks : Body.checks (p.groupCall group).body = group.map Body.batchItem :=
      Body.checks_batchCheck group _ _
    refine ⟨rfl, ?_⟩
    rw [checks, List.length_map]
    exact within.2

structure Ruled (rule : Inquiry → Bool) (p : Prepared) (q : Question) (v : Verdict) : Prop where
  question : v.question = { q with correlationId := some v.id }
  declared : ∀ id, q.correlationId = some id → v.id = id
  allowed : v.allowed = rule (q.inquiry p.modelId p.consistency)
  error : v.error = none

theorem ruled_names {q : Question} {item : Identified} (names : Names q item) :
    Ruled rule p q (verdict rule p item) where
  question := names.question
  declared := names.declared
  allowed := by
    change rule (item.question.inquiry p.modelId p.consistency) = _
    rw [names.question]
    rfl
  error := rfl

/-- Before a server that answers by a rule, checking the questions of a batch one by one and
checking them in groups report the same verdicts, whatever the sizes, limits and schedules; and the
groups take no more requests than their size asks for. -/
theorem strategies_agree (distinct : (declared questions).Nodup) (fresh : supply.Fresh questions)
    (agree : ∀ i < generatedCount questions, other i = supply i) (ready : c.prepare o = .ok p)
    (rule : Inquiry → Bool) (elsewhere : Call → Outcome) :
    ∃ verdicts, List.Forall₂ (Ruled rule p) questions verdicts ∧
      (∀ limit size, (c.checkEach supply questions ⟨o, limit, size⟩).Returns
        (respond rule p.storePath elsewhere) (· = .ok verdicts)) ∧
      ∀ limit size visits, 1 ≤ size →
        (c.checkGroups other questions ⟨o, limit, size⟩ visits).Returns
          (respond rule p.storePath elsewhere)
          (fun result => ∃ given, result = .ok given ∧ given.Perm verdicts) ∧
        ∀ traces result,
          (c.checkGroups other questions ⟨o, limit, size⟩ visits).Yields traces result →
          (∀ trace ∈ traces, trace.AnsweredBy (respond rule p.storePath elsewhere)) →
          GroupsSent p size questions traces := by
  have named := (identify_eq_ok_iff fresh).mpr ⟨distinct, rfl⟩
  have again := identify_congr distinct fresh agree
  obtain ⟨names, once⟩ := identify_ok named
  generalize itemsFrom supply 0 questions = items at named again names once
  refine ⟨items.map (verdict rule p), ?_, fun limit size => checkEach_ruled named ready, ?_⟩
  · rw [List.forall₂_map_right_iff]
    exact names.imp fun q item name => ruled_names name
  · intro limit size visits positive
    have pos : 0 < (⟨o, limit, size⟩ : BatchOptions).maxBatchSize := positive
    constructor
    · refine checkGroups_returns again pos ready ?_ fun trace ending ends honest => ?_
      · rintro rfl
        exact ⟨[], rfl, .refl _⟩
      · obtain ⟨answers, rfl, perm⟩ := groupRound_ruled pos once ends honest
        exact ⟨answers.flatten, rfl, perm⟩
    · exact fun traces result run honest => groups_sent pos again ready run honest

/-- Three questions in groups of two: two requests, and the verdicts of the rule. -/
theorem readers_agree : ∃ p verdicts, (ofStore (.ofNat 1)).prepare {} = .ok p ∧
    ((ofStore (.ofNat 1)).checkEach (fun _ => "g")
        [anneReads, bobReads, bobUnnamed] ⟨{}, 3, 2⟩).Returns
      (respond (fun asked => asked.user = "anne") p.storePath
        fun call => .error (.timeout call.path))
      (· = .ok verdicts) ∧
    ∃ traces given, ((ofStore (.ofNat 1)).checkGroups (fun _ => "g")
        [anneReads, bobReads, bobUnnamed] ⟨{}, 3, 2⟩).Yields traces (.ok given) ∧
      given.Perm verdicts ∧ (traces.flatMap Trace.sent).length = 2 := by
  obtain ⟨p, ready⟩ := ofStore_ready (.ofNat 1)
  have distinct : (declared [anneReads, bobReads, bobUnnamed]).Nodup := by decide
  have fresh : IdSupply.Fresh (fun _ => "g") [anneReads, bobReads, bobUnnamed] := by
    constructor <;> decide
  obtain ⟨verdicts, -, each, grouped⟩ := strategies_agree distinct fresh (fun _ _ => rfl) ready
    (fun asked => asked.user = "anne") fun call => .error (.timeout call.path)
  obtain ⟨returns, sent⟩ := grouped 3 2 (fun _ => .inOrder) (by decide)
  obtain ⟨traces, result, run, honest, -⟩ := returns.completes [] .idle (by simp)
  obtain ⟨given, rfl, perm⟩ := returns.result traces result run honest
  exact ⟨p, verdicts, ready, each 3 2, traces, given, run, perm, (sent traces _ run honest).count⟩

end Client

end Rebac
