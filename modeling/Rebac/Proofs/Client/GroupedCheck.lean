import Rebac.Proofs.Batch.Groups
import Rebac.Proofs.Batch.Identify
import Rebac.Proofs.Batch.Settle
import Rebac.Proofs.Client.Prepare
import Rebac.Proofs.Dispatch.Program
import Rebac.Proofs.Question.Body

set_option autoImplicit false

/-! # Checks in groups -/

namespace Rebac.Client

open Dispatch Batch

def groupRound (p : Prepared) (o : BatchOptions) (visits : List Identified → Visit)
    (items : List Identified) : Round (List Verdict) where
  policy := p.policy
  limit := o.maxParallel
  requests := (groups o.maxBatchSize items).map fun group => groupRequest p (visits group) group

variable {c : Client} {supply : IdSupply} {questions : List Question} {o : BatchOptions}
  {visits : List Identified → Visit} {items : List Identified} {p : Prepared}
  {traces : List Trace} {trace : Trace} {result : Except ClientError (List Verdict)}
  {e : ClientError}

theorem checkGroups_round (named : identify supply questions = .ok items)
    (size : 0 < o.maxBatchSize) (some : items ≠ []) (ready : c.prepare o.request = .ok p) :
    c.checkGroups supply questions o visits =
      .round (groupRound p o visits items) fun answers => .done (.ok answers.flatten)
        [.groupsChecked (allowedCount answers.flatten) (failedCount answers.flatten)] := by
  have cut : chunk items o.maxBatchSize = .ok (groups o.maxBatchSize items) := by
    rw [chunk, if_neg (Nat.ne_of_gt size)]
  have first := groups_eq size some
  simp only [checkGroups, named, cut, first, ready]
  rw [groupRound, first]

theorem checkGroups_empty (named : identify supply questions = .ok [])
    (size : 0 < o.maxBatchSize) : c.checkGroups supply questions o visits = .done (.ok []) [] := by
  have cut : chunk ([] : List Identified) o.maxBatchSize = .ok [] := by
    rw [chunk, if_neg (Nat.ne_of_gt size), groups]
  simp only [checkGroups, named, cut]

theorem checkGroups_shape (c : Client) (supply : IdSupply) (questions : List Question)
    (o : BatchOptions) (visits : List Identified → Visit) :
    (∃ cause, (o.maxBatchSize = 0 ∨ questions ≠ [] ∧
        (c.Unready o.request ∨ identify supply questions = .error cause)) ∧
      c.checkGroups supply questions o visits = .refuse (.validation cause)) ∨
    (questions = [] ∧ 0 < o.maxBatchSize ∧
      c.checkGroups supply questions o visits = .done (.ok []) []) ∨
    ∃ (items : List Identified) (p : Prepared) (events : List (List Verdict) → List Event),
      items ≠ [] ∧ identify supply questions = .ok items ∧ 0 < o.maxBatchSize ∧
      c.prepare o.request = .ok p ∧ c.checkGroups supply questions o visits =
        .round (groupRound p o visits items) fun answers =>
          .done (.ok answers.flatten) (events answers) := by
  cases named : identify supply questions with
  | error cause =>
    have some : questions ≠ [] := by
      rintro rfl
      cases named
    exact .inl ⟨cause, .inr ⟨some, .inr rfl⟩, by simp only [checkGroups, named]⟩
  | ok items =>
    by_cases zero : o.maxBatchSize = 0
    · have cut : chunk items o.maxBatchSize = .error (.invalidChunkSize o.maxBatchSize) := by
        rw [chunk, if_pos zero]
      exact .inl ⟨.invalidChunkSize o.maxBatchSize, .inl zero, by
        simp only [checkGroups, named, cut]⟩
    have size := Nat.pos_of_ne_zero zero
    by_cases none : items = []
    · subst none
      exact .inr (.inl ⟨(items_eq_nil_iff named).mp rfl, size, checkGroups_empty named size⟩)
    cases ready : c.prepare o.request with
    | error cause =>
      have cut : chunk items o.maxBatchSize = .ok (groups o.maxBatchSize items) := by
        rw [chunk, if_neg zero]
      have some : questions ≠ [] := mt (items_eq_nil_iff named).mpr none
      exact .inl ⟨cause, .inr ⟨some, .inl (prepare_refuses.mp ⟨cause, ready⟩)⟩, by
        simp only [checkGroups, named, cut, groups_eq size none, ready]⟩
    | ok p =>
      exact .inr (.inr ⟨items, p, _, none, rfl, size, rfl,
        checkGroups_round named size none ready⟩)

theorem checkGroups_ended (run : (c.checkGroups supply questions o visits).Yields traces result) :
    (∃ cause, result = .error (.validation cause)) ∨
    (identify supply questions = .ok [] ∧ 0 < o.maxBatchSize ∧ result = .ok []) ∨
    ∃ items p trace ending, identify supply questions = .ok items ∧ 0 < o.maxBatchSize ∧
      c.prepare o.request = .ok p ∧ (groupRound p o visits items).Ends trace ending ∧
      traces = [trace] ∧ result = ending.map List.flatten := by
  rcases checkGroups_shape c supply questions o visits with
    ⟨cause, -, eq⟩ | ⟨rfl, size, eq⟩ | ⟨items, p, events, -, named, size, ready, eq⟩
  · rw [eq] at run
    exact .inl ⟨cause, (Program.yields_refuse.mp run).2⟩
  · rw [eq] at run
    exact .inr (.inl ⟨rfl, size, (Program.yields_done.mp run).2⟩)
  · rw [eq] at run
    obtain ⟨trace, ending, ends, rfl, rfl⟩ := Program.yields_single.mp run
    exact .inr (.inr ⟨items, p, trace, ending, named, size, ready, ends, rfl, rfl⟩)

theorem checkGroups_yields (named : identify supply questions = .ok items)
    (size : 0 < o.maxBatchSize) (ready : c.prepare o.request = .ok p)
    (run : (c.checkGroups supply questions o visits).Yields traces result) :
    (items = [] ∧ traces = [] ∧ result = .ok []) ∨ ∃ trace ending,
      (groupRound p o visits items).Ends trace ending ∧ traces = [trace] ∧
        result = ending.map List.flatten := by
  by_cases none : items = []
  · subst none
    rw [checkGroups_empty named size] at run
    obtain ⟨rfl, rfl⟩ := Program.yields_done.mp run
    exact .inl ⟨rfl, rfl, rfl⟩
  · rw [checkGroups_round named size none ready] at run
    exact .inr (Program.yields_single.mp run)

/-! ## The requests of the groups -/

theorem groupRound_calls : (groupRound p o visits items).calls =
    (Pool.placed (groups o.maxBatchSize items)).map fun g => (g.1, p.groupCall g.2) := by
  rw [Round.calls, groupRound, Pool.placed_map, List.map_map]
  rfl

theorem groupRound_request {i : Nat} {q : Request (List Verdict)}
    (here : (groupRound p o visits items).requests[i]? = some q) :
    ∃ group, (groups o.maxBatchSize items)[i]? = some group ∧
      q = groupRequest p (visits group) group := by
  rw [groupRound, List.getElem?_map, Option.map_eq_some_iff] at here
  obtain ⟨group, got, eq⟩ := here
  exact ⟨group, got, eq.symm⟩

theorem group_nodup (size : 0 < o.maxBatchSize) (once : (items.map Identified.id).Nodup)
    {group : List Identified} (mem : group ∈ groups o.maxBatchSize items) :
    (group.map Identified.id).Nodup := by
  have within : group.Sublist items := by
    have sub := List.sublist_flatten_of_mem mem
    rwa [groups_flatten size] at sub
  exact once.sublist (within.map Identified.id)

theorem carried (size : 0 < o.maxBatchSize) (once : (items.map Identified.id).Nodup) {i j : Nat}
    {item : Identified} {group : List Identified} (there : items[j]? = some item)
    (got : (groups o.maxBatchSize items)[i]? = some group) :
    item ∈ group ↔ i = j / o.maxBatchSize := by
  constructor
  · intro mem
    obtain ⟨k, here, rfl⟩ := (mem_groups_iff size).mp ⟨group, got, mem⟩
    obtain ⟨lt, -⟩ := List.getElem?_eq_some_iff.mp here
    rw [(List.getElem?_inj lt (List.Nodup.of_map _ once)).mp (here.trans there.symm)]
  · rintro rfl
    obtain ⟨group', got', mem⟩ := (mem_groups_iff size).mpr ⟨j, there, rfl⟩
    rw [got'] at got
    exact Option.some.inj got ▸ mem

theorem ends_reported (size : 0 < o.maxBatchSize) (once : (items.map Identified.id).Nodup)
    {answers : List (List Verdict)}
    (ends : (groupRound p o visits items).Ends trace (.ok answers)) :
    ∃ inOrder, answers.flatten.Perm inOrder ∧ List.Forall₂ (fun placed verdict => ∃ outcome,
      trace.final? (placed.1 / o.maxBatchSize) = some outcome ∧ Reports outcome placed.2 verdict)
      (Pool.placed items) inOrder := by
  obtain ⟨-, settled⟩ := Round.ends_ok ends
  rw [groupRound, Pool.placed_map, List.forall₂_map_left_iff] at settled
  have distinct : ∀ g ∈ Pool.placed (groups o.maxBatchSize items),
      (g.2.map Identified.id).Nodup := by
    intro g mem
    exact group_nodup size once (List.mem_of_getElem? (Pool.mem_placed.mp mem))
  have each := (List.forall₂_and_left _ _).mpr ⟨distinct, settled⟩
  refine forall₂_groups_perm (R := fun i item verdict => ∃ outcome, trace.final? i = some outcome ∧
    Reports outcome item verdict) size (each.imp ?_)
  rintro ⟨i, group⟩ verdicts ⟨nodup, outcome, final, settle⟩
  obtain ⟨inOrder, perm, reports⟩ := settleGroup_ok nodup settle
  exact ⟨inOrder, perm, reports.imp fun item verdict report => ⟨outcome, final, report⟩⟩

theorem ends_verdict (named : identify supply questions = .ok items) (size : 0 < o.maxBatchSize)
    {answers : List (List Verdict)}
    (ends : (groupRound p o visits items).Ends trace (.ok answers)) {v : Verdict}
    (mem : v ∈ answers.flatten) :
    ∃ (j : Nat) (q : Question) (item : Identified) (outcome : Outcome),
      questions[j]? = some q ∧ items[j]? = some item ∧ Names q item ∧
      trace.final? (j / o.maxBatchSize) = some outcome ∧ Reports outcome item v := by
  obtain ⟨names, once⟩ := identify_ok named
  obtain ⟨inOrder, perm, reports⟩ := ends_reported size once ends
  obtain ⟨j, got⟩ := List.mem_iff_getElem?.mp (perm.mem_iff.mp mem)
  obtain ⟨placed, here, outcome, final, report⟩ := forall₂_get_right reports got
  rw [Pool.placed_get, Option.map_eq_some_iff] at here
  obtain ⟨item, there, rfl⟩ := here
  obtain ⟨q, asked, name⟩ := forall₂_get_right names there
  exact ⟨j, q, item, outcome, asked, there, name, final, report⟩

theorem ends_failed (ends : (groupRound p o visits items).Ends trace (.error e)) :
    ∃ i group outcome, (i, outcome) ∈ trace.finals ∧
      (groups o.maxBatchSize items)[i]? = some group ∧ Aborts group outcome e := by
  obtain ⟨i, outcome, q, final, here, settle⟩ := (Round.ends_error_iff ends e).mp rfl
  obtain ⟨group, got, rfl⟩ := groupRound_request here
  exact ⟨i, group, outcome, final, got, settleGroup_error settle⟩

theorem ends_aborted {ending : Except ClientError (List (List Verdict))}
    (ends : (groupRound p o visits items).Ends trace ending) {i : Nat} {group : List Identified}
    {outcome : Outcome} (final : (i, outcome) ∈ trace.finals)
    (got : (groups o.maxBatchSize items)[i]? = some group) (aborts : Aborts group outcome e) :
    ∃ f, ending = .error f := by
  obtain ⟨f, settle⟩ := settleGroup_aborts (visits group) aborts
  refine ⟨f, (Round.ends_error_iff ends f).mpr
    ⟨i, outcome, groupRequest p (visits group) group, final, ?_, settle⟩⟩
  rw [groupRound, List.getElem?_map, got]
  rfl

theorem groupCall_asks (p : Prepared) (group : List Identified) :
    (p.groupCall group).path = p.storePath ++ "/" ++ "batch-check" ∧
      (Body.checks (p.groupCall group).body).map Body.question? =
        group.map fun item => some { item.question with correlationId := some item.id } := by
  have checks : Body.checks (p.groupCall group).body = group.map Body.batchItem :=
    Body.checks_batchCheck group _ _
  refine ⟨rfl, ?_⟩
  rw [checks, List.map_map]
  exact List.map_congr_left fun item _ => Body.question?_batchItem item

structure Attributed (p : Prepared) (size : Nat) (questions : List Question)
    (items : List Identified) (traces : List Trace)
    (result : Except ClientError (List Verdict)) : Prop where
  named : List.Forall₂ Names questions items
  distinct : (items.map Identified.id).Nodup
  /-- The item at the place `j` is in the group `j / size`, and in no other. -/
  carried : ∀ j item i group, items[j]? = some item → (groups size items)[i]? = some group →
    (item ∈ group ↔ i = j / size)
  sent : ∀ verdicts, result = .ok verdicts → traces.flatMap Trace.launches =
    (Pool.placed (groups size items)).map fun g => (g.1, p.groupCall g.2)
  /-- The call of a group asks the questions of the group by their ids, and no others. -/
  asked : ∀ group ∈ groups size items,
    (p.groupCall group).path = p.storePath ++ "/" ++ "batch-check" ∧
    (Body.checks (p.groupCall group).body).map Body.question? =
      group.map fun item => some { item.question with correlationId := some item.id }
  reported : ∀ verdicts, result = .ok verdicts → ∃ inOrder, verdicts.Perm inOrder ∧
    List.Forall₂ (fun placed verdict => ∃ trace ∈ traces, ∃ outcome,
      trace.final? (placed.1 / size) = some outcome ∧ Reports outcome placed.2 verdict)
      (Pool.placed items) inOrder
  /-- Nothing but an outcome that ends the batch fails it, and with the error of that outcome. -/
  failed : ∀ e, result = .error e → ∃ trace ∈ traces, ∃ i group outcome,
    (i, outcome) ∈ trace.finals ∧ (groups size items)[i]? = some group ∧
      Aborts group outcome e
  aborted : ∀ trace ∈ traces, ∀ i group outcome e, (i, outcome) ∈ trace.finals →
    (groups size items)[i]? = some group → Aborts group outcome e → ∃ f, result = .error f

theorem empty_attributed (named : identify supply questions = .ok []) {size : Nat} :
    Attributed p size questions [] [] (.ok []) where
  named := (identify_ok named).1
  distinct := List.nodup_nil
  carried := by
    intro j item i group there
    cases there
  sent := by
    intro verdicts _
    simp [groups, Pool.placed]
  asked := fun group _ => groupCall_asks p group
  reported := by
    rintro verdicts eq
    cases eq
    exact ⟨[], .refl _, .nil⟩
  failed := by
    intro e eq
    cases eq
  aborted := by
    intro trace mem
    cases mem

theorem round_attributed (named : identify supply questions = .ok items)
    (size : 0 < o.maxBatchSize) {ending : Except ClientError (List (List Verdict))}
    (ends : (groupRound p o visits items).Ends trace ending) :
    Attributed p o.maxBatchSize questions items [trace] (ending.map List.flatten) := by
  obtain ⟨names, once⟩ := identify_ok named
  refine ⟨names, once, fun _ _ _ _ => carried size once, ?_, fun group _ => groupCall_asks p group,
    ?_, ?_, ?_⟩
  · intro verdicts eq
    cases ending with
    | error e => cases eq
    | ok answers => rw [List.flatMap_singleton, (Round.ends_ok ends).1, groupRound_calls]
  · intro verdicts eq
    cases ending with
    | error e => cases eq
    | ok answers =>
      cases eq
      obtain ⟨inOrder, perm, reports⟩ := ends_reported size once ends
      refine ⟨inOrder, perm, reports.imp ?_⟩
      rintro placed verdict ⟨outcome, final, report⟩
      exact ⟨trace, List.mem_singleton_self trace, outcome, final, report⟩
  · intro e eq
    cases ending with
    | ok answers => cases eq
    | error f =>
      cases eq
      exact ⟨trace, List.mem_singleton_self trace, ends_failed ends⟩
  · intro other mem i group outcome e final got aborts
    cases List.mem_singleton.mp mem
    obtain ⟨f, rfl⟩ := ends_aborted ends final got aborts
    exact ⟨f, rfl⟩

/-- Whatever the transport answers and in whatever order the requests of the groups end, a grouped
check reports one verdict for each question, decided by the outcome of its own request alone. -/
theorem grouped_check_attributed (named : identify supply questions = .ok items)
    (size : 0 < o.maxBatchSize) (ready : c.prepare o.request = .ok p)
    (run : (c.checkGroups supply questions o visits).Yields traces result) :
    Attributed p o.maxBatchSize questions items traces result := by
  rcases checkGroups_yields named size ready run with
    ⟨rfl, rfl, rfl⟩ | ⟨trace, ending, ends, rfl, rfl⟩
  · exact empty_attributed named
  · exact round_attributed named size ends

def anneReads : Question := ⟨"anne", "reader", "plan", some "a", [], none⟩

def bobReads : Question := ⟨"bob", "reader", "plan", some "b", [], none⟩

/-- Two groups of one question: the second is answered first, and the first times out. -/
theorem timed_out_group_attributed : ∃ p traces, (ofStore (.ofNat 1)).prepare {} = .ok p ∧
    Attributed p 1 [anneReads, bobReads] [⟨"a", anneReads⟩, ⟨"b", bobReads⟩] traces
      (.ok [.failed ⟨"a", anneReads⟩ (.ofCall (.timeout "batch-check")),
        .answered ⟨"b", bobReads⟩ true]) := by
  have named : identify (fun _ => "") [anneReads, bobReads] =
      .ok [⟨"a", anneReads⟩, ⟨"b", bobReads⟩] := rfl
  have cut : groups 1 [(⟨"a", anneReads⟩ : Identified), ⟨"b", bobReads⟩] =
      [[⟨"a", anneReads⟩], [⟨"b", bobReads⟩]] := by simp [groups]
  obtain ⟨p, ready⟩ := ofStore_ready (.ofNat 1)
  have run : ∃ traces, ((ofStore (.ofNat 1)).checkGroups (fun _ => "") [anneReads, bobReads]
      ⟨{}, 2, 1⟩).Yields traces (.ok [.failed ⟨"a", anneReads⟩ (.ofCall (.timeout "batch-check")),
        .answered ⟨"b", bobReads⟩ true]) := by
    simp only [checkGroups, named, chunk, cut, ready]
    exact ⟨_, .finished ⟨_, .next (.next (.next (.next .opened (c := .start) rfl)
      (c := .start) rfl) (c := .answer 1 (.ok ⟨200, .object
        [("result", .object [("b", .object [("allowed", .bool true)])])]⟩) ⟨0, 0⟩) rfl)
      (c := .answer 0 (.error (.timeout "batch-check")) ⟨0, 0⟩) rfl, rfl⟩ .done⟩
  obtain ⟨traces, run⟩ := run
  exact ⟨p, traces, ready, grouped_check_attributed named (by decide) ready run⟩

end Rebac.Client
