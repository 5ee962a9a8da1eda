import Rebac.Proofs.Client.Calls
import Rebac.Proofs.Schedule.Gauge

set_option autoImplicit false

/-!
# Sessions over one transport

Operations that share a transport are run one after another. An operation that fails may give up
calls that await their answer; the transport counts them as waiting from then on, and its peak with
them. Only in a session in which none gives up a call is the transport's count that of the calls
that await their answer.
-/
namespace Rebac

open Dispatch Batch Transport Schedule

/-! ## Operations -/

inductive Operation where
  | check (q : Question) (o : RequestOptions)
  | listObjects (q : ObjectsQuestion) (o : RequestOptions)
  | checkEach (supply : IdSupply) (questions : List Question) (o : BatchOptions)
  | checkGroups (supply : IdSupply) (questions : List Question) (o : BatchOptions)
      (visits : List Identified → Visit)
  | write (request : WriteRequest) (o : WriteOptions)
  | listRelations (supply : IdSupply) (q : RelationsQuestion) (o : BatchOptions)

namespace Operation

abbrev Part : Operation → Type
  | check _ _ => Bool
  | listObjects _ _ => List String
  | checkEach _ _ _ => Verdict
  | checkGroups _ _ _ _ => List Verdict
  | write _ _ => List TupleOutcome
  | listRelations _ _ _ => Verdict

abbrev Result : Operation → Type
  | check _ _ => Bool
  | listObjects _ _ => List String
  | checkEach _ _ _ => List Verdict
  | checkGroups _ _ _ _ => List Verdict
  | write _ _ => WriteReport
  | listRelations _ _ _ => List String

def program (c : Client) : (op : Operation) → Program op.Part op.Result
  | check q o => c.check q o
  | listObjects q o => c.listObjects q o
  | checkEach supply questions o => c.checkEach supply questions o
  | checkGroups supply questions o visits => c.checkGroups supply questions o visits
  | write request o => c.write request o
  | listRelations supply q o => c.listRelations supply q o

def limit : Operation → Nat
  | check _ _ => 1
  | listObjects _ _ => 1
  | checkEach _ _ o => max 1 o.maxParallel
  | checkGroups _ _ o _ => max 1 o.maxParallel
  | write _ o => if o.transaction.transactional then 1 else max 1 o.transaction.maxParallel
  | listRelations _ _ o => max 1 o.maxParallel

theorem program_within (c : Client) (op : Operation) :
    (op.program c).EveryRound (Within op.limit) := by
  cases op with
  | check q o => exact Client.askOnce_every fun _ _ => Nat.le_refl 1
  | listObjects q o => exact Client.askOnce_every fun _ _ => Nat.le_refl 1
  | checkEach supply questions o => exact Client.checkEach_every fun _ _ _ => Nat.le_refl _
  | checkGroups supply questions o visits =>
    exact Client.checkGroups_every fun _ _ _ => Nat.le_refl _
  | write request o =>
    refine Client.write_every (fun p settle _ once => ?_) fun p side tuples _ chunked => ?_
    · rw [limit, if_pos once]
      exact Nat.le_refl 1
    · rw [limit, if_neg (by simp [chunked])]
      exact Nat.le_refl _
  | listRelations supply q o => exact Client.listRelations_every fun _ _ _ => Nat.le_refl _

theorem limit_pos (op : Operation) : 0 < op.limit := by
  cases op <;> simp only [limit] <;> try omega
  split <;> omega

end Operation

/-! ## Deeds -/

/-- An operation that a client was asked for, with the traces of what it has done so far. -/
structure Deed where
  client : Client
  operation : Operation
  traces : List Trace

namespace Deed

def job (d : Deed) : Client × Operation := (d.client, d.operation)

def Works (d : Deed) : Prop := (d.operation.program d.client).Runs d.traces

def Returned (d : Deed) (result : Except ClientError d.operation.Result) : Prop :=
  (d.operation.program d.client).Yields d.traces result

def Over (d : Deed) : Prop := ∃ result, d.Returned result

def sent (d : Deed) : Nat := sentIn d.traces

/-- How many calls have been sent and not been answered. They await their answer while the
operation is at work, and are given up once it is over. -/
def unanswered (d : Deed) : Nat := unansweredIn d.traces

def busiest (d : Deed) : Nat := busiestIn d.traces

def count (g : Gauge) (d : Deed) : Gauge := d.traces.foldl Gauge.through g

variable {d : Deed}

theorem Over.works (done : d.Over) : d.Works := by
  obtain ⟨result, returned⟩ := done
  exact returned.runs

theorem count_counts (works : d.Works) {g : Gauge} (high : g.waiting ≤ g.peak) :
    Counts g d.sent d.unanswered d.busiest (d.count g) :=
  runs_counts works high

theorem Works.unanswered_busiest (works : d.Works) : d.unanswered ≤ d.busiest :=
  runs_unanswered_busiest works

theorem Works.busiest_le (works : d.Works) : d.busiest ≤ d.operation.limit :=
  runs_busiest (d.operation.program_within d.client) works

theorem Over.unanswered_lt (done : d.Over) : d.unanswered < d.operation.limit := by
  obtain ⟨result, returned⟩ := done
  exact yields_unanswered (d.operation.program_within d.client) d.operation.limit_pos returned

theorem Returned.answered {result : d.operation.Result} (returned : d.Returned (.ok result)) :
    d.unanswered = 0 := yields_ok_unanswered returned

end Deed

/-! ## Sessions -/

def sentBy (deeds : List Deed) : Nat := (deeds.map Deed.sent).sum

def givenUp (deeds : List Deed) : Nat := (deeds.map Deed.unanswered).sum

def mostAtOnce (deeds : List Deed) : Nat := (deeds.map Deed.busiest).foldr max 0

/-- The largest number of calls that have awaited their answer at once, and of those that had been
given up by then, both together. -/
def highest : List Deed → Nat
  | [] => 0
  | d :: later => max d.busiest (d.unanswered + highest later)

/-- What a transport has counted of a session: some operations are over, one may be at work. -/
structure Gauged (past : List Deed) (now : Deed) (g : Gauge) : Prop where
  arrived : g.arrived = sentBy (past ++ [now])
  /-- Those that were given up are never counted down. -/
  waiting : g.waiting = givenUp past + now.unanswered
  peak : g.peak = highest (past ++ [now])
  least : mostAtOnce (past ++ [now]) ≤ g.peak
  most : g.peak ≤ givenUp past + mostAtOnce (past ++ [now])
  limit : ∀ limit, (∀ d ∈ past ++ [now], d.operation.limit ≤ limit) →
    mostAtOnce (past ++ [now]) ≤ limit
  /-- An operation gives up calls only if it fails, and then not all that it may have under way. -/
  given : ∀ d ∈ past, d.unanswered < d.operation.limit
  answered : ∀ d ∈ past, ∀ result, d.Returned (.ok result) → d.unanswered = 0
  /-- Both counters are right as long as no call has been given up. -/
  right : givenUp past = 0 → g.waiting = now.unanswered ∧ g.peak = mostAtOnce (past ++ [now])

theorem deeds_counts {deeds : List Deed} (works : ∀ d ∈ deeds, d.Works) {g : Gauge}
    (high : g.waiting ≤ g.peak) :
    Counts g (sentBy deeds) (givenUp deeds) (highest deeds) (deeds.foldl Deed.count g) := by
  induction deeds generalizing g with
  | nil => exact ⟨rfl, rfl, (Nat.max_eq_left high).symm⟩
  | cons d later ih =>
    obtain ⟨first, others⟩ := List.forall_mem_cons.mp works
    have counts := Deed.count_counts first high
    exact counts.trans (ih others (counts.high first.unanswered_busiest))

theorem highest_bounds (past : List Deed) {now : Deed} (works : now.Works) :
    mostAtOnce (past ++ [now]) ≤ highest (past ++ [now]) ∧
      highest (past ++ [now]) ≤ givenUp past + mostAtOnce (past ++ [now]) := by
  induction past with
  | nil =>
    have most := works.unanswered_busiest
    simp only [List.nil_append, mostAtOnce, highest, givenUp, List.map_cons, List.map_nil,
      List.foldr_cons, List.foldr_nil, List.sum_nil]
    omega
  | cons d later ih =>
    obtain ⟨least, most⟩ := ih
    simp only [List.cons_append, mostAtOnce, highest, givenUp, List.map_cons, List.foldr_cons,
      List.sum_cons] at least most ⊢
    omega

theorem mostAtOnce_le {deeds : List Deed} {limit : Nat} (works : ∀ d ∈ deeds, d.Works)
    (within : ∀ d ∈ deeds, d.operation.limit ≤ limit) : mostAtOnce deeds ≤ limit := by
  induction deeds with
  | nil => exact Nat.zero_le _
  | cons d later ih =>
    obtain ⟨first, others⟩ := List.forall_mem_cons.mp works
    obtain ⟨here, there⟩ := List.forall_mem_cons.mp within
    exact Nat.max_le.mpr ⟨Nat.le_trans first.busiest_le here, ih others there⟩

theorem givenUp_append (past : List Deed) (now : Deed) :
    givenUp (past ++ [now]) = givenUp past + now.unanswered := by
  simp [givenUp]

theorem deeds_gauged (s : Script) {past : List Deed} {now : Deed} (done : ∀ d ∈ past, d.Over)
    (works : now.Works) : Gauged past now ((past ++ [now]).foldl Deed.count (Gauge.start s)) := by
  have all : ∀ d ∈ past ++ [now], d.Works := by
    intro d mem
    rcases List.mem_append.mp mem with before | last
    · exact (done d before).works
    · rw [List.mem_singleton.mp last]
      exact works
  obtain ⟨arrived, waiting, peak⟩ := deeds_counts all (g := Gauge.start s) (Nat.le_refl 0)
  have zero : (Gauge.start s).arrived = 0 ∧ (Gauge.start s).waiting = 0 ∧
      (Gauge.start s).peak = 0 := ⟨rfl, rfl, rfl⟩
  simp only [zero, Nat.zero_add, Nat.zero_max] at arrived waiting peak
  obtain ⟨least, most⟩ := highest_bounds past works
  rw [givenUp_append] at waiting
  exact
    { arrived, waiting, peak
      least := peak ▸ least
      most := peak ▸ most
      limit := fun _ => mostAtOnce_le all
      given := fun d mem => (done d mem).unanswered_lt
      answered := fun d _ result => Deed.Returned.answered
      right := fun none => by omega }

theorem Gauged.of_counters {past : List Deed} {now : Deed} {g h : Gauge}
    (gauged : Gauged past now h) (same : g.counters = h.counters) : Gauged past now g := by
  simp only [Gauge.counters, Prod.mk.injEq] at same
  obtain ⟨arrived, waiting, peak⟩ := same
  exact
    { gauged with
      arrived := arrived.trans gauged.arrived
      waiting := waiting.trans gauged.waiting
      peak := peak.trans gauged.peak
      least := peak ▸ gauged.least
      most := peak ▸ gauged.most
      right := fun none => ⟨waiting.trans (gauged.right none).1, peak.trans (gauged.right none).2⟩ }

/-! ## Sessions on the virtual clock -/

def Schedule.session (w : World) : List (Client × Operation) → Option World
  | [] => some w
  | (c, op) :: later =>
    match run w (op.program c) with
    | none => none
    | some (_, w') => session w' later

theorem deeds_congr {g h : Gauge} (same : g.counters = h.counters) (deeds : List Deed) :
    (deeds.foldl Deed.count g).counters = (deeds.foldl Deed.count h).counters := by
  induction deeds generalizing g h with
  | nil => exact same
  | cons d later ih => exact ih (Gauge.throughAll_congr same d.traces)

theorem session_deeds {w w' : World} {jobs : List (Client × Operation)}
    (ran : session w jobs = some w') : ∃ deeds : List Deed, deeds.map Deed.job = jobs ∧
      (∀ d ∈ deeds, d.Over) ∧
      w'.gauge.counters = (deeds.foldl Deed.count w.gauge).counters := by
  induction jobs generalizing w with
  | nil =>
    cases ran
    exact ⟨[], rfl, by simp, rfl⟩
  | cons job later ih =>
    obtain ⟨c, op⟩ := job
    unfold session at ran
    split at ran
    · cases ran
    · rename_i result next first
      obtain ⟨traces, plays⟩ := run_plays first
      obtain ⟨deeds, jobs, done, same⟩ := ih ran
      refine ⟨⟨c, op, traces⟩ :: deeds, by rw [List.map_cons, jobs]; rfl, ?_, ?_⟩
      · exact List.forall_mem_cons.mpr ⟨⟨result, plays.yields⟩, done⟩
      · rw [same, List.foldl_cons]
        exact deeds_congr plays.counters deeds

structure Gauges (s : Script) : Prop where
  counted : ∀ past now, (∀ d ∈ past, d.Over) → now.Works →
    Gauged past now ((past ++ [now]).foldl Deed.count (Gauge.start s))
  played : ∀ w jobs w', w.gauge = Gauge.start s → session w jobs = some w' →
    ∃ past : List Deed, past.map Deed.job = jobs ∧ (∀ d ∈ past, d.Over) ∧
      ∀ now : Deed, now.traces = [] → Gauged past now w'.gauge

theorem Deed.works_of_idle {d : Deed} (idle : d.traces = []) : d.Works := by
  rw [Works, idle]
  exact .idle

/-- A transport counts the calls that await their answer and all that have been given up, at every
point of every session: only while no call is given up, it counts as its callers do. -/
theorem sessions_gauged (s : Script) : Gauges s where
  counted _ _ := deeds_gauged s
  played w jobs w' opened ran := by
    obtain ⟨past, asked, done, same⟩ := session_deeds ran
    refine ⟨past, asked, done, fun now idle => ?_⟩
    have gauged := deeds_gauged s done (now.works_of_idle idle)
    refine gauged.of_counters ?_
    rw [same, opened, List.foldl_append, List.foldl_cons, List.foldl_nil, Deed.count, idle,
      List.foldl_nil]

/-- A transport that puts off the checks of two users once. Then it rejects the credentials for one
of them while the other awaits an answer. -/
def puttingOff : Script :=
  let later (hint : String) : Reply := .outcome (.error (.http 503 (some hint) none))
  let yes : Reply := .outcome (.ok ⟨200, .object [("allowed", .bool true)]⟩)
  let user (name : String) : List (String × Json) := [("/tuple_key/user", .string name)]
  { rules :=
      [⟨none, user "user:anne", [later "0", .outcome (.error (.http 401 none none))]⟩,
        ⟨none, user "user:bob", [later "0.005s", yes]⟩]
    replies := []
    default := yes }

def tenMillis : World where
  script := puttingOff
  gauge := Gauge.start puttingOff
  latency := 10
  epoch := ⟨1790000000, 0⟩
  clock := 0
  calls := []
  events := []

def pair (first second : String) : Client × Operation :=
  let reads (id user : String) : Question := ⟨user, "viewer", "document:roadmap", some id, [], none⟩
  (.ofStore (.ofNat 1), .checkEach (fun i => toString i) [reads "a" first, reads "b" second]
    { maxParallel := 2 })

/-- The call that the first batch gives up is still counted when the second is over, though neither
has more than two calls under way. -/
theorem dropped_call_counted :
    (session tenMillis [pair "user:anne" "user:bob"]).map (fun w => w.gauge.waiting) = some 1 ∧
    (session tenMillis [pair "user:anne" "user:bob", pair "user:carl" "user:dora"]).map
      (fun w => w.gauge.peak) = some 3 ∧
    (pair "user:anne" "user:bob").2.limit = 2 ∧ (pair "user:carl" "user:dora").2.limit = 2 := by
  decide +kernel

/-- With a call given up the peak is more than were ever under way at once; with none it is as
many. -/
theorem dropped_call_raises_peak :
    (∃ (past : List Deed) (now : Deed) (w : World), now.traces = [] ∧
      past.map Deed.job = [pair "user:anne" "user:bob", pair "user:carl" "user:dora"] ∧
      (∀ d ∈ past, d.Over) ∧ Gauged past now w.gauge ∧
      givenUp past = 1 ∧ mostAtOnce (past ++ [now]) = 2 ∧ w.gauge.peak = 3) ∧
    ∃ (past : List Deed) (now : Deed), now.traces = [] ∧
      past.map Deed.job = [pair "user:carl" "user:dora"] ∧ (∀ d ∈ past, d.Over) ∧
      Gauged past now ((past ++ [now]).foldl Deed.count (Gauge.start puttingOff)) ∧
      givenUp past = 0 := by
  let idle : Deed := ⟨.ofStore (.ofNat 1), (pair "user:anne" "user:bob").2, []⟩
  constructor
  · obtain ⟨w, ran, counted⟩ := Option.map_eq_some_iff.mp (show
        (session tenMillis [pair "user:anne" "user:bob", pair "user:carl" "user:dora"]).map
          (fun w => (w.gauge.waiting, w.gauge.peak)) = some (1, 3) by decide +kernel)
    obtain ⟨waiting, peak⟩ := Prod.mk.inj counted
    obtain ⟨past, asked, done, gauged⟩ := (sessions_gauged puttingOff).played _ _ w rfl ran
    have gauged := gauged idle rfl
    have given : givenUp past = 1 := gauged.waiting.symm.trans waiting
    have most := gauged.most
    have limits : ∀ job ∈ (past ++ [idle]).map Deed.job, job.2.limit ≤ 2 := by
      rw [List.map_append, asked]
      decide
    have limit := gauged.limit 2 fun d mem => limits d.job (List.mem_map_of_mem mem)
    exact ⟨past, idle, w, rfl, asked, done, gauged, given, by omega, peak⟩
  · obtain ⟨w, ran, waiting⟩ := Option.map_eq_some_iff.mp (show
        (session tenMillis [pair "user:carl" "user:dora"]).map (fun w => w.gauge.waiting) =
          some 0 by decide +kernel)
    obtain ⟨past, asked, done, gauged⟩ := (sessions_gauged puttingOff).played _ _ w rfl ran
    have given : givenUp past = 0 := (gauged idle rfl).waiting.symm.trans waiting
    exact ⟨past, idle, rfl, asked, done,
      (sessions_gauged puttingOff).counted past idle done .idle, given⟩

end Rebac
