import Rebac.Client.Batch
import Rebac.Client.Write
import Rebac.Proofs.Client.GroupedCheck
import Rebac.Proofs.Dispatch.Reworded
import Rebac.Proofs.Settings.Resolve
import Rebac.Proofs.Time.Duration

set_option autoImplicit false

/-!
# Choices of a client and of an operation

A policy and a timeout may be chosen for a client or for an operation. An operation knows them as
they are prepared for it alone, so it does the same wherever they were chosen. But the settings of a
client are in whole milliseconds: what is shorter is lost there, and kept by an operation.
-/
namespace Rebac

open Dispatch Batch

namespace Client

variable {s : Settings} {c c' : Client} {o o' : RequestOptions} {p : Retry.Policy} {d : Duration}

/-- Two clients do the same under their options: every operation of one is the same program as that
of the other, with the same calls, timeouts and waits under every schedule. -/
structure SameOperations (c : Client) (o : RequestOptions) (c' : Client) (o' : RequestOptions) :
    Prop where
  check : ∀ q, c.check q o = c'.check q o'
  listObjects : ∀ q, c.listObjects q o = c'.listObjects q o'
  checkEach : ∀ supply questions (b : BatchOptions),
    c.checkEach supply questions { b with request := o } =
      c'.checkEach supply questions { b with request := o' }
  checkGroups : ∀ supply questions (b : BatchOptions) visits,
    c.checkGroups supply questions { b with request := o } visits =
      c'.checkGroups supply questions { b with request := o' } visits
  write : ∀ request (w : WriteOptions),
    c.write request { w with request := o } = c'.write request { w with request := o' }
  listRelations : ∀ supply q (b : BatchOptions),
    c.listRelations supply q { b with request := o } =
      c'.listRelations supply q { b with request := o' }

theorem checkEach_same (same : c.prepare o = c'.prepare o') (supply : IdSupply)
    (questions : List Question) (b : BatchOptions) :
    c.checkEach supply questions { b with request := o } =
      c'.checkEach supply questions { b with request := o' } := by
  simp only [checkEach, same]

theorem same_operations (same : c.prepare o = c'.prepare o') : c.SameOperations o c' o' where
  check q := by simp only [check, same]
  listObjects q := by simp only [listObjects, same]
  checkEach := checkEach_same same
  checkGroups supply questions b visits := by simp only [checkGroups, same]
  write request w := by simp only [write, same, writeAtOnce, writeChunks]
  listRelations supply q b := by simp only [listRelations, checkEach_same same]

/-! ## The choices of settings -/

def choosing (s : Settings) (p : Retry.Policy) (d : Duration) : Settings :=
  (s.withRetry p).withTimeout d

def overriding (o : RequestOptions) (p : Retry.Policy) (d : Duration) : RequestOptions :=
  { o with retry := some p, timeout := some d }

/-- A policy and a timeout whose durations can be written down in milliseconds. -/
structure Writable (p : Retry.Policy) (d : Duration) : Prop where
  minWait : p.minWait ≤ .longestMillis
  maxWait : p.maxWait ≤ .longestMillis
  timeout : d ≤ .longestMillis

theorem policy_ofPolicy (writable : Writable p d) :
    (RetrySettings.ofPolicy p).policy = p.whole := by
  rw [RetrySettings.policy, RetrySettings.ofPolicy, Duration.ofMillis_millis64 writable.minWait,
    Duration.ofMillis_millis64 writable.maxWait, Retry.Policy.whole]

theorem validate_ok (few : p.maxRetries ≤ 15) : p.validate = .ok () := by
  exact if_neg (Nat.not_lt.mpr few)

theorem choosing_resolves (opened : s.resolve = .ok c) (few : p.maxRetries ≤ 15)
    (writable : Writable p d) :
    (choosing s p d).resolve = .ok { c with retry := p.whole, timeout := d.whole } := by
  obtain ⟨url, storeId, modelId, checked, store, model, -, rfl⟩ := Settings.resolve_ok.mp opened
  have url' : (choosing s p d).checkUrl = s.checkUrl := Settings.checkUrl_congr rfl
  have headers : (choosing s p d).standingHeaders = s.standingHeaders :=
    Settings.standingHeaders_congr rfl rfl
  have policy : (choosing s p d).retry.policy = p.whole := policy_ofPolicy writable
  have timeout : (choosing s p d).timeout = d.whole := Duration.ofMillis_millis64 writable.timeout
  refine Settings.resolve_ok.mpr ⟨url, storeId, modelId, url'.trans checked, store, model, ?_, ?_⟩
  · rw [policy]
    exact validate_ok (p.whole_maxRetries.symm ▸ few)
  · rw [headers, policy, timeout]

theorem prepare_overriding (retry : o.retry = none) (timeout : o.timeout = none) :
    ({ c with retry := p, timeout := d } : Client).prepare o = c.prepare (overriding o p d) := by
  simp only [prepare, chooseModel, overriding, retry, timeout, Option.getD_none, Option.getD_some]

/-- A client that has a policy and a timeout of its own does what a client without them does when
each operation has their whole milliseconds. So it does the same as when each operation has them, if
they are in whole milliseconds. -/
theorem settings_chosen_in_millis (opened : s.resolve = .ok c) (few : p.maxRetries ≤ 15)
    (writable : Writable p d) (retry : o.retry = none) (timeout : o.timeout = none) :
    ∃ c', (choosing s p d).resolve = .ok c' ∧
      c'.SameOperations o c (overriding o p.whole d.whole) ∧
      (10 ^ 6 ∣ p.minWait.nanos → 10 ^ 6 ∣ p.maxWait.nanos → 10 ^ 6 ∣ d.nanos →
        c'.SameOperations o c (overriding o p d)) := by
  have same : ({ c with retry := p.whole, timeout := d.whole } : Client).SameOperations o c
      (overriding o p.whole d.whole) := same_operations (prepare_overriding retry timeout)
  refine ⟨_, choosing_resolves opened few writable, same, fun minWait maxWait whole => ?_⟩
  have policy : p.whole = p := by
    rw [Retry.Policy.whole, Duration.whole_eq minWait, Duration.whole_eq maxWait]
  rwa [policy, Duration.whole_eq whole] at same ⊢

def first : Settings where
  apiUrl := "http://localhost"
  storeId := some "00000000000000000000000001"

def firstClient : Client := ⟨some (.ofNat 1), none, [], first.retry.policy, first.timeout⟩

theorem first_resolves : first.resolve = .ok firstClient :=
  Fallible.toOption_ok.mp (by decide +kernel)

def steady : Retry.Policy := ⟨2, .ofMillis 500, .ofSeconds 5⟩

theorem half_second_chosen : ∃ c', (choosing first steady (.ofSeconds 1)).resolve = .ok c' ∧
    c'.SameOperations {} firstClient (overriding {} steady (.ofSeconds 1)) := by
  obtain ⟨c', opened, -, same⟩ := settings_chosen_in_millis (o := {}) first_resolves (p := steady)
    (d := .ofSeconds 1) (by decide) ⟨by decide, by decide, by decide⟩ rfl rfl
  exact ⟨c', opened, same (by decide) (by decide) (by decide)⟩

def brisk : Retry.Policy := ⟨1, ⟨500000, by decide⟩, .ofMillis 10⟩

def overloaded : List Choice := [.answer 0 (.error (.http 503 none none)) ⟨0, 0⟩, .start]

/-- Before the second attempt a client with the brisk policy waits no time, and an operation with it
waits half a millisecond. -/
theorem half_millisecond_lost :
    ¬ ∀ (s : Settings) (c c' : Client) (p : Retry.Policy) (d : Duration), s.resolve = .ok c →
      p.maxRetries ≤ 15 → Writable p d → (choosing s p d).resolve = .ok c' →
      ∀ q traces traces', (c'.check q {}).Runs traces →
        (c.check q (overriding {} p d)).Runs traces' →
        traces.map Trace.choices = traces'.map Trace.choices →
        traces.map Trace.waits = traces'.map Trace.waits := by
  intro same
  have writable : Writable brisk (.ofSeconds 1) := ⟨by decide, by decide, by decide⟩
  have few : brisk.maxRetries ≤ 15 := by decide
  have opened := choosing_resolves first_resolves few writable
  have chosen : ∃ trace, (({ firstClient with
      retry := brisk.whole, timeout := (Duration.ofSeconds 1).whole } : Client).check
        anneReads {}).Runs [trace] ∧ trace.choices = overloaded ∧ trace.waits = [(0, .zero)] :=
    ⟨_, .within (.next (.next .opened (c := .start) rfl)
      (c := .answer 0 (.error (.http 503 none none)) ⟨0, 0⟩) rfl), rfl, rfl⟩
  have overridden : ∃ trace, (firstClient.check anneReads
      (overriding {} brisk (.ofSeconds 1))).Runs [trace] ∧ trace.choices = overloaded ∧
        trace.waits = [(0, brisk.minWait)] :=
    ⟨_, .within (.next (.next .opened (c := .start) rfl)
      (c := .answer 0 (.error (.http 503 none none)) ⟨0, 0⟩) rfl), rfl, rfl⟩
  obtain ⟨trace, run, made, waits⟩ := chosen
  obtain ⟨trace', run', made', waits'⟩ := overridden
  have choices : [trace].map Trace.choices = [trace'].map Trace.choices := by
    rw [List.map_singleton, List.map_singleton, made, made']
  have alike := same first firstClient _ brisk (.ofSeconds 1) first_resolves few writable opened
    anneReads [trace] [trace'] run run' choices
  rw [List.map_singleton, List.map_singleton, waits, waits'] at alike
  exact absurd alike (by decide)

end Client

end Rebac
