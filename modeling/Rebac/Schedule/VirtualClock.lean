import Rebac.Dispatch.Program
import Rebac.Transport.Script

set_option autoImplicit false

/-!
# Runs on a virtual clock

One schedule among all: time moves only when nothing else can happen, a call takes the latency of
the transport, and a wait takes its length in whole milliseconds, a part of one counting as a
whole. What becomes possible first happens first. An answer without latency comes once everything
else that was possible has happened, and a request that has ended makes room behind all that is
already possible.
-/
namespace Rebac.Schedule

open Dispatch

inductive Turn where
  | start
  | answer (place : Nat) (call : Call) (number : Nat)
  | wake (place : Nat)

/-- What can happen now, what can happen when that is done, and what happens later. -/
structure Agenda where
  ready : List Turn
  yielded : List Turn
  timers : List (Nat × Turn)

structure World where
  script : Transport.Script
  gauge : Transport.Gauge
  latency : Nat
  epoch : Instant
  clock : Nat
  calls : List (Nat × Call)
  events : List Event

def ticks (wait : Duration) : Nat := (wait.nanos + 999999) / Nat.pow 10 6

def World.now (w : World) : Instant := { w.epoch with secs := w.epoch.secs + (w.clock / 1000 : Nat) }

def Agenda.next? (a : Agenda) (clock : Nat) : Option (Turn × Nat × Agenda) :=
  match a.ready with
  | turn :: ready => some (turn, clock, { a with ready })
  | [] =>
    match a.yielded with
    | turn :: ready => some (turn, clock, { a with ready, yielded := [] })
    | [] =>
      match (a.timers.map Prod.fst).min? with
      | none => none
      | some due =>
        match (a.timers.filter fun t => t.1 = due).map Prod.snd with
        | [] => none
        | turn :: ready =>
          some (turn, due, { ready, yielded := [], timers := a.timers.filter fun t => t.1 ≠ due })

def apply (wa : World × Agenda) (effect : Effect) : World × Agenda :=
  let (w, a) := wa
  match effect with
  | .sent place call =>
    let (number, gauge) := w.gauge.arrive
    let w := { w with gauge, calls := (w.clock, call) :: w.calls }
    let turn := Turn.answer place call number
    if w.latency = 0 then (w, { a with yielded := a.yielded ++ [turn] })
    else (w, { a with timers := a.timers ++ [(w.clock + w.latency, turn)] })
  | .paused place wait =>
    if ticks wait = 0 then (w, { a with ready := .wake place :: a.ready })
    else (w, { a with timers := a.timers ++ [(w.clock + ticks wait, .wake place)] })
  | .completed _ _ => (w, { a with ready := a.ready ++ [.start] })
  | .noted event => ({ w with events := event :: w.events }, a)

variable {τ α : Type}

def choose (w : World) : Turn → Choice × World
  | .start => (.start, w)
  | .wake place => (.wake place, w)
  | .answer place call number =>
    let (outcome, gauge) := w.script.answer w.gauge call number
    (.answer place outcome w.now, { w with gauge })

def loop (policy : Retry.Policy) :
    Nat → World → Agenda → Progress τ → Option (Except ClientError (List τ) × World)
  | 0, _, _, _ => none
  | fuel + 1, w, a, s =>
    match s.ending? with
    | some result => some (result, w)
    | none =>
      match a.next? w.clock with
      | none => none
      | some (turn, clock, a) =>
        let (choice, w) := choose { w with clock } turn
        match Round.next? policy s choice with
        | none => loop policy fuel w a s
        | some (s, effects) =>
          let (w, a) := effects.foldl apply (w, a)
          loop policy fuel w a s

/-- More turns than a round can take: each attempt of a request has an answer and a wait. -/
def turns (r : Round τ) : Nat := (r.requests.length + 1) * (2 * r.policy.maxRetries + 8)

def runRound (w : World) (r : Round τ) : Option (Except ClientError (List τ) × World) :=
  let room := min (max 1 r.limit) r.requests.length
  loop r.policy (turns r) w ⟨List.replicate room .start, [], []⟩ r.opening

def run (w : World) : Program τ α → Option (Except ClientError α × World)
  | .done result events => some (result, { w with events := events.reverse ++ w.events })
  | .round r next =>
    match runRound w r with
    | none => none
    | some (.error e, w) => some (.error e, w)
    | some (.ok results, w) => run w (next results)

end Rebac.Schedule
