import Rebac.Http.Exchange
import Rebac.Json.Pointer
import Rebac.Tuple

set_option autoImplicit false

/-!
# Scripted transports

A transport whose answers are written down beforehand: by rules on the path and the body of a
call, else by the place of the call in the order of arrival, else by a default. It counts the
calls that have arrived, and how many are waiting for their answer. A call that is given up while
it waits is never counted down.
-/
namespace Rebac.Transport

/-- A written answer: an outcome, entries for a group of checks, or what a server at an address
does. -/
inductive Reply where
  | outcome (o : Outcome)
  | checks (table : Members) (default : Json) (omitted : List String) (extra : Members)
  | served (address : String) (reply : Http.Reply)

/-- The answers to calls with a certain end of their path and certain values in their body; the
last answer repeats. -/
structure Rule where
  pathEnd : Option String
  conditions : List (String × Json)
  replies : List Reply

structure Script where
  rules : List Rule
  replies : List Reply
  default : Reply

structure Gauge where
  arrived : Nat
  waiting : Nat
  peak : Nat
  used : List Nat
  deriving DecidableEq, Repr

def Gauge.start (s : Script) : Gauge := ⟨0, 0, 0, s.rules.map fun _ => 0⟩

def Gauge.arrive (g : Gauge) : Nat × Gauge :=
  (g.arrived,
    { g with arrived := g.arrived + 1, waiting := g.waiting + 1, peak := max g.peak (g.waiting + 1) })

def checksBody (table : Members) (default : Json) (omitted : List String) (extra : Members)
    (body : Json) : Json :=
  let text (j : Json) (name : String) := match j.member? name with
    | some (.string s) => s
    | _ => ""
  let checks := match body.member? "checks" with
    | some (.array items) => items
    | _ => []
  let entries := checks.filterMap fun item =>
    let key := (item.member? "tuple_key").getD .null
    let name := RelationTuple.describe
      ⟨text key "user", text key "relation", text key "object", none⟩
    if name ∈ omitted then none
    else some (text item "correlation_id", (table.find? name).getD default)
  Json.ofMembers [("result", Json.ofMembers (entries ++ extra))]

def Reply.toOutcome (r : Reply) (call : Call) : Outcome :=
  match r with
  | .outcome o => o
  | .checks table default omitted extra =>
    .ok ⟨200, checksBody table default omitted extra call.body⟩
  | .served address reply => Http.outcome address call reply

def Rule.applies (r : Rule) (call : Call) : Bool :=
  (r.pathEnd.all fun s => s.toList.isSuffixOf call.path.toList) &&
    r.conditions.all fun c =>
      match call.body.atPointer? c.1 with
      | some j => j.same c.2
      | none => false

def pick? (replies : List Reply) (n : Nat) : Option Reply :=
  match replies[n]? with
  | some r => some r
  | none => replies.getLast?

def Script.answer (s : Script) (g : Gauge) (call : Call) (number : Nat) : Outcome × Gauge :=
  let g := { g with waiting := g.waiting - 1 }
  match s.rules.findIdx? fun r => r.applies call with
  | some i =>
    let n := g.used.getD i 0
    let reply := ((s.rules[i]?).bind fun r => pick? r.replies n).getD s.default
    (reply.toOutcome call, { g with used := g.used.set i (n + 1) })
  | none => ((s.replies.getD number s.default).toOutcome call, g)

end Rebac.Transport
