set_option autoImplicit false

/-!
# Bounded pools

A pool starts its items in order, with at most `limit` of them under way at once, and puts each
result into the slot of its item, in whatever order they come. `Step` is the relation of one
move of a pool: the next item is started, or the outcome of an item under way is taken in. Any of
those under way may be the next to end, with any outcome, and the first error decides the whole
pool. `Runs` has every schedule of such moves.
-/
namespace Rebac.Dispatch

/-- Items that wait, items under way, and the results so far by the place of their item. -/
structure Pool (α σ τ : Type) where
  limit : Nat
  waiting : List (Nat × α)
  running : List (Nat × σ)
  slots : List (Option τ)

namespace Pool

variable {α σ τ : Type}

def placed (items : List α) : List (Nat × α) := items.zipIdx.map fun p => (p.2, p.1)

/-- A pool of items none of which has been started. A limit of zero counts as one. -/
def load (limit : Nat) (items : List α) : Pool α σ τ where
  limit := max 1 limit
  waiting := placed items
  running := []
  slots := items.map fun _ => none

def hasRoom (p : Pool α σ τ) : Bool := p.running.length < p.limit

def start? (launch : α → σ) (p : Pool α σ τ) : Option (Nat × σ × Pool α σ τ) :=
  match p.waiting with
  | [] => none
  | (i, a) :: rest =>
    if p.hasRoom then
      some (i, launch a, { p with waiting := rest, running := p.running ++ [(i, launch a)] })
    else none

def find? (p : Pool α σ τ) (i : Nat) : Option σ := p.running.lookup i

def update (p : Pool α σ τ) (i : Nat) (s : σ) : Pool α σ τ :=
  { p with running := p.running.map fun r => if r.1 = i then (i, s) else r }

def complete (p : Pool α σ τ) (i : Nat) (result : τ) : Pool α σ τ :=
  { p with
    running := p.running.filter fun r => r.1 ≠ i
    slots := p.slots.set i (some result) }

def isFinished (p : Pool α σ τ) : Bool := p.waiting.isEmpty && p.running.isEmpty

def results (p : Pool α σ τ) : List τ := p.slots.filterMap id

end Pool

inductive State (α σ τ ε : Type) where
  | active (pool : Pool α σ τ)
  | failed (error : ε)

def State.ending? {α σ τ ε : Type} : State α σ τ ε → Option (Except ε (List τ))
  | .failed e => some (.error e)
  | .active pool => if pool.isFinished then some (.ok pool.results) else none

inductive Move (α τ ε : Type) where
  | start (place : Nat) (item : α)
  | consume (place : Nat) (outcome : Except ε τ)

inductive Step {α τ ε : Type} : State α α τ ε → Move α τ ε → State α α τ ε → Prop where
  | start {p q : Pool α α τ} {i : Nat} {a : α} :
      p.start? id = some (i, a, q) → Step (.active p) (.start i a) (.active q)
  | finish {p : Pool α α τ} {i : Nat} {a : α} {r : τ} :
      p.find? i = some a → Step (.active p) (.consume i (.ok r)) (.active (p.complete i r))
  | fail {p : Pool α α τ} {i : Nat} {a : α} {e : ε} :
      p.find? i = some a → Step (.active p) (.consume i (.error e)) (.failed e)

/-- A pool of the items under any schedule, with the moves made so far in their order. -/
inductive Runs {α τ ε : Type} (limit : Nat) (items : List α) :
    List (Move α τ ε) → State α α τ ε → Prop where
  | opened : Runs limit items [] (.active (.load limit items))
  | next {moves : List (Move α τ ε)} {m : Move α τ ε} {s t : State α α τ ε} :
      Runs limit items moves s → Step s m t → Runs limit items (moves ++ [m]) t

end Rebac.Dispatch
