import Rebac.Dispatch.Pool

set_option autoImplicit false

/-!
# Bounded pools under every schedule

What has happened to a pool is told by its moves alone: which items were started, which outcomes
were taken in, and so which items are in flight. `Tracks` ties the parts of a pool to its moves,
one move keeps it, and `runs_follow` carries it through a run. The main statement says all that a
pool owes to its items after any moves, whatever the schedule and the outcomes.
-/
namespace Rebac.Dispatch

variable {α σ ρ τ ε : Type}

/-! ## Histories -/

def Move.start? : Move α τ ε → Option (Nat × α)
  | .start i a => some (i, a)
  | .consume _ _ => none

def Move.consume? : Move α τ ε → Option (Nat × Except ε τ)
  | .start _ _ => none
  | .consume i outcome => some (i, outcome)

def starts (moves : List (Move α τ ε)) : List (Nat × α) := moves.filterMap Move.start?

def consumed (moves : List (Move α τ ε)) : List (Nat × Except ε τ) :=
  moves.filterMap Move.consume?

/-- The items that were started and whose outcomes were not taken in. -/
def inFlight (moves : List (Move α τ ε)) : List (Nat × α) :=
  (starts moves).filter fun s => s.1 ∉ (consumed moves).map Prod.fst

@[simp] theorem starts_nil : starts ([] : List (Move α τ ε)) = [] := rfl

@[simp] theorem consumed_nil : consumed ([] : List (Move α τ ε)) = [] := rfl

@[simp] theorem starts_append (xs ys : List (Move α τ ε)) :
    starts (xs ++ ys) = starts xs ++ starts ys := List.filterMap_append

@[simp] theorem consumed_append (xs ys : List (Move α τ ε)) :
    consumed (xs ++ ys) = consumed xs ++ consumed ys := List.filterMap_append

@[simp] theorem starts_start (i : Nat) (a : α) :
    starts [(.start i a : Move α τ ε)] = [(i, a)] := rfl

@[simp] theorem starts_consume (i : Nat) (o : Except ε τ) :
    starts [(.consume i o : Move α τ ε)] = [] := rfl

@[simp] theorem consumed_start (i : Nat) (a : α) :
    consumed [(.start i a : Move α τ ε)] = [] := rfl

@[simp] theorem consumed_consume (i : Nat) (o : Except ε τ) :
    consumed [(.consume i o : Move α τ ε)] = [(i, o)] := rfl

theorem moves_length (moves : List (Move α τ ε)) :
    moves.length = (starts moves).length + (consumed moves).length := by
  induction moves with
  | nil => rfl
  | cons m moves ih =>
    cases m <;>
      simp only [starts, consumed, List.filterMap_cons, Move.start?, Move.consume?,
        List.length_cons] at ih ⊢ <;> omega

/-! ## Places -/

namespace Pool

theorem placed_length (items : List α) : (placed items).length = items.length := by
  simp [placed]

theorem placed_get (items : List α) (i : Nat) :
    (placed items)[i]? = items[i]?.map fun a => (i, a) := by
  simp [placed, List.getElem?_zipIdx]
  rfl

theorem placed_map {β : Type} (f : α → β) (items : List α) :
    placed (items.map f) = (placed items).map fun p => (p.1, f p.2) := by
  simp [placed, List.zipIdx_map, Function.comp_def]

theorem placed_places (items : List α) :
    (placed items).map Prod.fst = List.range items.length := by
  apply List.ext_getElem?
  intro i
  rw [List.getElem?_map, placed_get]
  by_cases h : i < items.length
  · simp [h]
  · simp [h]

theorem placed_place {items : List α} {i j : Nat} {a : α} (h : (placed items)[j]? = some (i, a)) :
    i = j := by
  rw [placed_get] at h
  cases hj : items[j]? with
  | none => simp [hj] at h
  | some b =>
    simp only [hj, Option.map_some, Option.some.injEq, Prod.mk.injEq] at h
    exact h.1.symm

theorem mem_placed {items : List α} {i : Nat} {a : α} :
    (i, a) ∈ placed items ↔ items[i]? = some a := by
  rw [List.mem_iff_getElem?]
  constructor
  · rintro ⟨j, hj⟩
    have place := placed_place hj
    subst place
    rw [placed_get] at hj
    simpa using hj
  · intro h
    exact ⟨i, by rw [placed_get, h]; rfl⟩

theorem mem_of_find? {p : Pool α σ τ} {i : Nat} {s : σ} (h : p.find? i = some s) :
    (i, s) ∈ p.running := by
  obtain ⟨before, after, eq, -⟩ := List.lookup_eq_some_iff.mp h
  rw [eq]
  simp

theorem find?_isSome {p : Pool α σ τ} {i : Nat} {s : σ} (h : (i, s) ∈ p.running) :
    ∃ t, p.find? i = some t := by
  cases hf : p.find? i with
  | some t => exact ⟨t, rfl⟩
  | none =>
    have absent := List.lookup_eq_none_iff.mp hf (i, s) h
    simp at absent

theorem start?_eq_some {launch : α → σ} {p q : Pool α σ τ} {i : Nat} {s : σ} :
    p.start? launch = some (i, s, q) ↔ ∃ a rest, p.waiting = (i, a) :: rest ∧
      p.running.length < p.limit ∧ s = launch a ∧
      q = { p with waiting := rest, running := p.running ++ [(i, launch a)] } := by
  cases hw : p.waiting with
  | nil => simp [start?, hw]
  | cons first rest =>
    obtain ⟨j, a⟩ := first
    simp only [start?, hw, hasRoom, decide_eq_true_eq]
    by_cases room : p.running.length < p.limit
    · simp only [room, ↓reduceIte, Option.some.injEq, Prod.mk.injEq, List.cons.injEq, true_and]
      constructor
      · rintro ⟨rfl, rfl, rfl⟩
        exact ⟨a, rest, ⟨⟨rfl, rfl⟩, rfl⟩, rfl, rfl⟩
      · rintro ⟨b, rest', ⟨⟨rfl, rfl⟩, rfl⟩, rfl, rfl⟩
        exact ⟨rfl, rfl, rfl⟩
    · simp [room]

end Pool

/-! ## The invariant -/

/-- The moves of a pool: never too many in flight, the starts in the order of the items, and the
outcomes of started items only, each once. -/
structure Tally (limit : Nat) (items : List α) (moves : List (Move α τ ε)) : Prop where
  room : (inFlight moves).length ≤ max 1 limit
  started : starts moves = (Pool.placed items).take (starts moves).length
  once : ((consumed moves).map Prod.fst).Nodup
  begun : ∀ c ∈ consumed moves, c.1 < (starts moves).length

/-- A pool holds what its moves tell: the items not started, those in flight in the order of their
starts, and the result of every success in its slot. -/
structure Tracks (limit : Nat) (items : List α) (moves : List (Move α τ ε)) (p : Pool α α τ) : Prop
    extends Tally limit items moves where
  limit_eq : p.limit = max 1 limit
  waiting : p.waiting = (Pool.placed items).drop (starts moves).length
  running : p.running = inFlight moves
  succeeded : ∀ i e, (i, .error e) ∉ consumed moves
  size : p.slots.length = items.length
  filled : ∀ i r, p.slots[i]? = some (some r) ↔ (i, .ok r) ∈ consumed moves

variable {limit : Nat} {items : List α} {moves : List (Move α τ ε)} {p : Pool α α τ}

theorem mem_inFlight {i : Nat} {a : α} :
    (i, a) ∈ inFlight moves ↔ (i, a) ∈ starts moves ∧ ∀ o, (i, o) ∉ consumed moves := by
  simp [inFlight]

theorem Tally.starts_le (h : Tally limit items moves) :
    (starts moves).length ≤ items.length := by
  have len := congrArg List.length h.started
  rw [List.length_take, Pool.placed_length] at len
  omega

theorem Tally.starts_places (h : Tally limit items moves) :
    (starts moves).map Prod.fst = List.range (starts moves).length := by
  calc
    (starts moves).map Prod.fst =
        ((Pool.placed items).take (starts moves).length).map Prod.fst :=
      congrArg (List.map Prod.fst) h.started
    _ = (List.range items.length).take (starts moves).length := by
      rw [List.map_take, Pool.placed_places]
    _ = List.range (starts moves).length := by
      rw [List.take_range, Nat.min_eq_left h.starts_le]

theorem Tally.starts_get (h : Tally limit items moves) {i : Nat} {a : α}
    (mem : (i, a) ∈ starts moves) : i < (starts moves).length ∧ items[i]? = some a := by
  constructor
  · have place : i ∈ (starts moves).map Prod.fst := List.mem_map.mpr ⟨(i, a), mem, rfl⟩
    rw [h.starts_places] at place
    exact List.mem_range.mp place
  · rw [h.started] at mem
    exact Pool.mem_placed.mp (List.mem_of_mem_take mem)

theorem Tally.inFlight_nodup (h : Tally limit items moves) :
    ((inFlight moves).map Prod.fst).Nodup := by
  have whole : ((starts moves).map Prod.fst).Nodup := by
    rw [h.starts_places]
    exact List.nodup_range
  exact whole.sublist (List.filter_sublist.map _)

theorem Tally.moves_le (h : Tally limit items moves) : moves.length ≤ 2 * items.length := by
  have sub : (consumed moves).map Prod.fst ⊆ List.range (starts moves).length := by
    intro i mem
    obtain ⟨c, landed, rfl⟩ := List.mem_map.mp mem
    exact List.mem_range.mpr (h.begun c landed)
  have le := h.once.length_le_of_subset sub
  rw [List.length_map, List.length_range] at le
  have := h.starts_le
  have := moves_length moves
  omega

theorem inFlight_consume (i : Nat) (o : Except ε τ) :
    inFlight (moves ++ [.consume i o]) = (inFlight moves).filter fun s => s.1 ≠ i := by
  simp only [inFlight, starts_append, starts_consume, List.append_nil, consumed_append,
    consumed_consume, List.map_append, List.map_cons, List.map_nil, List.filter_filter]
  apply List.filter_congr
  intro s _
  by_cases same : s.1 = i <;> simp [same]

theorem consume_tally (h : Tally limit items moves) {i : Nat} {a : α} (o : Except ε τ)
    (flying : (i, a) ∈ inFlight moves) : Tally limit items (moves ++ [.consume i o]) := by
  obtain ⟨started, fresh⟩ := mem_inFlight.mp flying
  refine ⟨?_, ?_, ?_, ?_⟩
  · rw [inFlight_consume]
    exact Nat.le_trans (List.length_filter_le _ _) h.room
  · simpa using h.started
  · simp only [consumed_append, consumed_consume, List.map_append, List.map_cons, List.map_nil]
    apply List.nodup_append.mpr
    refine ⟨h.once, by simp, ?_⟩
    intro j mem k hk
    obtain ⟨⟨j, x⟩, earlier, rfl⟩ := List.mem_map.mp mem
    rw [List.mem_singleton.mp hk]
    rintro rfl
    exact fresh x earlier
  · intro c mem
    simp only [consumed_append, consumed_consume, List.mem_append, List.mem_singleton] at mem
    simp only [starts_append, starts_consume, List.append_nil]
    rcases mem with mem | rfl
    · exact h.begun c mem
    · exact (h.starts_get started).1

theorem load_tracks (limit : Nat) (items : List α) :
    Tracks limit items ([] : List (Move α τ ε)) (Pool.load limit items) where
  room := Nat.zero_le _
  started := rfl
  once := List.nodup_nil
  begun := by simp
  limit_eq := rfl
  waiting := rfl
  running := rfl
  succeeded := by simp
  size := by simp [Pool.load]
  filled := by
    intro i r
    simp only [Pool.load, List.getElem?_map]
    cases items[i]? <;> simp

theorem Tracks.waiting_head (h : Tracks limit items moves p) {i : Nat} {a : α}
    {rest : List (Nat × α)} (waits : p.waiting = (i, a) :: rest) :
    (Pool.placed items)[(starts moves).length]? = some (i, a) := by
  rw [← List.head?_drop, ← h.waiting, waits]
  rfl

theorem Tracks.waiting_iff (h : Tracks limit items moves p) {i : Nat} {a : α} :
    (∃ rest, p.waiting = (i, a) :: rest) ↔ i = (starts moves).length ∧ items[i]? = some a := by
  constructor
  · rintro ⟨rest, waits⟩
    have head := h.waiting_head waits
    exact ⟨Pool.placed_place head, Pool.mem_placed.mp (List.mem_of_getElem? head)⟩
  · rintro ⟨rfl, got⟩
    have head : (Pool.placed items)[(starts moves).length]? =
        some ((starts moves).length, a) := by
      rw [Pool.placed_get, got]
      rfl
    obtain ⟨lt, eq⟩ := List.getElem?_eq_some_iff.mp head
    exact ⟨_, by rw [h.waiting, List.drop_eq_getElem_cons lt, eq]⟩

theorem start_tracks (h : Tracks limit items moves p) {i : Nat} {a : α} {q : Pool α α τ}
    (start : p.start? id = some (i, a, q)) :
    Tracks limit items (moves ++ [.start i a]) q := by
  obtain ⟨b, rest, waits, room, rfl, rfl⟩ := Pool.start?_eq_some.mp start
  have tail : (Pool.placed items).drop (starts moves).length = (i, a) :: rest :=
    h.waiting ▸ waits
  have head := h.waiting_head waits
  have place : i = (starts moves).length := Pool.placed_place head
  -- the new place is one past all starts, and outcomes are known for started items only
  have fresh : i ∉ (consumed moves).map Prod.fst := by
    intro mem
    obtain ⟨c, landed, rfl⟩ := List.mem_map.mp mem
    have := h.begun c landed
    omega
  have flying : inFlight (moves ++ [.start i a]) = inFlight moves ++ [(i, a)] := by
    simp only [inFlight, starts_append, starts_start, consumed_append, consumed_start,
      List.append_nil, List.filter_append]
    simp [fresh]
  refine ⟨⟨?_, ?_, ?_, ?_⟩, h.limit_eq, ?_, ?_, ?_, h.size, ?_⟩
  · rw [flying, ← h.running, ← h.limit_eq, List.length_append, List.length_singleton]
    exact room
  · simp only [starts_append, starts_start, List.length_append, List.length_singleton]
    rw [List.take_add_one, head, ← h.started]
    rfl
  · simpa using h.once
  · intro c mem
    have := h.begun c (by simpa using mem)
    simp only [starts_append, starts_start, List.length_append, List.length_singleton]
    omega
  · simp only [starts_append, starts_start, List.length_append, List.length_singleton]
    rw [← List.drop_drop, tail]
    rfl
  · rw [flying, ← h.running]
    rfl
  · simpa using h.succeeded
  · simpa using h.filled

theorem finish_tracks (h : Tracks limit items moves p) {i : Nat} {a : α} {r : τ}
    (found : p.find? i = some a) :
    Tracks limit items (moves ++ [.consume i (.ok r)]) (p.complete i r) := by
  have flying : (i, a) ∈ inFlight moves := h.running ▸ Pool.mem_of_find? found
  obtain ⟨started, fresh⟩ := mem_inFlight.mp flying
  have inRange : i < p.slots.length := by
    have := (h.starts_get started).1
    have := h.starts_le
    have := h.size
    omega
  refine ⟨consume_tally h.toTally _ flying, h.limit_eq, ?_, ?_, ?_, ?_, ?_⟩
  · simpa [Pool.complete] using h.waiting
  · rw [inFlight_consume, ← h.running]
    rfl
  · intro j e
    simpa using h.succeeded j e
  · simpa [Pool.complete] using h.size
  · intro j x
    simp only [Pool.complete, consumed_append, consumed_consume, List.mem_append,
      List.mem_singleton, Prod.mk.injEq, Except.ok.injEq]
    by_cases same : i = j
    · subst same
      simp [List.getElem?_set_self inRange, fresh, eq_comm]
    · rw [List.getElem?_set_ne same, h.filled]
      simp [Ne.symm same]

theorem Tracks.finished_iff (h : Tracks limit items moves p) :
    p.isFinished = true ↔ starts moves = Pool.placed items ∧ inFlight moves = [] := by
  have waits : p.waiting = [] ↔ starts moves = Pool.placed items := by
    rw [h.waiting, List.drop_eq_nil_iff]
    constructor
    · intro le
      have whole := h.started
      rwa [List.take_of_length_le le] at whole
    · intro eq
      exact Nat.le_of_eq (congrArg List.length eq.symm)
  rw [Pool.isFinished, Bool.and_eq_true, List.isEmpty_iff, List.isEmpty_iff, h.running, waits]

theorem full_slots {slots : List (Option τ)} (full : ∀ s ∈ slots, ∃ r, s = some r) :
    slots = (slots.filterMap id).map some := by
  induction slots with
  | nil => rfl
  | cons s slots ih =>
    obtain ⟨r, rfl⟩ := full s List.mem_cons_self
    have tail := ih fun t mem => full t (List.mem_cons_of_mem _ mem)
    change some r :: slots = some r :: (slots.filterMap id).map some
    rw [← tail]

theorem Tracks.slots_full (h : Tracks limit items moves p) (finished : p.isFinished = true) :
    ∀ s ∈ p.slots, ∃ r, s = some r := by
  obtain ⟨all, none⟩ := h.finished_iff.mp finished
  intro s mem
  obtain ⟨i, hi⟩ := List.mem_iff_getElem?.mp mem
  have lt : i < items.length := by
    have := (List.getElem?_eq_some_iff.mp hi).1
    rwa [h.size] at this
  have started : (i, items[i]) ∈ starts moves := by
    rw [all]
    exact Pool.mem_placed.mpr (List.getElem?_eq_getElem lt)
  -- a started item without an outcome would be in flight
  have landed : ∃ o, (i, o) ∈ consumed moves := by
    apply Classical.byContradiction
    intro absent
    have flying := mem_inFlight.mpr ⟨started, fun o mem => absent ⟨o, mem⟩⟩
    rw [none] at flying
    cases flying
  obtain ⟨o, ho⟩ := landed
  cases o with
  | error e => exact absurd ho (h.succeeded i e)
  | ok r =>
    have filled := (h.filled i r).mpr ho
    rw [hi] at filled
    exact ⟨r, Option.some.inj filled⟩

theorem Tracks.results_get (h : Tracks limit items moves p) (finished : p.isFinished = true) :
    p.results.length = items.length ∧
      ∀ i r, p.results[i]? = some r ↔ (i, .ok r) ∈ consumed moves := by
  have slots := full_slots (h.slots_full finished)
  constructor
  · have len := congrArg List.length slots
    rw [List.length_map, h.size] at len
    exact len.symm
  · intro i r
    rw [← h.filled, slots, List.getElem?_map, Option.map_eq_some_iff]
    constructor
    · intro got
      exact ⟨r, got, rfl⟩
    · rintro ⟨x, got, eq⟩
      rwa [← Option.some.inj eq]

/-! ## Runs -/

/-- A pool at work holds what its moves tell, and one that has failed did so by its last move. -/
def Follows (limit : Nat) (items : List α) (moves : List (Move α τ ε)) : State α α τ ε → Prop
  | .active p => Tracks limit items moves p
  | .failed e => Tally limit items moves ∧ ∃ earlier i, moves = earlier ++ [.consume i (.error e)] ∧
      ∀ j f, (j, .error f) ∉ consumed earlier

theorem step_follows {s t : State α α τ ε} {m : Move α τ ε} (h : Follows limit items moves s)
    (step : Step s m t) : Follows limit items (moves ++ [m]) t := by
  cases step with
  | start start => exact start_tracks h start
  | finish found => exact finish_tracks h found
  | @fail p i a e found =>
    change Tracks limit items moves p at h
    have flying : (i, a) ∈ inFlight moves := h.running ▸ Pool.mem_of_find? found
    exact ⟨consume_tally h.toTally _ flying, moves, i, rfl, h.succeeded⟩

theorem runs_follow {s : State α α τ ε} (run : Runs limit items moves s) :
    Follows limit items moves s := by
  induction run with
  | opened => exact load_tracks limit items
  | next _ step ih => exact step_follows ih step

/-- Whether a move is open after others: the next item may be started while there is room, and
any item in flight may end, with any outcome. -/
def Open (limit : Nat) (items : List α) (moves : List (Move α τ ε)) : Move α τ ε → Prop
  | .start i a => (inFlight moves).length < max 1 limit ∧ i = (starts moves).length ∧
      items[i]? = some a
  | .consume i _ => ∃ a, (i, a) ∈ inFlight moves

theorem Tracks.open_iff (h : Tracks limit items moves p) (m : Move α τ ε) :
    (∃ t, Step (.active p) m t) ↔ Open limit items moves m := by
  cases m with
  | start i a =>
    simp only [Open, ← h.waiting_iff, ← h.running, ← h.limit_eq]
    constructor
    · rintro ⟨t, step⟩
      cases step with
      | start start =>
        obtain ⟨b, rest, waits, room, rfl, -⟩ := Pool.start?_eq_some.mp start
        exact ⟨room, rest, waits⟩
    · rintro ⟨room, rest, waits⟩
      exact ⟨_, .start (Pool.start?_eq_some.mpr ⟨a, rest, waits, room, rfl, rfl⟩)⟩
  | consume i o =>
    simp only [Open, ← h.running]
    constructor
    · rintro ⟨t, step⟩
      cases step with
      | finish found => exact ⟨_, Pool.mem_of_find? found⟩
      | fail found => exact ⟨_, Pool.mem_of_find? found⟩
    · rintro ⟨a, flying⟩
      obtain ⟨b, found⟩ := Pool.find?_isSome flying
      cases o with
      | ok r => exact ⟨_, .finish found⟩
      | error e => exact ⟨_, .fail found⟩

/-- What a pool owes to its items after any moves, beside the tally. Which moves are open is told
by the moves made. An error that was taken in is the result, and nothing comes after it. Without
one the pool is over when nothing is left, and then has exactly one result for each item, in its
place. -/
structure Accounted (limit : Nat) (items : List α) (moves : List (Move α τ ε))
    (s : State α α τ ε) : Prop extends Tally limit items moves where
  finite : moves.length ≤ 2 * items.length
  open_iff : ∀ m, (∃ t, Step s m t) ↔
    (∀ i e, (i, .error e) ∉ consumed moves) ∧ Open limit items moves m
  failed_iff : ∀ e, s.ending? = some (.error e) ↔ ∃ i, (i, .error e) ∈ consumed moves
  failed_last : ∀ earlier later i e, moves = earlier ++ .consume i (.error e) :: later →
    later = [] ∧ ∀ j f, (j, .error f) ∉ consumed earlier
  over_iff : (∃ results, s.ending? = some (.ok results)) ↔
    (∀ i e, (i, .error e) ∉ consumed moves) ∧ inFlight moves = [] ∧
      ∀ i a t, ¬ Step s (.start i a) t
  results : ∀ results, s.ending? = some (.ok results) → results.length = items.length ∧
    starts moves = Pool.placed items ∧ ∀ i r, results[i]? = some r ↔ (i, .ok r) ∈ consumed moves

theorem Tracks.all_started (h : Tracks limit items moves p) (none : inFlight moves = [])
    (still : ∀ i a t, ¬ Step (ε := ε) (.active p) (.start i a) t) :
    starts moves = Pool.placed items := by
  have le : items.length ≤ (starts moves).length := by
    apply Nat.le_of_not_lt
    intro lt
    have free : (inFlight moves).length < max 1 limit := by
      rw [none, List.length_nil]
      omega
    obtain ⟨t, step⟩ := (h.open_iff (.start _ _)).mpr
      ⟨free, rfl, List.getElem?_eq_getElem lt⟩
    exact still _ _ t step
  have whole := h.started
  rwa [List.take_of_length_le (by rwa [Pool.placed_length])] at whole

theorem Tracks.accounted (h : Tracks limit items moves p) :
    Accounted limit items moves (.active p) where
  toTally := h.toTally
  finite := h.moves_le
  open_iff := by
    intro m
    rw [h.open_iff m]
    exact ⟨fun o => ⟨h.succeeded, o⟩, And.right⟩
  failed_iff := by
    intro e
    constructor
    · intro ended
      simp only [State.ending?] at ended
      split at ended <;> cases ended
    · rintro ⟨i, mem⟩
      exact absurd mem (h.succeeded i e)
  failed_last := by
    rintro earlier later i e rfl
    exact absurd (by simp [consumed, Move.consume?]) (h.succeeded i e)
  over_iff := by
    constructor
    · rintro ⟨results, ended⟩
      simp only [State.ending?] at ended
      split at ended
      · rename_i finished
        obtain ⟨all, none⟩ := h.finished_iff.mp finished
        refine ⟨h.succeeded, none, ?_⟩
        intro i a t step
        obtain ⟨-, rfl, got⟩ := (h.open_iff _).mp ⟨t, step⟩
        rw [all, Pool.placed_length] at got
        simp at got
      · cases ended
    · rintro ⟨-, none, still⟩
      have all := h.all_started none still
      exact ⟨p.results, by simp [State.ending?, h.finished_iff.mpr ⟨all, none⟩]⟩
  results := by
    intro results ended
    simp only [State.ending?] at ended
    split at ended
    · rename_i finished
      cases ended
      have got := h.results_get finished
      exact ⟨got.1, (h.finished_iff.mp finished).1, got.2⟩
    · cases ended

theorem failed_accounted {e : ε} (h : Follows limit items moves (.failed e)) :
    Accounted limit items moves (.failed e) := by
  obtain ⟨tally, before, i, rfl, clean⟩ := h
  have only : ∀ j f, (j, .error f) ∈ consumed (before ++ [.consume i (.error e)]) ↔
      j = i ∧ f = e := by
    intro j f
    simp [clean]
  refine ⟨tally, tally.moves_le, ?_, ?_, ?_, ?_, ?_⟩
  · intro m
    constructor
    · rintro ⟨t, step⟩
      cases step
    · rintro ⟨none, -⟩
      exact absurd ((only i e).mpr ⟨rfl, rfl⟩) (none i e)
  · intro f
    simp only [only, State.ending?, Option.some.injEq, Except.error.injEq]
    exact ⟨fun eq => ⟨i, rfl, eq.symm⟩, fun ⟨_, _, eq⟩ => eq.symm⟩
  · intro earlier later j f eq
    -- an error with anything after it would be among the earlier moves, which have none
    rcases List.eq_nil_or_concat later with rfl | ⟨rest, m, rfl⟩
    · obtain ⟨rfl, -⟩ := List.append_inj' eq rfl
      exact ⟨rfl, clean⟩
    · have shape : before ++ [.consume i (.error e)] =
          (earlier ++ .consume j (.error f) :: rest) ++ [m] := by simpa using eq
      obtain ⟨rfl, -⟩ := List.append_inj' shape rfl
      exact absurd (by simp [consumed, Move.consume?]) (clean j f)
  · constructor
    · rintro ⟨results, ended⟩
      cases ended
    · rintro ⟨none, -, -⟩
      exact absurd ((only i e).mpr ⟨rfl, rfl⟩) (none i e)
  · intro results ended
    cases ended

/-- A pool of any items under any limit and any schedule, whatever the outcomes, accounts for
every item after every move. -/
theorem every_schedule_accounted {s : State α α τ ε} (run : Runs limit items moves s) :
    Accounted limit items moves s := by
  have follows := runs_follow run
  cases s with
  | active p => exact Tracks.accounted follows
  | failed e => exact failed_accounted follows

/-- Three items, two at a time: the second ends first, and the results are in their places. -/
theorem overtaken_item_accounted :
    Accounted (ε := String) 2 ['a', 'b', 'c']
      [.start 0 'a', .start 1 'b', .consume 1 (.ok 20), .start 2 'c', .consume 2 (.ok 30),
        .consume 0 (.ok 10)]
      (.active ⟨2, [], [], [some 10, some 20, some 30]⟩) :=
  every_schedule_accounted
    (.next (.next (.next (.next (.next (.next .opened (.start rfl)) (.start rfl)) (.finish rfl))
      (.start rfl)) (.finish rfl)) (.finish rfl))

end Rebac.Dispatch
