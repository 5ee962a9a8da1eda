import Rebac.Batch.Chunk
import Rebac.Proofs.Dispatch.Pool
import Mathlib.Data.List.Forall2

set_option autoImplicit false

/-! # Where the items of a list go -/

namespace Rebac.Batch

open Dispatch (Pool)

variable {α β : Type} {size : Nat}

theorem groups_eq (pos : 0 < size) {items : List α} (some : items ≠ []) :
    groups size items = items.take size :: groups size (items.drop size) := by
  obtain ⟨n, rfl⟩ : ∃ n, size = n + 1 := ⟨size - 1, by omega⟩
  cases items with
  | nil => exact absurd rfl some
  | cons x xs =>
    rw [groups]
    rfl

theorem groups_get (pos : 0 < size) (items : List α) (i : Nat) :
    (groups size items)[i]? =
      if i * size < items.length then some ((items.drop (i * size)).take size) else none := by
  induction i generalizing items with
  | zero =>
    cases items with
    | nil => simp [groups]
    | cons x xs =>
      rw [groups_eq pos (List.cons_ne_nil x xs)]
      simp
  | succ i ih =>
    have next : (i + 1) * size = size + i * size := by rw [Nat.succ_mul, Nat.add_comm]
    cases items with
    | nil => simp [groups]
    | cons x xs =>
      rw [groups_eq pos (List.cons_ne_nil x xs), List.getElem?_cons_succ, ih, List.drop_drop,
        List.length_drop, next]
      have bound : i * size < (x :: xs).length - size ↔ size + i * size < (x :: xs).length := by
        omega
      simp only [bound]

theorem groups_place (pos : 0 < size) (items : List α) (j : Nat) :
    ((groups size items)[j / size]?).bind (fun group => group[j % size]?) = items[j]? := by
  have whole : j / size * size + j % size = j := by
    rw [Nat.mul_comm]
    exact Nat.div_add_mod j size
  rw [groups_get pos]
  by_cases within : j / size * size < items.length
  · rw [if_pos within, Option.bind_some, List.getElem?_take_of_lt (Nat.mod_lt j pos),
      List.getElem?_drop, whole]
  · rw [if_neg within, Option.bind_none, List.getElem?_eq_none (by omega)]

theorem groups_bounds (pos : 0 < size) {items group : List α} (mem : group ∈ groups size items) :
    group ≠ [] ∧ group.length ≤ size := by
  obtain ⟨i, got⟩ := List.mem_iff_getElem?.mp mem
  rw [groups_get pos] at got
  split at got
  · rename_i within
    have eq := Option.some.inj got
    have len := congrArg List.length eq
    rw [List.length_take, List.length_drop] at len
    refine ⟨?_, by omega⟩
    apply List.ne_nil_of_length_pos
    omega
  · cases got

theorem slice_numbered (pos : 0 < size) (m : Nat) {slice : List α} (short : slice.length ≤ size) :
    (slice.zipIdx (m * size)).map (fun p => (p.2 / size, p.1)) = slice.map fun x => (m, x) := by
  apply List.ext_getElem?
  intro i
  rw [List.getElem?_map, List.getElem?_map, List.getElem?_zipIdx, Option.map_map]
  cases got : slice[i]? with
  | none => rfl
  | some x =>
    have lt : i < size := by
      have := (List.getElem?_eq_some_iff.mp got).1
      omega
    have number : (m * size + i) / size = m := by
      rw [Nat.mul_comm, Nat.mul_add_div pos, Nat.div_eq_of_lt lt, Nat.add_zero]
    simp [number]

theorem groups_zipIdx (pos : 0 < size) (n m : Nat) (items : List α) (len : items.length ≤ n) :
    (((groups size items).zipIdx m).map fun p => p.1.map fun x => (p.2, x)).flatten =
      (items.zipIdx (m * size)).map fun p => (p.2 / size, p.1) := by
  -- `groups` takes off a whole slice at a time, so the induction is on a bound for the length
  induction n generalizing m items with
  | zero =>
    have none : items = [] := List.length_eq_zero_iff.mp (Nat.le_zero.mp len)
    subst none
    simp [groups]
  | succ n ih =>
    by_cases none : items = []
    · subst none
      simp [groups]
    · have tail := ih (m + 1) (items.drop size) (by rw [List.length_drop]; omega)
      have rest : (items.drop size).zipIdx (m * size + (items.take size).length) =
          (items.drop size).zipIdx ((m + 1) * size) := by
        by_cases whole : size ≤ items.length
        · rw [List.length_take, Nat.min_eq_left whole, Nat.succ_mul]
        · rw [List.drop_eq_nil_of_le (by omega)]
          rfl
      have cut : items.zipIdx (m * size) = (items.take size).zipIdx (m * size) ++
          (items.drop size).zipIdx ((m + 1) * size) := by
        rw [← rest, ← List.zipIdx_append, List.take_append_drop]
      rw [groups_eq pos none, List.zipIdx_cons, List.map_cons, List.flatten_cons, tail, cut,
        List.map_append, slice_numbered pos m (List.length_take_le size items)]

theorem groups_numbered (pos : 0 < size) (items : List α) :
    ((Pool.placed (groups size items)).map fun p => p.2.map fun x => (p.1, x)).flatten =
      (Pool.placed items).map fun p => (p.1 / size, p.2) := by
  have whole := groups_zipIdx pos items.length 0 items (Nat.le_refl _)
  rw [Nat.zero_mul] at whole
  simpa [Pool.placed, Function.comp_def] using whole

theorem mem_groups_iff (pos : 0 < size) {items : List α} {i : Nat} {x : α} :
    (∃ group, (groups size items)[i]? = some group ∧ x ∈ group) ↔
      ∃ j, items[j]? = some x ∧ j / size = i := by
  have numbered : (i, x) ∈ ((Pool.placed (groups size items)).map fun p =>
      p.2.map fun x => (p.1, x)).flatten ↔
      (i, x) ∈ (Pool.placed items).map fun p => (p.1 / size, p.2) := by
    rw [groups_numbered pos]
  constructor
  · rintro ⟨group, got, mem⟩
    have placed := numbered.mp (List.mem_flatten.mpr
      ⟨_, List.mem_map.mpr ⟨(i, group), Pool.mem_placed.mpr got, rfl⟩,
        List.mem_map.mpr ⟨x, mem, rfl⟩⟩)
    obtain ⟨⟨j, y⟩, here, eq⟩ := List.mem_map.mp placed
    cases eq
    exact ⟨j, Pool.mem_placed.mp here, rfl⟩
  · rintro ⟨j, got, rfl⟩
    have placed := numbered.mpr (List.mem_map.mpr ⟨(j, x), Pool.mem_placed.mpr got, rfl⟩)
    obtain ⟨list, listed, mem⟩ := List.mem_flatten.mp placed
    obtain ⟨⟨i, group⟩, here, rfl⟩ := List.mem_map.mp listed
    obtain ⟨y, within, eq⟩ := List.mem_map.mp mem
    cases eq
    exact ⟨group, Pool.mem_placed.mp here, within⟩

theorem groups_flatten (pos : 0 < size) (items : List α) : (groups size items).flatten = items := by
  have numbered := congrArg (List.map Prod.snd) (groups_numbered pos items)
  simpa [Pool.placed, List.map_flatten, Function.comp_def] using numbered

theorem groups_length (pos : 0 < size) (items : List α) :
    (groups size items).length = (items.length + size - 1) / size := by
  have within (i : Nat) :
      i < (groups size items).length ↔ i < (items.length + size - 1) / size := by
    have begins : i < (groups size items).length ↔ i * size < items.length := by
      rw [← Nat.not_le, ← List.getElem?_eq_none_iff, groups_get pos]
      split <;> simp_all
    rw [begins, Nat.lt_iff_add_one_le (n := (items.length + size - 1) / size),
      Nat.le_div_iff_mul_le pos, Nat.succ_mul]
    omega
  exact Nat.le_antisymm (Nat.le_of_not_lt fun lt => Nat.lt_irrefl _ ((within _).mp lt))
    (Nat.le_of_not_lt fun lt => Nat.lt_irrefl _ ((within _).mpr lt))

/-- A list that is cut into consecutive pieces, so that its item at a place `j` is at the place
`j % size` of the piece `j / size`. -/
structure Cut (size : Nat) (items : List α) (pieces : List (List α)) : Prop where
  whole : pieces.flatten = items
  bounds : ∀ piece ∈ pieces, piece ≠ [] ∧ piece.length ≤ size
  place : ∀ j : Nat, (pieces[j / size]?).bind (fun piece => piece[j % size]?) = items[j]?

theorem groups_cut (pos : 0 < size) (items : List α) : Cut size items (groups size items) :=
  ⟨groups_flatten pos items, fun _ => groups_bounds pos, groups_place pos items⟩

theorem forall₂_groups (pos : 0 < size) {R : Nat → α → β → Prop} {items : List α}
    {lists : List (List β)} (each : List.Forall₂ (fun p list => List.Forall₂ (R p.1) p.2 list)
      (Pool.placed (groups size items)) lists) :
    List.Forall₂ (fun p y => R (p.1 / size) p.2 y) (Pool.placed items) lists.flatten := by
  have within : List.Forall₂ (List.Forall₂ fun p y => R p.1 p.2 y)
      ((Pool.placed (groups size items)).map fun p => p.2.map fun x => (p.1, x)) lists := by
    apply List.forall₂_map_left_iff.mpr
    refine each.imp ?_
    intro p list related
    exact List.forall₂_map_left_iff.mpr related
  have all := List.rel_flatten within
  rw [groups_numbered pos] at all
  exact List.forall₂_map_left_iff.mp all

theorem forall₂_groups_perm (pos : 0 < size) {R : Nat → α → β → Prop} {items : List α}
    {lists : List (List β)} (each : List.Forall₂ (fun p list => ∃ inOrder,
      list.Perm inOrder ∧ List.Forall₂ (R p.1) p.2 inOrder)
      (Pool.placed (groups size items)) lists) :
    ∃ inOrder, lists.flatten.Perm inOrder ∧
      List.Forall₂ (fun p y => R (p.1 / size) p.2 y) (Pool.placed items) inOrder := by
  have chosen : ∃ ordered, lists.flatten.Perm ordered.flatten ∧ List.Forall₂ (fun p list =>
      List.Forall₂ (R p.1) p.2 list) (Pool.placed (groups size items)) ordered := by
    generalize Pool.placed (groups size items) = numbered at each ⊢
    induction each with
    | nil => exact ⟨[], .refl _, .nil⟩
    | cons head _ ih =>
      obtain ⟨first, perm, related⟩ := head
      obtain ⟨others, perms, all⟩ := ih
      exact ⟨first :: others, perm.append perms, .cons related all⟩
  obtain ⟨ordered, perm, related⟩ := chosen
  exact ⟨ordered.flatten, perm, forall₂_groups pos related⟩

end Rebac.Batch
