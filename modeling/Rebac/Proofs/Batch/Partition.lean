import Rebac.Proofs.Batch.Groups
import Mathlib.Algebra.Order.Floor.Div

set_option autoImplicit false

/-!
# The one way to cut a list

Only the last group of a list can be shorter than the size, and there are as many groups as it
takes. A cut of which that is true begins with the first `size` items, or is the whole list, and so
does what is left of it: there is no other cut.
-/
namespace Rebac.Batch

variable {α : Type} {size : Nat} {items : List α} {pieces : List (List α)}

/-- A cut into full pieces, except for the last: as many as the length over the size, rounded up. -/
structure Partition (size : Nat) (items : List α) (pieces : List (List α)) : Prop
    extends Cut size items pieces where
  full : ∀ piece ∈ pieces.dropLast, piece.length = size
  count : pieces.length = items.length ⌈/⌉ size

theorem groups_full (pos : 0 < size) {group : List α} (mem : group ∈ (groups size items).dropLast) :
    group.length = size := by
  obtain ⟨i, got⟩ := List.mem_iff_getElem?.mp mem
  rw [List.getElem?_dropLast] at got
  split at got
  · rename_i before
    -- the group after this one begins within the list, where this one ends
    have after : (groups size items)[i + 1]? ≠ none := by
      rw [Ne, List.getElem?_eq_none_iff]
      omega
    rw [groups_get pos] at got after
    have begins : (i + 1) * size < items.length := by
      by_contra past
      exact after (if_neg past)
    rw [Nat.succ_mul] at begins
    rw [if_pos (by omega)] at got
    rw [← Option.some.inj got, List.length_take, List.length_drop]
    omega
  · cases got

theorem groups_partition (pos : 0 < size) (items : List α) :
    Partition size items (groups size items) :=
  ⟨groups_cut pos items, fun _ => groups_full pos, groups_length pos items⟩

theorem groups_flatten_of_full (pos : 0 < size)
    (bounds : ∀ piece ∈ pieces, piece ≠ [] ∧ piece.length ≤ size)
    (full : ∀ piece ∈ pieces.dropLast, piece.length = size) :
    groups size pieces.flatten = pieces := by
  induction pieces with
  | nil => simp [groups]
  | cons piece rest ih =>
    obtain ⟨⟨filled, short⟩, others⟩ := List.forall_mem_cons.mp bounds
    have some : (piece :: rest).flatten ≠ [] := by simp [filled]
    rw [groups_eq pos some, List.flatten_cons]
    by_cases last : rest = []
    · subst last
      rw [List.flatten_nil, List.append_nil, List.take_of_length_le short,
        List.drop_of_length_le short, groups]
    · rw [List.dropLast_cons_of_ne_nil last] at full
      obtain ⟨one, before⟩ := List.forall_mem_cons.mp full
      rw [List.take_left' one, List.drop_left' one, ih others before]

/-- A list is cut just when the size is not zero, if it is empty too; then it is cut into pieces
that are full, except for the last, which are all its items in order; and in no other way. -/
theorem chunk_partitions (items : List α) (size : Nat) :
    ((∃ e, chunk items size = .error e) ↔ size = 0) ∧
    (∀ e, chunk items size = .error e → e = .invalidChunkSize 0) ∧
    (0 < size → ∃ pieces, chunk items size = .ok pieces ∧ Partition size items pieces ∧
      ∀ other, Partition size items other → other = pieces) := by
  by_cases zero : size = 0
  · subst zero
    refine ⟨⟨fun _ => rfl, fun _ => ⟨_, rfl⟩⟩, fun e failed => ?_, fun pos => absurd pos (by decide)⟩
    cases failed
    rfl
  · have pos : 0 < size := Nat.pos_of_ne_zero zero
    have cut : chunk items size = .ok (groups size items) := if_neg zero
    rw [cut]
    refine ⟨by simp [zero], by simp, fun _ => ⟨_, rfl, groups_partition pos items, ?_⟩⟩
    intro other partition
    rw [← partition.whole, groups_flatten_of_full pos partition.bounds partition.full]

theorem seven_partitioned :
    chunk [1, 2, 3, 4, 5, 6, 7] 3 = .ok [[1, 2, 3], [4, 5, 6], [7]] ∧
      Partition 3 [1, 2, 3, 4, 5, 6, 7] [[1, 2, 3], [4, 5, 6], [7]] := by
  obtain ⟨pieces, cut, partition, -⟩ := (chunk_partitions [1, 2, 3, 4, 5, 6, 7] 3).2.2 (by decide)
  have same : chunk [1, 2, 3, 4, 5, 6, 7] 3 = .ok [[1, 2, 3], [4, 5, 6], [7]] := by
    simp [chunk, groups]
  rw [same] at cut
  cases cut
  exact ⟨same, partition⟩

end Rebac.Batch
