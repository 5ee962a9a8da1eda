import Mathlib.Data.List.Forall2

set_option autoImplicit false

/-! # Computations that may fail -/

namespace Rebac

/-! ## Lists that correspond -/

section Lists

variable {α σ : Type}

theorem forall₂_mem_left {R : α → σ → Prop} {xs : List α} {ys : List σ}
    (related : List.Forall₂ R xs ys) {x : α} (mem : x ∈ xs) : ∃ y ∈ ys, R x y := by
  induction related with
  | nil => cases mem
  | cons head _ ih =>
    rcases List.mem_cons.mp mem with rfl | there
    · exact ⟨_, List.mem_cons_self, head⟩
    · obtain ⟨y, within, related⟩ := ih there
      exact ⟨y, List.mem_cons_of_mem _ within, related⟩

theorem forall₂_mem_right {R : α → σ → Prop} {xs : List α} {ys : List σ}
    (related : List.Forall₂ R xs ys) {y : σ} (mem : y ∈ ys) : ∃ x ∈ xs, R x y :=
  forall₂_mem_left related.flip mem

theorem forall₂_get_right {R : α → σ → Prop} {xs : List α} {ys : List σ}
    (related : List.Forall₂ R xs ys) {i : Nat} {y : σ} (got : ys[i]? = some y) :
    ∃ x, xs[i]? = some x ∧ R x y := by
  induction related generalizing i with
  | nil => cases got
  | cons head _ ih =>
    cases i with
    | zero =>
      cases got
      exact ⟨_, rfl, head⟩
    | succ i => exact ih got

theorem map_of_forall₂ {f : α → σ} {xs : List α} {ys : List σ}
    (each : List.Forall₂ (fun x y => y = f x) xs ys) : ys = xs.map f := by
  induction each with
  | nil => rfl
  | cons head _ ih => rw [List.map_cons, head, ih]

end Lists

/-! ## Chains -/

namespace Fallible

variable {ε α β : Type}

theorem bind_ok {x : Except ε α} {f : α → Except ε β} {b : β} :
    (x >>= f) = .ok b ↔ ∃ a, x = .ok a ∧ f a = .ok b := by
  cases x with
  | error e => simp [bind, Except.bind]
  | ok a => simp [bind, Except.bind]

theorem map_ok {x : Except ε α} {f : α → β} {b : β} :
    x.map f = .ok b ↔ ∃ a, x = .ok a ∧ f a = b := by
  cases x with
  | error e => simp [Except.map]
  | ok a => simp [Except.map]

theorem toOption_ok {x : Except ε α} {a : α} : x.toOption = some a ↔ x = .ok a := by
  cases x with
  | error e => simp [Except.toOption]
  | ok b => simp [Except.toOption]

theorem toOption_isSome {x : Except ε α} : x.toOption.isSome ↔ ∃ a, x = .ok a := by
  simp only [Option.isSome_iff_exists, toOption_ok]

theorem mapM_ok {f : α → Except ε β} {xs : List α} {ys : List β} :
    xs.mapM f = .ok ys ↔ List.Forall₂ (fun x y => f x = .ok y) xs ys := by
  induction xs generalizing ys with
  | nil =>
    rw [List.mapM_nil, List.forall₂_nil_left_iff]
    exact ⟨fun eq => (Except.ok.inj eq).symm, fun eq => congrArg Except.ok eq.symm⟩
  | cons x xs ih =>
    rw [List.mapM_cons, bind_ok, List.forall₂_cons_left_iff]
    refine exists_congr fun y => ?_
    rw [bind_ok]
    constructor
    · rintro ⟨first, others, rest, eq⟩
      exact ⟨others, first, ih.mp rest, (Except.ok.inj eq).symm⟩
    · rintro ⟨others, first, rest, rfl⟩
      exact ⟨first, others, ih.mpr rest, rfl⟩

theorem mapM_some {f : α → Option β} {xs : List α} {ys : List β} :
    xs.mapM f = some ys ↔ List.Forall₂ (fun x y => f x = some y) xs ys := by
  induction xs generalizing ys with
  | nil =>
    rw [List.mapM_nil, List.forall₂_nil_left_iff]
    exact ⟨fun eq => (Option.some.inj eq).symm, fun eq => congrArg some eq.symm⟩
  | cons x xs ih =>
    simp only [List.mapM_cons, bind, Option.bind_eq_some_iff, ih, List.forall₂_cons_left_iff]
    constructor
    · rintro ⟨first, here, others, rest, eq⟩
      exact ⟨first, others, here, rest, (Option.some.inj eq).symm⟩
    · rintro ⟨first, others, here, rest, rfl⟩
      exact ⟨first, here, others, rest, rfl⟩

theorem mapM_defined {f : α → Except ε β} {xs : List α} (each : ∀ x ∈ xs, ∃ y, f x = .ok y) :
    ∃ ys, xs.mapM f = .ok ys := by
  induction xs with
  | nil => exact ⟨[], rfl⟩
  | cons x xs ih =>
    obtain ⟨⟨y, here⟩, others⟩ := List.forall_mem_cons.mp each
    obtain ⟨ys, rest⟩ := ih others
    exact ⟨y :: ys, by rw [List.mapM_cons, here, rest]; rfl⟩

end Fallible

end Rebac
