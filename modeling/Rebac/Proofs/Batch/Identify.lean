import Rebac.Client.Batch
import Mathlib.Data.List.Forall2

set_option autoImplicit false

/-! # Questions and their ids -/

namespace Rebac.Batch

/-- The item of a question: the question as it is, but for the id, which is the declared one if
there is one. -/
structure Names (q : Question) (item : Identified) : Prop where
  question : item.question = { q with correlationId := some item.id }
  declared : ∀ id, q.correlationId = some id → item.id = id

theorem identifyFrom_ok {t : Tracker} {supply : IdSupply} {used : Nat} {questions : List Question}
    {items : List Identified} (named : identifyFrom t supply used questions = .ok items) :
    List.Forall₂ Names questions items ∧ (items.map Identified.id).Nodup ∧
      ∀ item ∈ items, item.id ∉ t.seen := by
  induction questions generalizing t used items with
  | nil =>
    cases named
    exact ⟨.nil, List.nodup_nil, by simp⟩
  | cons q rest ih =>
    simp only [identifyFrom, Tracker.ensure] at named
    by_cases seen : q.correlationId.getD (supply used) ∈ t.seen
    · simp [seen] at named
    · simp only [seen, ↓reduceIte] at named
      cases others : identifyFrom ⟨q.correlationId.getD (supply used) :: t.seen⟩ supply
          (if q.correlationId.isSome then used else used + 1) rest with
      | error e =>
        rw [others] at named
        cases named
      | ok tail =>
        rw [others] at named
        cases named
        obtain ⟨names, once, fresh⟩ := ih others
        refine ⟨.cons ⟨rfl, ?_⟩ names, ?_, ?_⟩
        · intro id declared
          rw [declared]
          rfl
        · rw [List.map_cons, List.nodup_cons]
          refine ⟨?_, once⟩
          intro mem
          obtain ⟨item, there, eq⟩ := List.mem_map.mp mem
          exact fresh item there (eq ▸ List.mem_cons_self)
        · intro item mem
          rcases List.mem_cons.mp mem with rfl | there
          · exact seen
          · exact fun old => fresh item there (List.mem_cons_of_mem _ old)

theorem identify_ok {supply : IdSupply} {questions : List Question} {items : List Identified}
    (named : identify supply questions = .ok items) :
    List.Forall₂ Names questions items ∧ (items.map Identified.id).Nodup := by
  obtain ⟨names, once, -⟩ := identifyFrom_ok named
  exact ⟨names, once⟩

theorem items_eq_nil_iff {supply : IdSupply} {questions : List Question} {items : List Identified}
    (named : identify supply questions = .ok items) : items = [] ↔ questions = [] := by
  rw [← List.length_eq_zero_iff, ← List.length_eq_zero_iff, (identify_ok named).1.length_eq]

/-! ## Declared and generated ids -/

def declared (questions : List Question) : List String :=
  questions.filterMap Question.correlationId

def generatedFrom (supply : IdSupply) (used : Nat) (questions : List Question) : List String :=
  (List.range' used (generatedCount questions)).map supply

structure IdSupply.Fresh (supply : IdSupply) (questions : List Question) : Prop where
  distinct : (generatedFrom supply 0 questions).Nodup
  apart : ∀ id ∈ generatedFrom supply 0 questions, id ∉ declared questions

def itemsFrom (supply : IdSupply) (used : Nat) : List Question → List Identified
  | [] => []
  | q :: rest =>
    let id := q.correlationId.getD (supply used)
    ⟨id, { q with correlationId := some id }⟩ ::
      itemsFrom supply (if q.correlationId.isSome then used else used + 1) rest

theorem identifyFrom_eq {t : Tracker} {supply : IdSupply} {used : Nat} {questions : List Question}
    (once : ((itemsFrom supply used questions).map Identified.id).Nodup)
    (fresh : ∀ item ∈ itemsFrom supply used questions, item.id ∉ t.seen) :
    identifyFrom t supply used questions = .ok (itemsFrom supply used questions) := by
  induction questions generalizing t used with
  | nil => rfl
  | cons q rest ih =>
    rw [itemsFrom, List.map_cons, List.nodup_cons] at once
    have unseen := fresh _ List.mem_cons_self
    have later : ∀ item ∈ itemsFrom supply (if q.correlationId.isSome then used else used + 1) rest,
        item.id ∉ q.correlationId.getD (supply used) :: t.seen := by
      intro item mem seen
      rcases List.mem_cons.mp seen with same | old
      · have again := List.mem_map_of_mem (f := Identified.id) mem
        rw [same] at again
        exact once.1 again
      · exact fresh item (List.mem_cons_of_mem _ mem) old
    have others := ih (t := ⟨_⟩) once.2 later
    simp only [identifyFrom, Tracker.ensure, unseen, ↓reduceIte, others]
    rfl

theorem identifyFrom_items {t : Tracker} {supply : IdSupply} {used : Nat}
    {questions : List Question} {items : List Identified}
    (named : identifyFrom t supply used questions = .ok items) :
    items = itemsFrom supply used questions := by
  induction questions generalizing t used items with
  | nil => exact (Except.ok.inj named).symm
  | cons q rest ih =>
    simp only [identifyFrom, Tracker.ensure] at named
    by_cases seen : q.correlationId.getD (supply used) ∈ t.seen
    · simp [seen] at named
    · simp only [seen, ↓reduceIte] at named
      cases others : identifyFrom ⟨q.correlationId.getD (supply used) :: t.seen⟩ supply
          (if q.correlationId.isSome then used else used + 1) rest with
      | error e =>
        rw [others] at named
        cases named
      | ok tail =>
        rw [others] at named
        cases named
        rw [itemsFrom, ← ih others]

theorem itemsFrom_perm (supply : IdSupply) (used : Nat) (questions : List Question) :
    ((itemsFrom supply used questions).map Identified.id).Perm
      (declared questions ++ generatedFrom supply used questions) := by
  induction questions generalizing used with
  | nil => exact .refl _
  | cons q rest ih =>
    cases given : q.correlationId with
    | some id =>
      have same : generatedCount (q :: rest) = generatedCount rest := by
        simp [generatedCount, given]
      simpa [itemsFrom, declared, generatedFrom, given, same] using ih used
    | none =>
      have more : generatedCount (q :: rest) = generatedCount rest + 1 := by
        simp [generatedCount, given]
      have tail := (ih (used + 1)).cons (supply used)
      have front := tail.trans List.perm_middle.symm
      simpa [itemsFrom, declared, generatedFrom, given, more, List.range'_succ] using front

theorem itemsFrom_congr {supply other : IdSupply} {questions : List Question} {used : Nat}
    (agree : ∀ i < used + generatedCount questions, other i = supply i) :
    itemsFrom other used questions = itemsFrom supply used questions := by
  induction questions generalizing used with
  | nil => rfl
  | cons q rest ih =>
    cases given : q.correlationId with
    | some id =>
      have same : generatedCount (q :: rest) = generatedCount rest := by
        simp [generatedCount, given]
      rw [same] at agree
      simp [itemsFrom, given, ih agree]
    | none =>
      have more : generatedCount (q :: rest) = generatedCount rest + 1 := by
        simp [generatedCount, given]
      rw [more] at agree
      have first := agree used (by omega)
      have others : itemsFrom other (used + 1) rest = itemsFrom supply (used + 1) rest :=
        ih fun i lt => agree i (by omega)
      simp [itemsFrom, given, first, others]

theorem identify_eq_ok_iff {supply : IdSupply} {questions : List Question}
    (fresh : supply.Fresh questions) {items : List Identified} :
    identify supply questions = .ok items ↔
      (declared questions).Nodup ∧ items = itemsFrom supply 0 questions := by
  have perm := itemsFrom_perm supply 0 questions
  constructor
  · intro named
    obtain rfl := identifyFrom_items named
    have once := perm.nodup_iff.mp (identify_ok named).2
    exact ⟨(List.nodup_append.mp once).1, rfl⟩
  · rintro ⟨distinct, rfl⟩
    apply identifyFrom_eq
    · refine perm.nodup_iff.mpr (List.nodup_append.mpr ⟨distinct, fresh.distinct, ?_⟩)
      rintro id given _ made rfl
      exact fresh.apart id made given
    · simp [Tracker.empty]

theorem identify_congr {supply other : IdSupply} {questions : List Question}
    (distinct : (declared questions).Nodup) (fresh : supply.Fresh questions)
    (agree : ∀ i < generatedCount questions, other i = supply i) :
    identify other questions = .ok (itemsFrom supply 0 questions) := by
  have same : generatedFrom other 0 questions = generatedFrom supply 0 questions := by
    refine List.map_congr_left fun i mem => agree i ?_
    have := List.mem_range'_1.mp mem
    omega
  have fresh' : other.Fresh questions := ⟨same ▸ fresh.distinct, same ▸ fresh.apart⟩
  refine (identify_eq_ok_iff fresh').mpr ⟨distinct, (itemsFrom_congr fun i lt => agree i ?_).symm⟩
  omega

theorem identify_refuses {supply : IdSupply} {questions : List Question}
    (fresh : supply.Fresh questions) :
    (∃ cause, identify supply questions = .error cause) ↔ ¬ (declared questions).Nodup := by
  constructor
  · rintro ⟨cause, refused⟩ distinct
    have named := (identify_eq_ok_iff fresh).mpr ⟨distinct, rfl⟩
    cases refused.symm.trans named
  · intro repeated
    cases named : identify supply questions with
    | error cause => exact ⟨cause, rfl⟩
    | ok items => exact absurd ((identify_eq_ok_iff fresh).mp named).1 repeated

end Rebac.Batch
