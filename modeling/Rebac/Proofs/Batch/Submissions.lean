import Rebac.Proofs.Batch.Identify
import Mathlib.Data.List.Nodup

set_option autoImplicit false

/-! # Ids submitted one after another -/

namespace Rebac.Batch

/-! ## Submissions to a tracker -/

/-- What is submitted to a tracker: an id if one is declared, and the id that would be generated. -/
structure Submission where
  declared : Option String
  generated : String

def Submission.id (s : Submission) : String := s.declared.getD s.generated

namespace Tracker

variable {t : Tracker} {s : Submission} {x : String}

def submit (t : Tracker) (s : Submission) : Except ValidationError String × Tracker :=
  t.ensure s.declared s.generated

def after (t : Tracker) : List Submission → Tracker
  | [] => t
  | s :: rest => (t.submit s).2.after rest

def answers (t : Tracker) : List Submission → List (Except ValidationError String)
  | [] => []
  | s :: rest => (t.submit s).1 :: (t.submit s).2.answers rest

theorem submit_seen (seen : s.id ∈ t.seen) :
    t.submit s = (.error (.duplicateCorrelationId s.id), t) := if_pos seen

theorem submit_unseen (unseen : s.id ∉ t.seen) :
    t.submit s = (.ok s.id, ⟨s.id :: t.seen⟩) := if_neg unseen

theorem mem_seen_submit : x ∈ (t.submit s).2.seen ↔ x = s.id ∨ x ∈ t.seen := by
  by_cases seen : s.id ∈ t.seen
  · rw [submit_seen seen]
    constructor
    · exact .inr
    · rintro (rfl | old)
      · exact seen
      · exact old
  · rw [submit_unseen seen, List.mem_cons]

theorem after_append (t : Tracker) (before later : List Submission) :
    t.after (before ++ later) = (t.after before).after later := by
  induction before generalizing t with
  | nil => rfl
  | cons s rest ih => exact ih _

theorem mem_seen_after (t : Tracker) (calls : List Submission) :
    x ∈ (t.after calls).seen ↔ x ∈ calls.map Submission.id ∨ x ∈ t.seen := by
  induction calls generalizing t with
  | nil => simp [after]
  | cons s rest ih =>
    rw [after, ih, mem_seen_submit, List.map_cons, List.mem_cons, ← or_assoc, or_comm (b := x = _)]

end Tracker

/-! ## The ids of a batch -/

/-- The ids that questions submit: what they declare, and else the next one of the supply. -/
def submitted (supply : IdSupply) (questions : List Question) : List String :=
  questions.mapIdx fun i q => q.correlationId.getD (supply (generatedCount (questions.take i)))

def FirstRepeat (ids : List String) (id : String) : Prop :=
  ∃ before after, ids = before ++ id :: after ∧ before.Nodup ∧ id ∈ before

theorem generatedCount_cons (q : Question) (rest : List Question) :
    generatedCount (q :: rest) =
      (if q.correlationId.isSome then 0 else 1) + generatedCount rest := by
  cases given : q.correlationId <;> simp [generatedCount, given, Nat.add_comm]

theorem itemsFrom_ids (supply : IdSupply) (used : Nat) (questions : List Question) :
    (itemsFrom supply used questions).map Identified.id =
      questions.mapIdx fun i q =>
        q.correlationId.getD (supply (used + generatedCount (questions.take i))) := by
  induction questions generalizing used with
  | nil => rfl
  | cons q rest ih =>
    rw [itemsFrom, List.map_cons, ih, List.mapIdx_cons]
    refine congrArg₂ List.cons rfl (congrArg (rest.mapIdx ·) ?_)
    funext i q'
    rw [List.take_succ_cons, generatedCount_cons]
    cases q.correlationId <;> simp [Nat.add_assoc]

theorem items_ids (supply : IdSupply) (questions : List Question) :
    (itemsFrom supply 0 questions).map Identified.id = submitted supply questions := by
  simp [itemsFrom_ids, submitted]

theorem not_firstRepeat {ids : List String} {id : String} (once : ids.Nodup) :
    ¬ FirstRepeat ids id := by
  rintro ⟨before, after, rfl, -, mem⟩
  exact (List.nodup_append.mp once).2.2 id mem id List.mem_cons_self rfl

theorem FirstRepeat.unique {ids : List String} {id other : String} (first : FirstRepeat ids id)
    (again : FirstRepeat ids other) : id = other := by
  obtain ⟨before, after, rfl, once, mem⟩ := first
  obtain ⟨before', after', eq, once', mem'⟩ := again
  -- The one that stood further to the right would have the other before it, twice.
  rcases List.append_eq_append_iff.mp eq with ⟨_ | ⟨x, more⟩, rfl, tail⟩ | ⟨_ | ⟨x, more⟩, rfl, tail⟩
  · exact (List.cons.inj tail).1
  · obtain ⟨rfl, -⟩ := List.cons.inj tail
    exact absurd rfl ((List.nodup_append.mp once').2.2 id mem id List.mem_cons_self)
  · exact (List.cons.inj tail).1.symm
  · obtain ⟨rfl, -⟩ := List.cons.inj tail
    exact absurd rfl ((List.nodup_append.mp once).2.2 other mem' other List.mem_cons_self)

theorem identifyFrom_error {seen : List String} (once : seen.Nodup) {supply : IdSupply} {used : Nat}
    {questions : List Question} {e : ValidationError} :
    identifyFrom ⟨seen⟩ supply used questions = .error e ↔
      ∃ id, FirstRepeat (seen.reverse ++ (itemsFrom supply used questions).map Identified.id) id ∧
        e = .duplicateCorrelationId id := by
  -- What was seen, oldest first, and what is still submitted are one list in every step.
  induction questions generalizing seen used with
  | nil =>
    have none (id : String) : ¬ FirstRepeat seen.reverse id :=
      not_firstRepeat (List.nodup_reverse.mpr once)
    simp [identifyFrom, itemsFrom, none]
  | cons q rest ih =>
    rw [itemsFrom, List.map_cons]
    simp only [identifyFrom, Tracker.ensure]
    generalize q.correlationId.getD (supply used) = id
    by_cases old : id ∈ seen
    · have here : FirstRepeat (seen.reverse ++ id :: (itemsFrom supply
          (if q.correlationId.isSome then used else used + 1) rest).map Identified.id) id :=
        ⟨_, _, rfl, List.nodup_reverse.mpr once, List.mem_reverse.mpr old⟩
      simp only [old, ↓reduceIte, Except.error.injEq]
      constructor
      · rintro rfl
        exact ⟨id, here, rfl⟩
      · rintro ⟨other, first, rfl⟩
        rw [here.unique first]
    · have later : identifyFrom ⟨id :: seen⟩ supply
          (if q.correlationId.isSome then used else used + 1) rest = .error e ↔ _ :=
        ih (List.nodup_cons.mpr ⟨old, once⟩)
      rw [List.reverse_cons, List.append_assoc, List.singleton_append] at later
      rw [← later]
      simp only [old, ↓reduceIte]
      cases identifyFrom ⟨id :: seen⟩ supply
          (if q.correlationId.isSome then used else used + 1) rest with
      | error cause => exact Iff.rfl
      | ok tail =>
        constructor
        · intro named
          cases named
        · intro named
          cases named

/-- Questions that are named keep their number, their order and all that they hold, and no id
comes twice. They are refused just for the first submitted id that was submitted before; with fresh
ids, just when two declared ones are equal. Whatever was submitted to a tracker, it refuses just an
id that was, and goes on as if that had not been submitted again. -/
theorem ids_submitted_once (supply : IdSupply) (questions : List Question) :
    (∀ items, identify supply questions = .ok items →
      List.Forall₂ Names questions items ∧
        items.map Identified.id = submitted supply questions ∧
        (items.map Identified.id).Nodup) ∧
    (∀ e, identify supply questions = .error e ↔
      ∃ id, FirstRepeat (submitted supply questions) id ∧ e = .duplicateCorrelationId id) ∧
    (supply.Fresh questions →
      ((∃ e, identify supply questions = .error e) ↔ ¬ (declared questions).Nodup)) ∧
    ∀ (before later : List Submission) (s : Submission),
      ((Tracker.empty.after before).submit s).1 =
        (if s.id ∈ before.map Submission.id then .error (.duplicateCorrelationId s.id)
          else .ok s.id) ∧
      (s.id ∈ before.map Submission.id →
        (Tracker.empty.after (before ++ [s])).answers later =
          (Tracker.empty.after before).answers later) := by
  refine ⟨fun items named => ?_, fun e => ?_, identify_refuses, fun before later s => ?_⟩
  · obtain ⟨names, once⟩ := identify_ok named
    refine ⟨names, ?_, once⟩
    rw [identifyFrom_items named, items_ids]
  · have refused : identifyFrom ⟨[]⟩ supply 0 questions = .error e ↔ _ :=
      identifyFrom_error List.nodup_nil
    rwa [List.reverse_nil, List.nil_append, items_ids] at refused
  · have known : s.id ∈ (Tracker.empty.after before).seen ↔ s.id ∈ before.map Submission.id := by
      simp [Tracker.mem_seen_after, Tracker.empty]
    by_cases old : s.id ∈ before.map Submission.id
    · have same := Tracker.submit_seen (known.mpr old)
      refine ⟨by rw [same, if_pos old], fun _ => ?_⟩
      rw [Tracker.after_append, Tracker.after, same, Tracker.after]
    · have same := Tracker.submit_unseen (mt known.mp old)
      exact ⟨by rw [same, if_neg old], fun mem => absurd mem old⟩

def unnamedThenA : List Question :=
  [⟨"anne", "reader", "plan", none, [], none⟩, ⟨"bob", "reader", "plan", some "a", [], none⟩]

/-- The two are named if another id is generated for the first, and refused if it is the one that
the second declares. -/
theorem generated_id_declared_later :
    (∃ items, identify (fun _ => "b") unnamedThenA = .ok items ∧
      items.map Identified.id = submitted (fun _ => "b") unnamedThenA ∧
      (items.map Identified.id).Nodup) ∧
    FirstRepeat (submitted (fun _ => "a") unnamedThenA) "a" ∧
    (¬ ∃ e, identify (fun _ => "b") unnamedThenA = .error e) ∧
    ∀ later, (Tracker.empty.after [⟨none, "a"⟩, ⟨some "a", "b"⟩]).answers later =
      (Tracker.empty.after [⟨none, "a"⟩]).answers later := by
  obtain ⟨named, -, refused, -⟩ := ids_submitted_once (fun _ => "b") unnamedThenA
  obtain ⟨-, repeated, -, forgotten⟩ := ids_submitted_once (fun _ => "a") unnamedThenA
  refine ⟨⟨_, rfl, (named _ rfl).2⟩, ?_, ?_, fun later => ?_⟩
  · obtain ⟨id, first, same⟩ := (repeated (.duplicateCorrelationId "a")).mp rfl
    cases same
    exact first
  · have fresh : IdSupply.Fresh (fun _ => "b") unnamedThenA := ⟨by decide, by decide⟩
    exact fun failed => (refused fresh).mp failed (by decide)
  · exact (forgotten [⟨none, "a"⟩] later ⟨some "a", "b"⟩).2 (by decide)

end Rebac.Batch
