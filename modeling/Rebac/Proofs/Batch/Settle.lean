import Rebac.Client.Batch
import Rebac.Proofs.Question.Answer
import Mathlib.Data.List.Perm.Basic

set_option autoImplicit false

/-! # What an answer makes of a group of questions -/

namespace Rebac.Batch

/-- What the outcome of a request for a group means for the question of the group with an id:
whether it is allowed, and the error that is reported for it. -/
inductive Decides : Outcome → String → Bool → Option ClientError → Prop where
  | failed {e : CallError} {id : String} :
      ¬ e.Rejected → Decides (.error e) id false (some (.ofCall e))
  | undecodable {response : Response} {reason : Json.DecodeError} {id : String} :
      Answer.batch response.body = .error reason →
      Decides (.ok response) id false (some (.protocol reason.message))
  | answered {response : Response} {entries : List (String × Answer.Entry)} {id : String}
      {record : Json} {entry : Answer.Entry} :
      Answer.batch response.body = .ok entries → (id, entry) ∈ entries →
      Answer.Under id response.body record → entry.Reads record →
      Decides (.ok response) id (entry.allowed.getD false)
        (entry.error.map fun f => .checkItem f.inputError f.internalError f.message)
  | omitted {response : Response} {entries : List (String × Answer.Entry)} {id : String} :
      Answer.batch response.body = .ok entries → (∀ entry, (id, entry) ∉ entries) →
      (∀ record, ¬ Answer.Under id response.body record) →
      Decides (.ok response) id false (some (noResult id))

structure Reports (outcome : Outcome) (item : Identified) (verdict : Verdict) : Prop where
  id : verdict.id = item.id
  question : verdict.question = item.question
  decided : Decides outcome item.id verdict.allowed verdict.error

/-- The outcomes of a request for a group that end the batch, with the error they end it with. -/
inductive Aborts (group : List Identified) : Outcome → ClientError → Prop where
  | rejected {e : CallError} : e.Rejected → Aborts group (.error e) (.ofCall e)
  | unknown {response : Response} {entries : List (String × Answer.Entry)} {id : String}
      {record : Json} :
      Answer.batch response.body = .ok entries → Answer.Under id response.body record →
      (∀ item ∈ group, item.id ≠ id) → Aborts group (.ok response) (unknownId id)

variable {pending left group : List Identified} {entries : List (String × Answer.Entry)}
  {verdicts : List Verdict} {item : Identified} {id : String} {e : ClientError}

/-! ## Entries and pending questions -/

theorem take?_perm {rest : List Identified} (found : take? id pending = some (item, rest)) :
    item.id = id ∧ (item :: rest).Perm pending := by
  induction pending generalizing item rest with
  | nil => cases found
  | cons first others ih =>
    unfold take? at found
    split at found
    · rename_i here
      cases found
      exact ⟨here, .refl _⟩
    · obtain ⟨⟨later, rest'⟩, there, eq⟩ := Option.map_eq_some_iff.mp found
      cases eq
      obtain ⟨same, perm⟩ := ih there
      exact ⟨same, (List.Perm.swap first later rest').trans (perm.cons first)⟩

theorem take?_none (absent : take? id pending = none) : ∀ item ∈ pending, item.id ≠ id := by
  induction pending with
  | nil => simp
  | cons first others ih =>
    unfold take? at absent
    split at absent
    · cases absent
    · rename_i differs
      have later := ih (Option.map_eq_none_iff.mp absent)
      intro item mem
      rcases List.mem_cons.mp mem with rfl | there
      · exact differs
      · exact later item there

/-- Each entry has taken a question of its own, the one with its id. -/
theorem assign_ok (done : assign pending entries = .ok (verdicts, left)) :
    ∃ taken : List (Identified × Answer.Entry),
      verdicts = taken.map (fun t => t.2.verdict t.1) ∧
      entries = taken.map (fun t => (t.1.id, t.2)) ∧
      (taken.map Prod.fst ++ left).Perm pending := by
  induction entries generalizing pending verdicts left with
  | nil =>
    cases done
    exact ⟨[], rfl, rfl, .refl _⟩
  | cons first rest ih =>
    obtain ⟨id, entry⟩ := first
    unfold assign at done
    cases found : take? id pending with
    | none =>
      rw [found] at done
      cases done
    | some taking =>
      obtain ⟨item, others⟩ := taking
      rw [found] at done
      cases tail : assign others rest with
      | error e =>
        simp only [tail] at done
        cases done
      | ok assigned =>
        obtain ⟨more, left'⟩ := assigned
        simp only [tail] at done
        cases done
        obtain ⟨same, perm⟩ := take?_perm found
        obtain ⟨taken, rfl, rfl, whole⟩ := ih tail
        exact ⟨(item, entry) :: taken, rfl, by rw [List.map_cons, same],
          (whole.cons item).trans perm⟩

theorem assign_error (once : (entries.map Prod.fst).Nodup)
    (failed : assign pending entries = .error e) : ∃ id entry, (id, entry) ∈ entries ∧
      (∀ item ∈ pending, item.id ≠ id) ∧ e = unknownId id := by
  induction entries generalizing pending with
  | nil => cases failed
  | cons first rest ih =>
    obtain ⟨id, entry⟩ := first
    rw [List.map_cons, List.nodup_cons] at once
    unfold assign at failed
    cases found : take? id pending with
    | none =>
      rw [found] at failed
      exact ⟨id, entry, List.mem_cons_self, take?_none found, (Except.error.inj failed).symm⟩
    | some taking =>
      obtain ⟨item, others⟩ := taking
      rw [found] at failed
      cases tail : assign others rest with
      | ok assigned =>
        simp only [tail] at failed
        cases failed
      | error f =>
        simp only [tail] at failed
        cases failed
        obtain ⟨same, perm⟩ := take?_perm found
        obtain ⟨other, entry', mem, absent, eq⟩ := ih once.2 tail
        refine ⟨other, entry', List.mem_cons_of_mem _ mem, ?_, eq⟩
        intro p there
        rcases List.mem_cons.mp (perm.mem_iff.mpr there) with rfl | remains
        · -- the taken question goes by the id of this entry, which no later entry has
          rintro rfl
          exact once.1 (List.mem_map.mpr ⟨_, mem, same⟩)
        · exact absent p remains

/-! ## Groups -/

variable {visit : Visit} {outcome : Outcome}

theorem left_absent {taken : List (Identified × Answer.Entry)}
    (once : (group.map Identified.id).Nodup) (perm : (taken.map Prod.fst ++ left).Perm group)
    (mem : item ∈ left) (entry : Answer.Entry) :
    (item.id, entry) ∉ taken.map fun t => (t.1.id, t.2) := by
  intro taking
  obtain ⟨⟨other, entry'⟩, there, eq⟩ := List.mem_map.mp taking
  have apart := (perm.map Identified.id).nodup_iff.mpr once
  rw [List.map_append, List.nodup_append] at apart
  have ids : other.id ∈ (taken.map Prod.fst).map Identified.id :=
    List.mem_map_of_mem (List.mem_map.mpr ⟨_, there, rfl⟩)
  exact apart.2.2 other.id ids item.id (List.mem_map_of_mem mem) (congrArg Prod.fst eq)

theorem assign_decides {response : Response} (once : (group.map Identified.id).Nodup)
    (decoded : Answer.batch response.body = .ok entries)
    (done : assign group (visit.entries entries) = .ok (verdicts, left)) : ∃ inOrder,
      (verdicts ++ (visit.leftovers left).map fun item =>
        Verdict.failed item (noResult item.id)).Perm inOrder ∧
        List.Forall₂ (Reports (.ok response)) group inOrder := by
  obtain ⟨taken, rfl, visited, perm⟩ := assign_ok done
  have entered (id : String) (entry : Answer.Entry) :
      (id, entry) ∈ entries ↔ (id, entry) ∈ taken.map fun t => (t.1.id, t.2) := by
    rw [← visited]
    exact ((visit.entries_perm entries).mem_iff).symm
  have answered : List.Forall₂ (Reports (.ok response)) (taken.map Prod.fst)
      (taken.map fun t => t.2.verdict t.1) := by
    rw [List.forall₂_map_left_iff, List.forall₂_map_right_iff, List.forall₂_same]
    intro t mem
    have entry : (t.1.id, t.2) ∈ entries := (entered _ _).mpr (List.mem_map.mpr ⟨t, mem, rfl⟩)
    obtain ⟨record, under, reads⟩ := Answer.batch_entry decoded entry
    exact ⟨rfl, rfl, .answered decoded entry under reads⟩
  have omitted : List.Forall₂ (Reports (.ok response)) (visit.leftovers left)
      ((visit.leftovers left).map fun item => .failed item (noResult item.id)) := by
    rw [List.forall₂_map_right_iff, List.forall₂_same]
    intro item mem
    have absent (entry : Answer.Entry) : (item.id, entry) ∉ entries := fun within =>
      left_absent once perm ((visit.leftovers_perm left).mem_iff.mp mem) entry
        ((entered _ _).mp within)
    refine ⟨rfl, rfl, .omitted decoded absent fun record under => ?_⟩
    obtain ⟨entry, within⟩ := Answer.batch_under decoded under
    exact absent entry within
  have all := List.rel_append answered omitted
  have order : group.Perm (taken.map Prod.fst ++ visit.leftovers left) :=
    perm.symm.trans ((visit.leftovers_perm left).symm.append_left _)
  -- the verdicts follow the visit; put in the order of the group, they are those of its items
  obtain ⟨inOrder, related, rearranged⟩ := List.perm_comp_forall₂ order all
  exact ⟨inOrder, rearranged.symm, related⟩

theorem settleGroup_ok (once : (group.map Identified.id).Nodup)
    (settled : settleGroup visit group outcome = .ok verdicts) : ∃ inOrder,
      verdicts.Perm inOrder ∧ List.Forall₂ (Reports outcome) group inOrder := by
  unfold settleGroup at settled
  cases read : Answer.ofOutcome Answer.batch outcome with
  | error e =>
    rw [read] at settled
    by_cases fatal : e.fatal = true
    · simp [fatal] at settled
    · simp only [fatal, Bool.false_eq_true, ↓reduceIte, Except.ok.injEq] at settled
      refine ⟨verdicts, .refl _, ?_⟩
      rw [← settled, List.forall₂_map_right_iff, List.forall₂_same]
      intro item _
      rcases Answer.ofOutcome_error.mp read with ⟨err, rfl, rfl⟩ | ⟨response, reason, rfl, bad, rfl⟩
      · exact ⟨rfl, rfl, .failed fun rejected =>
          fatal ((ClientError.fatal_ofCall err).mpr rejected)⟩
      · exact ⟨rfl, rfl, .undecodable bad⟩
  | ok entries =>
    rw [read] at settled
    obtain ⟨response, rfl, decoded⟩ := Answer.ofOutcome_ok.mp read
    cases assigned : assign group (visit.entries entries) with
    | error e =>
      simp only [assigned] at settled
      cases settled
    | ok parts =>
      obtain ⟨given, left⟩ := parts
      simp only [assigned] at settled
      cases settled
      exact assign_decides once decoded assigned

theorem settleGroup_error (failed : settleGroup visit group outcome = .error e) :
    Aborts group outcome e := by
  unfold settleGroup at failed
  cases read : Answer.ofOutcome Answer.batch outcome with
  | error f =>
    rw [read] at failed
    by_cases fatal : f.fatal = true
    · simp only [fatal, ↓reduceIte, Except.error.injEq] at failed
      subst failed
      rcases Answer.ofOutcome_error.mp read with ⟨err, rfl, rfl⟩ | ⟨response, reason, rfl, -, rfl⟩
      · exact .rejected ((ClientError.fatal_ofCall err).mp fatal)
      · cases fatal
    · simp [fatal] at failed
  | ok entries =>
    rw [read] at failed
    obtain ⟨response, rfl, decoded⟩ := Answer.ofOutcome_ok.mp read
    cases assigned : assign group (visit.entries entries) with
    | ok parts =>
      simp only [assigned] at failed
      cases failed
    | error f =>
      simp only [assigned] at failed
      cases failed
      have perm := visit.entries_perm entries
      have once := (perm.map Prod.fst).nodup_iff.mpr (Answer.batch_nodup decoded)
      obtain ⟨id, entry, mem, absent, rfl⟩ := assign_error once assigned
      obtain ⟨record, under, -⟩ := Answer.batch_entry decoded (perm.mem_iff.mp mem)
      exact .unknown decoded under absent

theorem settleGroup_aborts (visit : Visit) (aborts : Aborts group outcome e) :
    ∃ f, settleGroup visit group outcome = .error f := by
  cases aborts with
  | @rejected err rejected =>
    have fatal := (ClientError.fatal_ofCall err).mpr rejected
    exact ⟨.ofCall err, by simp [settleGroup, Answer.ofOutcome, fatal]⟩
  | @unknown response entries id record decoded under absent =>
    obtain ⟨entry, mem⟩ := Answer.batch_under decoded under
    have read := Answer.ofOutcome_ok.mpr ⟨response, rfl, decoded⟩
    unfold settleGroup
    rw [read]
    cases assigned : assign group (visit.entries entries) with
    | error f => exact ⟨f, by simp only [assigned]; rfl⟩
    | ok parts =>
      obtain ⟨given, left⟩ := parts
      obtain ⟨taken, -, visited, perm⟩ := assign_ok assigned
      have entered := (visit.entries_perm entries).mem_iff.mpr mem
      rw [visited] at entered
      obtain ⟨t, there, eq⟩ := List.mem_map.mp entered
      have known : t.1 ∈ group :=
        perm.mem_iff.mp (List.mem_append_left _ (List.mem_map_of_mem there))
      exact absurd (congrArg Prod.fst eq) (absent t.1 known)

end Rebac.Batch
