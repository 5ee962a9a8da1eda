import Rebac.Settings.Basic
import Mathlib.Data.List.Induction
import Mathlib.Data.List.Perm.Basic
import Mathlib.Data.String.Basic

set_option autoImplicit false

/-!
# Which header a name gets

The headers of a name, in whatever case it is spelt, are the part of a set that `named` keeps. A
merged set keeps the last of them and puts it in its place, so it has one header of each name that
is in either set. In a set whose names ascend the last header of a name is the one of its greatest
spelling.
-/
namespace Rebac.Headers

variable {h standing own pairs : List (String × String)} {e : String × String}
  {name value token k : String}

/-! ## The headers of a name -/

def named (k : String) (h : List (String × String)) : List (String × String) :=
  h.filter fun e => fold e.1 = fold k

theorem mem_named : e ∈ named k h ↔ e ∈ h ∧ fold e.1 = fold k := by
  simp [named]

theorem named_append (k : String) (xs ys : List (String × String)) :
    named k (xs ++ ys) = named k xs ++ named k ys := List.filter_append _ _

theorem named_cons_same (same : fold name = fold k) :
    named k ((name, value) :: h) = (name, value) :: named k h := by
  simp [named, same]

theorem named_cons_other (differs : fold name ≠ fold k) :
    named k ((name, value) :: h) = named k h := by
  simp [named, differs]

theorem named_others (differs : fold name ≠ fold k) :
    named k (h.filter fun e => fold e.1 ≠ fold name) = named k h := by
  rw [named, List.filter_filter]
  apply List.filter_congr
  intro e _
  by_cases same : fold e.1 = fold k
  · simp [same, Ne.symm differs]
  · simp [same]

theorem named_removed (same : fold name = fold k) :
    named k (h.filter fun e => fold e.1 ≠ fold name) = [] := by
  rw [named, List.filter_filter, List.filter_eq_nil_iff]
  intro e _
  simp [same]

theorem reserved_fold (same : fold name = fold k) : reserved name = reserved k := by
  simp [reserved, same]

theorem unreserved_apart (free : reserved k = false) :
    fold accept ≠ fold k ∧ fold contentType ≠ fold k := by
  simp only [reserved, Bool.or_eq_false_iff, decide_eq_false_iff_not] at free
  exact ⟨Ne.symm free.2, Ne.symm free.1⟩

theorem named_unreserved (free : reserved k = false) :
    named k (h.filter fun e => !reserved e.1) = named k h := by
  rw [named, List.filter_filter]
  apply List.filter_congr
  intro e _
  by_cases same : fold e.1 = fold k
  · simp [same, reserved_fold same, free]
  · simp [same]

/-! ## Sets in their order -/

/-- Headers whose names ascend, so that no name comes twice in one spelling. -/
def Ordered (h : List (String × String)) : Prop := h.Pairwise fun a b => a.1 < b.1

theorem insert_perm (fresh : ∀ e ∈ h, e.1 ≠ name) :
    (insert name value h).Perm ((name, value) :: h) := by
  induction h with
  | nil => exact .refl _
  | cons first rest ih =>
    obtain ⟨apart, fresh⟩ := List.forall_mem_cons.mp fresh
    rw [insert, if_neg (Ne.symm apart)]
    split
    · exact .refl _
    · exact ((ih fresh).cons first).trans (.swap _ _ _)

theorem mem_insert (mem : e ∈ insert name value h) : e = (name, value) ∨ e ∈ h := by
  induction h with
  | nil => exact .inl (List.mem_singleton.mp mem)
  | cons first rest ih =>
    rw [insert] at mem
    split at mem
    · exact List.mem_cons.mp mem
    · split at mem
      · exact (List.mem_cons.mp mem).imp_right (List.mem_cons_of_mem _)
      · rcases List.mem_cons.mp mem with rfl | later
        · exact .inr List.mem_cons_self
        · exact (ih later).imp_right (List.mem_cons_of_mem _)

theorem ordered_insert (ordered : Ordered h) : Ordered (insert name value h) := by
  induction h with
  | nil => exact List.pairwise_singleton _ _
  | cons first rest ih =>
    obtain ⟨above, rest⟩ := List.pairwise_cons.mp ordered
    rw [insert]
    split
    · rename_i lt
      refine List.pairwise_cons.mpr ⟨?_, ordered⟩
      intro e mem
      rcases List.mem_cons.mp mem with rfl | later
      · exact lt
      · exact lt_trans lt (above e later)
    · rename_i least
      split
      · rename_i same
        subst same
        exact List.pairwise_cons.mpr ⟨above, rest⟩
      · rename_i differs
        refine List.pairwise_cons.mpr ⟨?_, ih rest⟩
        intro e mem
        rcases mem_insert mem with rfl | later
        · exact lt_of_le_of_ne (le_of_not_gt least) (Ne.symm differs)
        · exact above e later

theorem ofList_concat (pairs : List (String × String)) (e : String × String) :
    ofList (pairs ++ [e]) = insert e.1 e.2 (ofList pairs) := by
  simp [ofList]

theorem ordered_ofList (pairs : List (String × String)) : Ordered (ofList pairs) := by
  induction pairs using List.reverseRecOn with
  | nil => exact .nil
  | append_singleton pairs e ih =>
    rw [ofList_concat]
    exact ordered_insert ih

theorem ofList_perm (distinct : pairs.Pairwise fun a b => a.1 ≠ b.1) :
    (ofList pairs).Perm pairs := by
  induction pairs using List.reverseRecOn with
  | nil => exact .refl _
  | append_singleton pairs e ih =>
    obtain ⟨distinct, -, apart⟩ := List.pairwise_append.mp distinct
    have placed := ih distinct
    rw [ofList_concat]
    refine (insert_perm ?_).trans ((placed.cons e).trans (List.perm_append_singleton e pairs).symm)
    intro a mem
    exact apart a (placed.mem_iff.mp mem) e (List.mem_singleton_self e)

theorem ordered_eq_of_perm {h' : List (String × String)} (ordered : Ordered h)
    (ordered' : Ordered h') (perm : h.Perm h') : h = h' :=
  perm.eq_of_pairwise (fun _ _ _ _ lt gt => absurd gt (lt_asymm lt)) ordered ordered'

/-! ## The greatest spelling -/

def Greatest (h : List (String × String)) (k : String) (e : String × String) : Prop :=
  e ∈ h ∧ fold e.1 = fold k ∧ ∀ x ∈ h, fold x.1 = fold k → x.1 ≤ e.1

theorem greatest_iff_last (ordered : Ordered h) :
    Greatest h k e ↔ (named k h).getLast? = some e := by
  have ascends : Ordered (named k h) := ordered.filter _
  rw [List.getLast?_eq_some_iff]
  constructor
  · rintro ⟨mem, same, most⟩
    have here : e ∈ named k h := mem_named.mpr ⟨mem, same⟩
    rcases List.eq_nil_or_concat' (named k h) with none | ⟨before, last, eq⟩
    · rw [none] at here
      cases here
    · refine ⟨before, ?_⟩
      rw [eq] at here ascends ⊢
      rcases List.mem_append.mp here with early | late
      · have below := (List.pairwise_append.mp ascends).2.2 e early last
          (List.mem_singleton_self last)
        have within : last ∈ named k h := by simp [eq]
        obtain ⟨there, alike⟩ := mem_named.mp within
        exact absurd below (not_lt_of_ge (most last there alike))
      · rw [List.mem_singleton.mp late]
  · rintro ⟨before, eq⟩
    have here : e ∈ named k h := by simp [eq]
    obtain ⟨mem, same⟩ := mem_named.mp here
    refine ⟨mem, same, fun x there alike => ?_⟩
    have listed : x ∈ named k h := mem_named.mpr ⟨there, alike⟩
    rw [eq] at listed ascends
    rcases List.mem_append.mp listed with early | late
    · exact le_of_lt ((List.pairwise_append.mp ascends).2.2 x early e (List.mem_singleton_self e))
    · rw [List.mem_singleton.mp late]

/-! ## Small letters -/

theorem toLower_cases (c : Char) :
    c.toLower = c ∨ 65 ≤ c.toNat ∧ c.toNat ≤ 90 ∧ c.toLower.toNat = c.toNat + 32 := by
  unfold Char.toLower
  split
  · rename_i upper
    have least : 65 ≤ c.toNat := upper.1
    have most : c.toNat ≤ 90 := upper.2
    refine .inr ⟨least, most, ?_⟩
    change (c.val + 32).toNat = c.toNat + 32
    rw [UInt32.toNat_add]
    exact Nat.mod_eq_of_lt (Nat.lt_of_le_of_lt (Nat.add_le_add_right most 32) (by decide))
  · exact .inl rfl

theorem le_toLower (c : Char) : c ≤ c.toLower := by
  rcases toLower_cases c with eq | ⟨-, -, eq⟩
  · exact le_of_eq eq.symm
  · refine Char.le_def.mpr (UInt32.le_iff_toNat_le.mpr ?_)
    change c.toNat ≤ c.toLower.toNat
    omega

theorem toLower_toLower (c : Char) : c.toLower.toLower = c.toLower := by
  rcases toLower_cases c.toLower with eq | ⟨least, most, -⟩
  · exact eq
  · rcases toLower_cases c with eq | ⟨least', -, eq⟩
    · rw [eq, eq]
    · omega

theorem fold_fold (name : String) : fold (fold name) = fold name := by
  rw [fold, fold, String.toList_ofList, List.map_map]
  exact congrArg _ (List.map_congr_left fun c _ => toLower_toLower c)

theorem le_map_toLower (cs : List Char) : cs ≤ cs.map Char.toLower := by
  induction cs with
  | nil => exact le_refl _
  | cons c rest ih =>
    refine not_lt.mp fun less => ?_
    rcases List.cons_lt_cons_iff.mp less with less | ⟨-, less⟩
    · exact not_lt_of_ge (le_toLower c) less
    · exact not_lt_of_ge ih less

/-- Small letters come after capital ones, so no spelling of a name is greater than the one in small
letters. -/
theorem le_fold (name : String) : name ≤ fold name := by
  rw [String.le_iff_toList_le, fold, String.toList_ofList]
  exact le_map_toLower name.toList

theorem greatest_fold (mem : (fold k, value) ∈ h) : Greatest h k (fold k, value) :=
  ⟨mem, fold_fold k, fun x _ same => same ▸ le_fold x.1⟩

/-! ## Merged sets -/

/-- The headers that are left of two sets when each name has one, in no order of their own. -/
def winners (standing own : Headers) : List (String × String) :=
  ((standing ++ own).filter fun e => !reserved e.1).foldl override []

def gather (chosen : List (String × String)) : Headers :=
  insert accept json (insert contentType json (ofList chosen))

theorem named_override (k : String) (pairs : List (String × String)) :
    named k (pairs.foldl override []) = (named k pairs).getLast?.toList := by
  induction pairs using List.reverseRecOn with
  | nil => rfl
  | append_singleton pairs e ih =>
    rw [List.foldl_append, List.foldl_cons, List.foldl_nil, override, named_append, named_append]
    by_cases same : fold e.1 = fold k
    · rw [named_removed same, named_cons_same same, List.getLast?_append]
      rfl
    · rw [named_others same, named_cons_other same, ih]
      simp [named]

theorem winners_distinct (standing own : Headers) :
    (winners standing own).Pairwise fun a b => fold a.1 ≠ fold b.1 := by
  rw [winners]
  induction (standing ++ own).filter (fun e => !reserved e.1) using List.reverseRecOn with
  | nil => exact .nil
  | append_singleton pairs e ih =>
    rw [List.foldl_append, List.foldl_cons, List.foldl_nil, override]
    refine List.pairwise_append.mpr ⟨ih.filter _, List.pairwise_singleton _ _, ?_⟩
    intro a mem b last
    rw [List.mem_singleton.mp last]
    simpa using (List.mem_filter.mp mem).2

theorem named_winners (free : reserved k = false) (standing own : Headers) :
    named k (winners standing own) =
      ((named k own).getLast?.or (named k standing).getLast?).toList := by
  rw [winners, named_override, named_unreserved free, named_append, List.getLast?_append]

theorem winners_unreserved (standing own : Headers) :
    ∀ e ∈ winners standing own, reserved e.1 = false := by
  intro e mem
  have here : e ∈ named e.1 (winners standing own) := mem_named.mpr ⟨mem, rfl⟩
  rw [winners, named_override] at here
  have kept := List.mem_of_getLast? (Option.mem_toList.mp here)
  simpa using (List.mem_filter.mp (mem_named.mp kept).1).2

theorem gather_perm {chosen : List (String × String)}
    (distinct : chosen.Pairwise fun a b => fold a.1 ≠ fold b.1)
    (free : ∀ e ∈ chosen, reserved e.1 = false) :
    (gather chosen).Perm ((accept, json) :: (contentType, json) :: chosen) := by
  have placed : (ofList chosen).Perm chosen :=
    ofList_perm (distinct.imp fun differs eq => differs (congrArg fold eq))
  have other {k : String} (taken : reserved k = true) : ∀ e ∈ chosen, e.1 ≠ k := by
    rintro e mem rfl
    rw [free e mem] at taken
    cases taken
  have first : (insert contentType json (ofList chosen)).Perm ((contentType, json) :: chosen) := by
    refine (insert_perm fun e mem => ?_).trans (placed.cons _)
    exact other (by decide) e (placed.mem_iff.mp mem)
  refine (insert_perm fun e mem => ?_).trans (first.cons _)
  rcases List.mem_cons.mp (first.mem_iff.mp mem) with rfl | chosen
  · decide
  · exact other (by decide) e chosen

/-- A merged set is told by its members alone: in whatever order the headers that are left are
visited, it is the same. -/
theorem gather_eq_merge {visited : List (String × String)}
    (order : visited.Perm (winners standing own)) : gather visited = merge standing own := by
  have distinct := (order.pairwise_iff fun differs => Ne.symm differs).mpr
    (winners_distinct standing own)
  have free : ∀ e ∈ visited, reserved e.1 = false := fun e mem =>
    winners_unreserved standing own e (order.mem_iff.mp mem)
  have whole := gather_perm (winners_distinct standing own) (winners_unreserved standing own)
  apply ordered_eq_of_perm
  · exact ordered_insert (ordered_insert (ordered_ofList _))
  · exact ordered_insert (ordered_insert (ordered_ofList _))
  · exact (gather_perm distinct free).trans (((order.cons _).cons _).trans whole.symm)

theorem merge_perm (standing own : Headers) :
    (merge standing own).Perm ((accept, json) :: (contentType, json) :: winners standing own) :=
  gather_perm (winners_distinct standing own) (winners_unreserved standing own)

theorem named_of_perm {h' : List (String × String)} {o : Option (String × String)}
    (perm : h.Perm h') (eq : named k h' = o.toList) : named k h = o.toList := by
  have kept : (named k h).Perm o.toList := eq ▸ perm.filter _
  cases o with
  | none => exact List.perm_nil.mp kept
  | some e => exact List.perm_singleton.mp kept

theorem named_merge (free : reserved k = false) (standing own : Headers) :
    named k (merge standing own) =
      ((named k own).getLast?.or (named k standing).getLast?).toList := by
  obtain ⟨apart, apart'⟩ := unreserved_apart free
  refine named_of_perm (merge_perm standing own) ?_
  calc
    _ = named k ((contentType, json) :: winners standing own) := named_cons_other apart
    _ = named k (winners standing own) := named_cons_other apart'
    _ = _ := named_winners free standing own

theorem named_winners_reserved (taken : reserved k = true) (standing own : Headers) :
    named k (winners standing own) = [] := by
  apply List.filter_eq_nil_iff.mpr
  intro e mem same
  have free := winners_unreserved standing own e mem
  rw [reserved_fold (of_decide_eq_true same), taken] at free
  cases free

theorem named_contentType (standing own : Headers) :
    named contentType (merge standing own) = [(contentType, json)] := by
  have apart : fold accept ≠ fold contentType := by decide
  have none := named_winners_reserved (k := contentType) (by decide) standing own
  refine named_of_perm (o := some (contentType, json)) (merge_perm standing own) ?_
  calc
    _ = named contentType ((contentType, json) :: winners standing own) := named_cons_other apart
    _ = (contentType, json) :: named contentType (winners standing own) := named_cons_same rfl
    _ = _ := by rw [none]; rfl

theorem named_accept (standing own : Headers) :
    named accept (merge standing own) = [(accept, json)] := by
  have apart : fold contentType ≠ fold accept := by decide
  have none := named_winners_reserved (k := accept) (by decide) standing own
  refine named_of_perm (o := some (accept, json)) (merge_perm standing own) ?_
  calc
    _ = (accept, json) :: named accept ((contentType, json) :: winners standing own) :=
      named_cons_same rfl
    _ = (accept, json) :: named accept (winners standing own) :=
      congrArg _ (named_cons_other apart)
    _ = _ := by rw [none]; rfl

theorem named_merge_le (k : String) (standing own : Headers) :
    (named k (merge standing own)).length ≤ 1 := by
  cases free : reserved k with
  | false =>
    rw [named_merge free]
    exact Option.length_toList_le
  | true =>
    have alike {name : String} (same : fold k = fold name) :
        named k (merge standing own) = named name (merge standing own) := by
      rw [named, same]
      rfl
    simp only [reserved, Bool.or_eq_true, decide_eq_true_eq] at free
    rcases free with same | same
    · rw [alike same, named_contentType]
      exact Nat.le_refl 1
    · rw [alike same, named_accept]
      exact Nat.le_refl 1

/-! ## Standing headers -/

theorem ordered_standing {s : Settings} (ordered : Ordered s.headers) :
    Ordered s.standingHeaders := by
  rw [Settings.standingHeaders]
  split
  · exact ordered
  · exact ordered_insert (ordered.filter _)

theorem standing_perm {s : Settings} (given : s.apiToken = some token) :
    s.standingHeaders.Perm ((Settings.authorization, "Bearer " ++ token) ::
      s.headers.filter fun e => fold e.1 ≠ fold Settings.authorization) := by
  rw [Settings.standingHeaders, given]
  apply insert_perm
  rintro e mem eq
  simp [eq] at mem

theorem named_standing_token {s : Settings} (given : s.apiToken = some token)
    (same : fold Settings.authorization = fold k) :
    named k s.standingHeaders = [(Settings.authorization, "Bearer " ++ token)] := by
  refine named_of_perm (o := some _) (standing_perm given) ?_
  rw [named_cons_same same, named_removed same]
  rfl

theorem named_standing_other {s : Settings} (ordered : Ordered s.headers)
    (other : s.apiToken = none ∨ fold Settings.authorization ≠ fold k) :
    named k s.standingHeaders = named k s.headers := by
  cases given : s.apiToken with
  | none => rw [Settings.standingHeaders, given]
  | some token =>
    have differs := other.resolve_left (by simp [given])
    have perm : (named k s.standingHeaders).Perm (named k _) := (standing_perm given).filter _
    rw [named_cons_other differs, named_others differs] at perm
    exact ordered_eq_of_perm ((ordered_standing ordered).filter _) (ordered.filter _) perm

/-! ## Precedence -/

def Tokened (token : Option String) (k : String) : Prop :=
  fold Settings.authorization = fold k ∧ token ≠ none

def Occurs (standing : Headers) (token : Option String) (own : Headers) (k : String) : Prop :=
  (∃ e ∈ own, fold e.1 = fold k) ∨ (∃ e ∈ standing, fold e.1 = fold k) ∨ Tokened token k

/-- The header that a name gets: its greatest spelling among a call's own headers, or else the
token, or else its greatest spelling among the standing headers. -/
inductive Winner (standing : Headers) (token : Option String) (own : Headers) (k : String) :
    String × String → Prop where
  | own {e : String × String} : Greatest own k e → Winner standing token own k e
  | token {t : String} : (∀ e ∈ own, fold e.1 ≠ fold k) →
      fold Settings.authorization = fold k → token = some t →
      Winner standing token own k (Settings.authorization, "Bearer " ++ t)
  | standing {e : String × String} : (∀ e ∈ own, fold e.1 ≠ fold k) → ¬ Tokened token k →
      Greatest standing k e → Winner standing token own k e

/-- A set that has one header for each name that occurs, by the precedence of names, and none for
any other, beside the two that say bodies are JSON. -/
structure Precedence (standing : Headers) (token : Option String) (own merged : Headers) :
    Prop where
  present : ∀ k, reserved k = false → Occurs standing token own k →
    ∃ e, named k merged = [e] ∧ Winner standing token own k e
  absent : ∀ k, reserved k = false → ¬ Occurs standing token own k → named k merged = []
  contentType : named contentType merged = [(contentType, json)]
  accept : named accept merged = [(accept, json)]

theorem named_eq_nil : named k h = [] ↔ ∀ e ∈ h, fold e.1 ≠ fold k := by
  simp [named]

theorem last_named_none : (named k h).getLast? = none ↔ ∀ e ∈ h, fold e.1 ≠ fold k := by
  rw [List.getLast?_eq_none_iff, named_eq_nil]

theorem merge_present {s : Settings} {own : Headers} (standing : Ordered s.headers)
    (perCall : Ordered own) (free : reserved k = false)
    (occurs : Occurs s.headers s.apiToken own k) :
    ∃ e, named k (merge s.standingHeaders own) = [e] ∧ Winner s.headers s.apiToken own k e := by
  rw [named_merge free]
  cases last : (named k own).getLast? with
  | some e => exact ⟨e, rfl, .own ((greatest_iff_last perCall).mpr last)⟩
  | none =>
    have none' := last_named_none.mp last
    by_cases tokened : Tokened s.apiToken k
    · obtain ⟨same, given⟩ := tokened
      obtain ⟨t, given⟩ := Option.ne_none_iff_exists'.mp given
      exact ⟨_, by rw [named_standing_token given same]; rfl, .token none' same given⟩
    · have other : s.apiToken = none ∨ fold Settings.authorization ≠ fold k := by
        by_cases same : fold Settings.authorization = fold k
        · exact .inl (Classical.byContradiction fun given => tokened ⟨same, given⟩)
        · exact .inr same
      rw [named_standing_other standing other]
      cases last : (named k s.headers).getLast? with
      | some e => exact ⟨e, rfl, .standing none' tokened ((greatest_iff_last standing).mpr last)⟩
      | none =>
        rcases occurs with ⟨e, mem, same⟩ | ⟨e, mem, same⟩ | given
        · exact absurd same (none' e mem)
        · exact absurd same (last_named_none.mp last e mem)
        · exact absurd given tokened

theorem merge_absent {s : Settings} {own : Headers} (standing : Ordered s.headers)
    (free : reserved k = false) (nowhere : ¬ Occurs s.headers s.apiToken own k) :
    named k (merge s.standingHeaders own) = [] := by
  have other : s.apiToken = none ∨ fold Settings.authorization ≠ fold k := by
    by_cases same : fold Settings.authorization = fold k
    · exact .inl (Classical.byContradiction fun given => nowhere (.inr (.inr ⟨same, given⟩)))
    · exact .inr same
  have unowned : named k own = [] :=
    named_eq_nil.mpr fun e mem same => nowhere (.inl ⟨e, mem, same⟩)
  have unset : named k s.headers = [] :=
    named_eq_nil.mpr fun e mem same => nowhere (.inr (.inl ⟨e, mem, same⟩))
  rw [named_merge free, named_standing_other standing other, unowned, unset]
  rfl

theorem merge_precedence {s : Settings} {own : Headers} (standing : Ordered s.headers)
    (perCall : Ordered own) :
    Precedence s.headers s.apiToken own (merge s.standingHeaders own) where
  present _ := merge_present standing perCall
  absent _ := merge_absent standing
  contentType := named_contentType _ _
  accept := named_accept _ _

end Rebac.Headers
