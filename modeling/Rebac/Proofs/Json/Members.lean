import Rebac.Json.Basic
import Mathlib.Data.List.Nodup

set_option autoImplicit false

/-! # Members by name -/

namespace Rebac

namespace Members

theorem lookup_absent {β : Type} {pairs : List (String × β)} {name : String}
    (absent : name ∉ pairs.map Prod.fst) : pairs.lookup name = none := by
  apply List.lookup_eq_none_iff.mpr
  intro p mem
  have differs : name ≠ p.1 := by
    rintro rfl
    exact absent (List.mem_map.mpr ⟨p, mem, rfl⟩)
  simpa using differs

theorem find?_insert (name other : String) (value : Json) (m : Members) :
    (m.insert name value).find? other = if other = name then some value else m.find? other := by
  induction m with
  | nil =>
    by_cases same : other = name
    · simp [insert, find?, same]
    · simp [insert, find?, same, Ne.symm same]
  | cons member rest ih =>
    obtain ⟨k, v⟩ := member
    unfold insert
    by_cases before : name < k
    · rw [if_pos before, find?]
      by_cases same : other = name
      · rw [if_pos same.symm, if_pos same]
      · rw [if_neg (Ne.symm same), if_neg same]
    · rw [if_neg before]
      by_cases here : name = k
      · subst here
        rw [if_pos rfl, find?, find?]
        by_cases same : other = name
        · rw [if_pos same.symm, if_pos same]
        · rw [if_neg (Ne.symm same), if_neg same, if_neg (Ne.symm same)]
      · rw [if_neg here, find?, find?, ih]
        by_cases there : k = other
        · subst there
          rw [if_pos rfl, if_pos rfl, if_neg (Ne.symm here)]
        · rw [if_neg there, if_neg there]

theorem find?_foldl_insert (pairs : List (String × Json)) (m : Members) (name : String)
    (once : (pairs.map Prod.fst).Nodup) :
    (pairs.foldl (fun acc pair => acc.insert pair.1 pair.2) m).find? name =
      (pairs.lookup name).or (m.find? name) := by
  induction pairs generalizing m with
  | nil => rfl
  | cons pair rest ih =>
    obtain ⟨k, v⟩ := pair
    rw [List.map_cons, List.nodup_cons] at once
    rw [List.foldl_cons, ih _ once.2, find?_insert]
    by_cases same : name = k
    · subst same
      have absent := lookup_absent once.1
      simp [absent]
    · have differs : (name == k) = false := by simpa using same
      simp [List.lookup_cons, differs, same]

theorem insert_perm {name : String} {m : Members} (value : Json)
    (absent : name ∉ m.map Prod.fst) : (m.insert name value).Perm ((name, value) :: m) := by
  induction m with
  | nil => exact .refl _
  | cons member rest ih =>
    obtain ⟨k, v⟩ := member
    rw [List.map_cons, List.mem_cons, not_or] at absent
    unfold insert
    split
    · exact .refl _
    · rw [if_neg absent.1]
      exact ((ih absent.2).cons (k, v)).trans (.swap _ _ _)

theorem foldl_insert_perm {pairs : List (String × Json)} {m : Members}
    (once : ((pairs ++ m).map Prod.fst).Nodup) :
    (pairs.foldl (fun acc pair => acc.insert pair.1 pair.2) m).Perm (pairs ++ m) := by
  induction pairs generalizing m with
  | nil => exact .refl _
  | cons pair rest ih =>
    obtain ⟨k, v⟩ := pair
    rw [List.cons_append, List.map_cons, List.nodup_cons, List.map_append, List.mem_append,
      not_or] at once
    have joined := insert_perm v once.1.2
    have moved : (rest ++ m.insert k v).Perm ((k, v) :: (rest ++ m)) :=
      (joined.append_left rest).trans List.perm_middle
    have still : ((rest ++ m.insert k v).map Prod.fst).Nodup := by
      refine (moved.map Prod.fst).nodup_iff.mpr ?_
      rw [List.map_cons, List.nodup_cons, List.map_append, List.mem_append, not_or]
      exact once
    exact (ih still).trans moved

theorem ofList_perm {pairs : List (String × Json)} (once : (pairs.map Prod.fst).Nodup) :
    (ofList pairs).Perm pairs := by
  have whole := foldl_insert_perm (m := []) (by simpa using once)
  rwa [List.append_nil] at whole

end Members

namespace Json

theorem member?_ofMembers (pairs : List (String × Json)) (once : (pairs.map Prod.fst).Nodup)
    (name : String) : (ofMembers pairs).member? name = pairs.lookup name := by
  have found := Members.find?_foldl_insert pairs [] name once
  rw [Members.find?, Option.or_none] at found
  exact found

theorem lookup_present (pairs : List (String × Option Json)) (name : String)
    (once : (pairs.map Prod.fst).Nodup) :
    (pairs.filterMap fun pair => pair.2.map fun v => (pair.1, v)).lookup name =
      (pairs.lookup name).join := by
  induction pairs with
  | nil => rfl
  | cons pair rest ih =>
    obtain ⟨k, value⟩ := pair
    rw [List.map_cons, List.nodup_cons] at once
    have tail := ih once.2
    by_cases same : name = k
    · subst same
      have absent := Members.lookup_absent once.1
      cases value with
      | none => simp [tail, absent]
      | some v => simp
    · have differs : (name == k) = false := by simpa using same
      cases value with
      | none => simpa [List.lookup_cons, differs] using tail
      | some v => simpa [List.lookup_cons, differs] using tail

theorem present_sublist (pairs : List (String × Option Json)) :
    ((pairs.filterMap fun pair => pair.2.map fun v => (pair.1, v)).map Prod.fst).Sublist
      (pairs.map Prod.fst) := by
  induction pairs with
  | nil => exact .slnil
  | cons pair rest ih =>
    obtain ⟨k, value⟩ := pair
    cases value with
    | none => exact ih.cons k
    | some v => exact ih.cons_cons k

theorem ofPresent_object (pairs : List (String × Option Json))
    (once : (pairs.map Prod.fst).Nodup) : ∃ members : Members,
      ofPresent pairs = .object members ∧
        ∀ name, members.find? name = (pairs.lookup name).join := by
  refine ⟨_, rfl, ?_⟩
  intro name
  have found := member?_ofMembers _ (once.sublist (present_sublist pairs)) name
  rw [lookup_present pairs name once] at found
  exact found

theorem member?_ofPresent (pairs : List (String × Option Json))
    (once : (pairs.map Prod.fst).Nodup) (name : String) :
    (ofPresent pairs).member? name = (pairs.lookup name).join := by
  obtain ⟨members, eq, found⟩ := ofPresent_object pairs once
  rw [eq]
  exact found name

end Json

end Rebac
