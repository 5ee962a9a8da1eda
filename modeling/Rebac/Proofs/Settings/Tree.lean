import Rebac.Proofs.Fallible
import Rebac.Settings.Tree
import Mathlib.Data.List.Basic
import Mathlib.Data.List.TakeWhile
import Mathlib.Data.List.Induction

set_option autoImplicit false

/-! # What stands in a tree -/

namespace Rebac

theorem Text.piecesAt_eq_splitOn (separator : Char) (cs : List Char) :
    Text.piecesAt (· = separator) cs = cs.splitOn separator := by
  induction cs with
  | nil => rfl
  | cons c rest ih =>
    rw [piecesAt, ih, List.splitOn_cons_eq_if_modifyHead]
    by_cases same : c = separator
    · simp [same]
    · simp only [same, decide_false, Bool.false_eq_true, ↓reduceIte, beq_iff_eq]
      cases pieces : rest.splitOn separator with
      | nil => exact absurd pieces (List.splitOn_ne_nil separator rest)
      | cons piece others => rfl

namespace Settings.Tree

variable {t top base : Tree} {es : Entries} {name table k key : String} {change : Tree → Tree}
  {path : List Step} {target : List String} {value : Json} {origin : Option String}
  {values : List (String × Tree)}

/-! ## Entries -/

theorem lookup_modify_same :
    (modify name change es).lookup name = some (change ((es.lookup name).getD unset)) := by
  induction es with
  | nil => simp [modify]
  | cons e rest ih =>
    obtain ⟨k, t⟩ := e
    rw [modify]
    split
    · rename_i same
      simp [same]
    · rename_i differs
      have other : (name == k) = false := beq_false_of_ne (Ne.symm differs)
      rw [List.lookup_cons, List.lookup_cons, other]
      exact ih

theorem lookup_modify_other (differs : k ≠ name) :
    (modify name change es).lookup k = es.lookup k := by
  induction es with
  | nil =>
    rw [modify, List.lookup_cons, beq_false_of_ne differs]
  | cons e rest ih =>
    obtain ⟨first, t⟩ := e
    rw [modify]
    split
    · rename_i same
      rw [List.lookup_cons, List.lookup_cons, same, beq_false_of_ne differs]
    · rw [List.lookup_cons, List.lookup_cons, ih]

theorem mem_modify {e : String × Tree} (mem : e ∈ modify name change es) :
    e ∈ es ∨ e.1 = name ∧ ∃ old, (old = unset ∨ (name, old) ∈ es) ∧ e.2 = change old := by
  induction es with
  | nil =>
    rw [List.mem_singleton.mp mem]
    exact .inr ⟨rfl, unset, .inl rfl, rfl⟩
  | cons first rest ih =>
    obtain ⟨k, t⟩ := first
    rw [modify] at mem
    split at mem
    · rename_i same
      subst same
      rcases List.mem_cons.mp mem with rfl | later
      · exact .inr ⟨rfl, t, .inr List.mem_cons_self, rfl⟩
      · exact .inl (List.mem_cons_of_mem _ later)
    · rcases List.mem_cons.mp mem with rfl | later
      · exact .inl List.mem_cons_self
      · refine (ih later).imp (List.mem_cons_of_mem _) fun ⟨named, old, from', eq⟩ => ?_
        exact ⟨named, old, from'.imp_right (List.mem_cons_of_mem _), eq⟩

@[simp] theorem entries_withEntries (change : Entries → Entries) (t : Tree) :
    (t.withEntries change).entries = change t.entries := by
  cases t with
  | leaf => rfl
  | table => rfl
  | list => rfl

theorem child?_put_same : (put top (.name name :: path) base).child? name =
    some (put top path ((base.child? name).getD unset)) := by
  rw [child?, put, entries_withEntries, lookup_modify_same, child?]

theorem child?_put_other (differs : k ≠ name) :
    (put top (.name name :: path) base).child? k = base.child? k := by
  rw [child?, put, entries_withEntries, lookup_modify_other differs, child?]

/-! ## Paths -/

theorem find?_cons : t.find? (name :: target) = (t.child? name).bind (·.find? target) := by
  simp [find?, List.foldlM_cons]

theorem find?_one (t : Tree) (name : String) : t.find? [name] = t.child? name := by
  rw [find?_cons]
  exact Option.bind_fun_some _

theorem find?_two (t : Tree) (table name : String) :
    t.find? [table, name] = (t.child? table).bind (·.child? name) := by
  rw [find?_cons]
  exact congrArg _ (funext fun inner => find?_one inner name)

theorem find?_unset (apart : target ≠ []) : unset.find? target = none := by
  obtain ⟨name, target, rfl⟩ := List.exists_cons_of_ne_nil apart
  rfl

theorem find?_put_below (top base : Tree) (target : List String) (path : List Step) :
    ∃ old, (put top (target.map .name ++ path) base).find? target = some (put top path old) := by
  induction target generalizing base with
  | nil => exact ⟨base, rfl⟩
  | cons name target ih =>
    rw [find?_cons, List.map_cons, List.cons_append, child?_put_same]
    exact ih _

theorem find?_put_same :
    (put (.leaf value origin) (target.map .name) base).find? target = some (.leaf value origin) := by
  obtain ⟨old, found⟩ := find?_put_below (.leaf value origin) base target []
  rwa [List.append_nil] at found

def isGroup : Tree → Bool
  | .leaf .. => false
  | _ => true

theorem isGroup_put (step : Step) : (put top (step :: path) base).isGroup := by
  cases step <;> cases base <;> rfl

theorem put_name (top : Tree) (name : String) (path : List Step) (base : Tree) : ∃ origin,
    put top (.name name :: path) base = .table (modify name (put top path) base.entries) origin := by
  cases base <;> exact ⟨_, rfl⟩

/-- A path that parts from a way through tables, at a name that is not the next one on it. -/
def Parts : List Step → List String → Prop
  | .name a :: path, b :: target => a ≠ b ∨ Parts path target
  | _, _ => False

theorem Parts.ne_nil (parts : Parts path target) : target ≠ [] := by
  rintro rfl
  unfold Parts at parts
  split at parts <;> trivial

theorem find?_put_parts (parts : Parts path target) :
    (put top path base).find? target = base.find? target := by
  induction path generalizing target base with
  | nil => exact parts.elim
  | cons step path ih =>
    obtain ⟨b, target, rfl⟩ := List.exists_cons_of_ne_nil parts.ne_nil
    cases step with
    | place index => exact parts.elim
    | name a =>
      rw [find?_cons, find?_cons]
      by_cases same : b = a
      · subst same
        have parts : Parts path target := parts.resolve_left (absurd rfl)
        rw [child?_put_same, Option.bind_some, ih parts]
        cases base.child? b with
        | some t => rfl
        | none => exact find?_unset parts.ne_nil
      · rw [child?_put_other same]

/-! ## Keys -/

theorem readPlaces?_some {cs : List Char} {steps : List Step} (read : readPlaces? cs = some steps) :
    (∀ step ∈ steps, ∃ index, step = .place index) ∧ (steps = [] → cs = []) := by
  unfold readPlaces? at read
  simp only at read
  split at read
  · rename_i last
    have each := Fallible.mapM_some.mp read
    refine ⟨fun step mem => ?_, fun none => ?_⟩
    · obtain ⟨piece, -, named⟩ := forall₂_mem_right each mem
      unfold readPlace? at named
      split at named
      · obtain ⟨index, -, eq⟩ := Option.map_eq_some_iff.mp named
        exact ⟨index, eq.symm⟩
      · cases named
    · subst none
      have pieces := List.dropLast_append_getLast? [] last
      rw [List.forall₂_nil_right_iff.mp each, Text.piecesAt_eq_splitOn] at pieces
      have whole : [']'].intercalate (cs.splitOn ']') = cs := List.intercalate_splitOn ']'
      rw [← whole, ← pieces]
      rfl
  · cases read

theorem readPart?_some {cs : List Char} {steps : List Step} (read : readPart? cs = some steps) :
    ∃ name places, steps = .name name :: places ∧ (∀ step ∈ places, ∃ index, step = .place index) ∧
      (places = [] → name.toList = cs) := by
  unfold readPart? at read
  split at read
  · cases read
  · rename_i named
    obtain ⟨places, behind, rfl⟩ := Option.map_eq_some_iff.mp read
    obtain ⟨all, alone⟩ := readPlaces?_some behind
    refine ⟨_, places, rfl, all, fun none => ?_⟩
    have whole := List.takeWhile_append_dropWhile (p := isNameChar) (l := cs)
    rw [alone none, List.append_nil] at whole
    rw [String.toList_ofList, whole]

theorem pathOf_cons (key : List Char) : ∃ name rest, pathOf key = .name name :: rest := by
  unfold pathOf
  split
  · rename_i parts read
    have each := Fallible.mapM_some.mp read
    obtain ⟨piece, others, pieces⟩ : ∃ piece others, Text.piecesAt (· = '.') key = piece :: others :=
      List.exists_cons_of_ne_nil (Text.piecesAt_eq_splitOn '.' key ▸ List.splitOn_ne_nil _ _)
    rw [pieces] at each
    obtain ⟨steps, rest, first, -, rfl⟩ := List.forall₂_cons_left_iff.mp each
    obtain ⟨name, places, rfl, -⟩ := readPart?_some first
    exact ⟨name, places ++ rest.flatten, rfl⟩
  · exact ⟨_, [], rfl⟩

theorem pieces_of_names {pieces : List (List Char)} {parts : List (List Step)} {names : List String}
    (each : List.Forall₂ (fun piece steps => readPart? piece = some steps) pieces parts)
    (path : parts.flatten = names.map .name) : names.map String.toList = pieces := by
  induction each generalizing names with
  | nil =>
    rw [List.map_eq_nil_iff.mp path.symm]
    rfl
  | cons first rest ih =>
    obtain ⟨name, places, rfl, all, alone⟩ := readPart?_some first
    cases names with
    | nil => cases path
    | cons n names =>
      rw [List.flatten_cons, List.cons_append, List.map_cons] at path
      obtain ⟨eq, behind⟩ := List.cons.inj path
      cases eq
      -- the step behind the name is a name or there is none, so there are no places
      cases places with
      | nil => rw [List.map_cons, alone rfl, ih behind]
      | cons step places =>
        obtain ⟨index, rfl⟩ := all step List.mem_cons_self
        cases names with
        | nil => cases behind
        | cons n names => cases (List.cons.inj behind).1

theorem intercalate_names {key : List Char} {names : List String}
    (path : pathOf key = names.map .name) : ['.'].intercalate (names.map String.toList) = key := by
  unfold pathOf at path
  split at path
  · rename_i read
    rw [pieces_of_names (Fallible.mapM_some.mp read) path, Text.piecesAt_eq_splitOn,
      List.intercalate_splitOn]
  · obtain ⟨name, rfl, eq⟩ : ∃ name, names = [name] ∧ name = String.ofList key := by
      cases names with
      | nil => cases path
      | cons name names =>
        obtain ⟨eq, rest⟩ := List.cons.inj path
        exact ⟨name, by rw [List.map_eq_nil_iff.mp rest.symm], (Step.name.inj eq).symm⟩
    simp [eq]

theorem eq_of_names (target : List String) (path : pathOf k.toList = target.map .name)
    (spelt : pathOf key.toList = target.map .name) : k = key := by
  rw [← String.toList_inj, ← intercalate_names path, intercalate_names spelt]

def IsName (name : List Char) : Prop := name ≠ [] ∧ ∀ c ∈ name, isNameChar c

theorem IsName.pointless {name : List Char} (named : IsName name) : '.' ∉ name :=
  fun mem => absurd (named.2 '.' mem) (by decide)

theorem readPart?_name {name : List Char} (named : IsName name) :
    readPart? name = some [.name (String.ofList name)] := by
  unfold readPart?
  rw [List.takeWhile_eq_self_iff.mpr named.2, List.dropWhile_eq_nil_iff.mpr named.2]
  split
  · exact absurd rfl named.1
  · rfl

theorem pathOf_pair {first second : List Char} (named : IsName first) (named' : IsName second) :
    pathOf (first ++ '.' :: second) =
      [.name (String.ofList first), .name (String.ofList second)] := by
  have pieces : Text.piecesAt (· = '.') (first ++ '.' :: second) = [first, second] := by
    rw [Text.piecesAt_eq_splitOn, List.splitOn_append_cons_self_of_not_mem named.pointless,
      List.splitOn_eq_singleton named'.pointless]
  have parts : [first, second].mapM readPart? =
      some [[.name (String.ofList first)], [.name (String.ofList second)]] :=
    Fallible.mapM_some.mpr
      (.cons (readPart?_name named) (.cons (readPart?_name named') .nil))
  rw [pathOf, pieces, parts]
  rfl

/-! ## Layers -/

theorem layer_concat (v : String × Tree) :
    base.layer (values ++ [v]) = put v.2 (pathOf v.1.toList) (base.layer values) := by
  rw [layer, List.foldl_append]
  rfl

def last? (values : List (String × Tree)) (key : String) : Option Tree :=
  ((values.filter fun v => v.1 = key).getLast?).map Prod.snd

theorem last?_concat_same (top : Tree) : last? (values ++ [(key, top)]) key = some top := by
  simp [last?]

theorem last?_concat_other {v : String × Tree} (differs : v.1 ≠ key) :
    last? (values ++ [v]) key = last? values key := by
  simp [last?, differs]

def Below (path : List Step) (target : List String) : Prop :=
  ∃ step rest, path = target.map .name ++ step :: rest

/-- Values that are single ones, each of them for a key or else no value on the way to its path. -/
def Clears (values : List (String × Tree)) (key : String) (target : List String) : Prop :=
  ∀ v ∈ values, (∃ value origin, v.2 = .leaf value origin) ∧
    (v.1 = key ∨ Below (pathOf v.1.toList) target ∨ Parts (pathOf v.1.toList) target)

/-- At the path of a key a layer leaves the last of its values for this key, or else what was there;
or else there is a table or a list. -/
theorem find?_layer (spelt : pathOf key.toList = target.map .name)
    (clears : Clears values key target) :
    (∃ t, (base.layer values).find? target = some t ∧ t.isGroup) ∨
      (base.layer values).find? target = (last? values key).or (base.find? target) := by
  induction values using List.reverseRecOn with
  | nil => exact .inr rfl
  | append_singleton values v ih =>
    obtain ⟨earlier, here⟩ := List.forall_mem_append.mp clears
    obtain ⟨⟨value, origin, single⟩, clear⟩ := here v (List.mem_singleton_self v)
    obtain ⟨k, top⟩ := v
    subst single
    rw [layer_concat]
    -- the last value decides at its own path, makes a group above it and leaves what it parts from
    by_cases same : k = key
    · subst same
      rw [spelt, find?_put_same, last?_concat_same]
      exact .inr rfl
    · rw [last?_concat_other same]
      rcases clear.resolve_left same with ⟨step, rest, below⟩ | parts
      · obtain ⟨old, found⟩ := find?_put_below (.leaf value origin) (base.layer values) target
          (step :: rest)
        exact .inl ⟨_, below ▸ found, isGroup_put step⟩
      · rw [find?_put_parts parts]
        exact ih earlier

theorem find?_layer_parts (base : Tree) (parts : ∀ v ∈ values, Parts (pathOf v.1.toList) target) :
    (base.layer values).find? target = base.find? target := by
  induction values using List.reverseRecOn with
  | nil => rfl
  | append_singleton values v ih =>
    rw [layer_concat, find?_put_parts (parts v (List.mem_append_right _ (List.mem_singleton_self v)))]
    exact ih fun v mem => parts v (List.mem_append_left _ mem)

theorem find?_layer_table (base : Tree)
    (each : ∀ v ∈ values, Parts (pathOf v.1.toList) target ∨
      ∃ name rest, pathOf v.1.toList = target.map .name ++ .name name :: rest)
    (reached : ∃ v ∈ values, ¬ Parts (pathOf v.1.toList) target) :
    ∃ es origin, (base.layer values).find? target = some (.table es origin) := by
  induction values using List.reverseRecOn with
  | nil => simp at reached
  | append_singleton values v ih =>
    rw [layer_concat]
    rcases each v (List.mem_append_right _ (List.mem_singleton_self v)) with parts |
      ⟨name, rest, below⟩
    · rw [find?_put_parts parts]
      refine ih (fun v mem => each v (List.mem_append_left _ mem)) ?_
      obtain ⟨w, mem, there⟩ := reached
      rcases List.mem_append.mp mem with early | late
      · exact ⟨w, early, there⟩
      · rw [List.mem_singleton.mp late] at there
        exact absurd parts there
    · obtain ⟨old, found⟩ := find?_put_below v.2 (base.layer values) target (.name name :: rest)
      obtain ⟨origin, table⟩ := put_name v.2 name rest old
      exact ⟨_, origin, by rw [below, found, table]⟩

theorem clear_one (alone : pathOf key.toList = [.name name]) (k : String) :
    k = key ∨ Below (pathOf k.toList) [name] ∨ Parts (pathOf k.toList) [name] := by
  obtain ⟨first, rest, path⟩ := pathOf_cons k.toList
  by_cases same : first = name
  · subst same
    cases rest with
    | nil => exact .inl (eq_of_names [first] path alone)
    | cons step rest => exact .inr (.inl ⟨step, rest, path⟩)
  · exact .inr (.inr (path ▸ .inl same))

theorem parts_one : Parts (pathOf k.toList) [name] ↔
    (pathOf k.toList).head? ≠ some (.name name) := by
  obtain ⟨first, rest, path⟩ := pathOf_cons k.toList
  rw [path, List.head?_cons, ne_eq, Option.some.injEq, Step.name.injEq]
  exact ⟨fun parts => parts.elim id fun none => (none.ne_nil rfl).elim, .inl⟩

theorem clear_two (pair : pathOf key.toList = [.name table, .name name])
    (entry : ∀ rest, pathOf k.toList = .name table :: rest → ∃ name inner, rest = .name name :: inner) :
    k = key ∨ Below (pathOf k.toList) [table, name] ∨ Parts (pathOf k.toList) [table, name] := by
  obtain ⟨first, rest, path⟩ := pathOf_cons k.toList
  by_cases same : first = table
  · subst same
    obtain ⟨second, inner, rfl⟩ := entry rest path
    by_cases same : second = name
    · subst same
      cases inner with
      | nil => exact .inl (eq_of_names [first, second] path pair)
      | cons step inner => exact .inr (.inl ⟨step, inner, path⟩)
    · exact .inr (.inr (path ▸ .inr (.inl same)))
  · exact .inr (.inr (path ▸ .inl same))

/-! ## Names of entries -/

/-- A tree whose tables have no name twice; what is within its lists does not matter. -/
inductive Distinct : Tree → Prop where
  | leaf (value : Json) (origin : Option String) : Distinct (.leaf value origin)
  | list (items : List Tree) (origin : Option String) : Distinct (.list items origin)
  | table {es : Entries} (origin : Option String) : (es.map Prod.fst).Nodup →
    (∀ e ∈ es, Distinct e.2) → Distinct (.table es origin)

theorem distinct_unset : Distinct unset := .leaf _ _

theorem distinct_empty : Distinct empty := .table _ .nil fun _ mem => absurd mem List.not_mem_nil

theorem Distinct.names (distinct : Distinct t) : (t.entries.map Prod.fst).Nodup := by
  cases distinct with
  | leaf => exact .nil
  | list => exact .nil
  | table _ names _ => exact names

theorem Distinct.within (distinct : Distinct t) : ∀ e ∈ t.entries, Distinct e.2 := by
  cases distinct with
  | leaf => exact nofun
  | list => exact nofun
  | table _ _ within => exact within

theorem mem_of_lookup (found : es.lookup name = some t) : (name, t) ∈ es := by
  obtain ⟨before, after, rfl, -⟩ := List.lookup_eq_some_iff.mp found
  exact List.mem_append_right _ List.mem_cons_self

theorem Distinct.entry (distinct : Distinct t) {inner : Tree} (found : t.child? name = some inner) :
    Distinct inner :=
  distinct.within _ (mem_of_lookup found)

def DistinctEntries (es : Entries) : Prop :=
  (es.map Prod.fst).Nodup ∧ ∀ e ∈ es, Distinct e.2

theorem nodup_modify (names : (es.map Prod.fst).Nodup) :
    ((modify name change es).map Prod.fst).Nodup := by
  induction es with
  | nil => exact List.pairwise_singleton _ name
  | cons first rest ih =>
    obtain ⟨k, t⟩ := first
    rw [modify]
    split
    · exact names
    · rename_i differs
      obtain ⟨fresh, names⟩ := List.nodup_cons.mp names
      refine List.nodup_cons.mpr ⟨fun again => ?_, ih names⟩
      obtain ⟨e, mem, eq⟩ := List.mem_map.mp again
      rcases mem_modify mem with early | ⟨named, -⟩
      · exact fresh (List.mem_map.mpr ⟨e, early, eq⟩)
      · exact differs (eq.symm.trans named)

theorem DistinctEntries.modify (distinct : DistinctEntries es)
    (keeps : ∀ old, Distinct old → Distinct (change old)) :
    DistinctEntries (modify name change es) := by
  refine ⟨nodup_modify distinct.1, fun e mem => ?_⟩
  rcases mem_modify mem with early | ⟨-, old, rfl | there, eq⟩
  · exact distinct.2 e early
  · exact eq ▸ keeps unset distinct_unset
  · exact eq ▸ keeps old (distinct.2 _ there)

theorem Distinct.withEntries {change : Entries → Entries} (distinct : Distinct t)
    (keeps : ∀ es, DistinctEntries es → DistinctEntries (change es)) :
    Distinct (t.withEntries change) := by
  have entries := keeps t.entries ⟨distinct.names, distinct.within⟩
  cases t with
  | leaf => exact .table _ entries.1 entries.2
  | table => exact .table _ entries.1 entries.2
  | list => exact .table _ entries.1 entries.2

mutual

theorem distinct_overlay : (top : Tree) → {base : Tree} → Distinct base →
    Distinct (overlay base top)
  | .leaf value origin, _, _ => .leaf value origin
  | .list items origin, _, _ => .list items origin
  | .table es _, _, distinct => distinct.withEntries fun _ old => distinct_overlayAll es old

theorem distinct_overlayAll : (es : List (String × Tree)) → {base : Entries} →
    DistinctEntries base → DistinctEntries (overlayAll es base)
  | [], _, distinct => distinct
  | (_, top) :: rest, _, distinct =>
    distinct_overlayAll rest (distinct.modify fun _ old => distinct_overlay top old)

end

theorem Distinct.put (distinct : Distinct base) : Distinct (put top path base) := by
  induction path generalizing base with
  | nil => exact distinct_overlay top distinct
  | cons step path ih =>
    cases step with
    | name name => exact distinct.withEntries fun _ old => old.modify fun _ => ih
    | place index => cases base <;> exact .list _ _

theorem Distinct.layer (distinct : Distinct base) : Distinct (base.layer values) := by
  induction values using List.reverseRecOn with
  | nil => exact distinct
  | append_singleton values v ih =>
    rw [layer_concat]
    exact ih.put

end Settings.Tree

end Rebac
