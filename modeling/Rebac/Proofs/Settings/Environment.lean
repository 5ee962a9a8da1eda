import Rebac.Proofs.Headers
import Rebac.Proofs.Settings.Tree
import Rebac.Settings.Environment

set_option autoImplicit false

/-! # What an environment gives -/

namespace Rebac.Settings.Environment

open Rebac.Settings.Tree

variable {vars : List (String × String)} {named key name : String}

/-- What an environment gives for a variable: the text of the last one with its key. -/
def given? (vars : List (String × String)) (named : String) : Option String :=
  ((vars.filter fun v => key? v.1 = key? named).getLast?).map Prod.snd

def said? (vars : List (String × String)) (named : String) : Option Tree :=
  (given? vars named).map fun text => .leaf (guess text) origin

theorem layer_single : ∀ v ∈ layer vars, ∃ value origin, v.2 = .leaf value origin := by
  intro v mem
  obtain ⟨pair, -, eq⟩ := List.mem_filterMap.mp mem
  obtain ⟨key, -, rfl⟩ := Option.map_eq_some_iff.mp eq
  exact ⟨_, _, rfl⟩

theorem filter_layer (key : String) : (layer vars).filter (fun v => v.1 = key) =
    (vars.filter fun v => key? v.1 = some key).map fun v => (key, .leaf (guess v.2) origin) := by
  induction vars with
  | nil => rfl
  | cons v rest ih =>
    rw [layer] at ih ⊢
    rw [List.filterMap_cons, List.filter_cons]
    cases read : key? v.1 with
    | none => simpa using ih
    | some k =>
      rw [Option.map_some, List.filter_cons]
      by_cases same : k = key
      · simpa [same] using ih
      · simpa [same] using ih

theorem last?_layer (read : key? named = some key) :
    last? (layer vars) key = said? vars named := by
  rw [last?, filter_layer, said?, given?, read, List.getLast?_map, Option.map_map, Option.map_map]
  rfl

theorem said?_none (read : key? named = some key) :
    said? vars named = none ↔ ∀ v ∈ layer vars, v.1 ≠ key := by
  rw [← last?_layer read, last?, Option.map_eq_none_iff, List.getLast?_eq_none_iff,
    List.filter_eq_nil_iff]
  simp only [decide_eq_true_eq, ne_eq]

/-- An environment whose variables for a table are for its entries: none is for the table as a
whole, and none for a place in a list instead of it. -/
def EntriesOnly (vars : List (String × String)) (table : String) : Prop :=
  ∀ v ∈ vars, ∀ key rest, key? v.1 = some key → pathOf key.toList = .name table :: rest →
    ∃ name inner, rest = .name name :: inner

theorem EntriesOnly.layer {table : String} (entries : EntriesOnly vars table) :
    ∀ v ∈ layer vars, ∀ rest, pathOf v.1.toList = .name table :: rest →
      ∃ name inner, rest = .name name :: inner := by
  intro v mem rest path
  obtain ⟨pair, within, eq⟩ := List.mem_filterMap.mp mem
  obtain ⟨key, read, rfl⟩ := Option.map_eq_some_iff.mp eq
  exact entries pair within key rest read path

/-! ## Variables of headers -/

def isHeaderChar (c : Char) : Bool := c.isAlphanum || c = '-'

def IsHeaderName (name : String) : Prop := name.toList ≠ [] ∧ ∀ c ∈ name.toList, isHeaderChar c

theorem nest_plain {cs : List Char} (plain : '_' ∉ cs) : nest cs = cs := by
  induction cs with
  | nil => rfl
  | cons c rest ih =>
    obtain ⟨apart, plain⟩ := not_or.mp (List.mem_cons.not.mp plain)
    rw [nest, ih plain]
    exact fun _ eq _ => apart eq.symm

theorem lower_header (header : IsHeaderName name) :
    name.toList.map lower = (Headers.fold name).toList := by
  rw [Headers.fold, String.toList_ofList]
  refine List.map_congr_left fun c mem => ?_
  rw [lower, if_neg]
  -- the Kelvin sign is no ASCII letter, so it is in no such name
  rintro rfl
  exact absurd (header.2 _ mem) (by decide)

theorem IsHeaderName.fold (header : IsHeaderName name) : IsHeaderName (Headers.fold name) := by
  rw [IsHeaderName, Headers.fold, String.toList_ofList]
  refine ⟨fun none => header.1 (List.map_eq_nil_iff.mp none), fun c mem => ?_⟩
  obtain ⟨d, within, rfl⟩ := List.mem_map.mp mem
  rcases Headers.toLower_cases d with eq | ⟨least, most, eq⟩
  · rw [eq]
    exact header.2 d within
  · have small : d.toLower.isLower := by
      have above : 97 ≤ d.toLower.toNat := by omega
      have below : d.toLower.toNat ≤ 122 := by omega
      exact Bool.and_eq_true_iff.mpr ⟨decide_eq_true (UInt32.le_iff_toNat_le.mpr above),
        decide_eq_true (UInt32.le_iff_toNat_le.mpr below)⟩
    change (((_ || d.toLower.isLower) || _) || _) = true
    rw [small, Bool.or_true, Bool.true_or, Bool.true_or]

theorem IsHeaderName.isName (header : IsHeaderName name) : IsName name.toList := by
  refine ⟨header.1, fun c mem => ?_⟩
  have char := header.2 c mem
  simp only [isHeaderChar, Bool.or_eq_true, decide_eq_true_eq] at char
  rcases char with letter | rfl
  · simp [isNameChar, letter]
  · rfl

theorem IsHeaderName.plain (header : IsHeaderName name) : '_' ∉ name.toList :=
  fun mem => absurd (header.2 _ mem) (by decide)

def headerKey (name : String) : String := "default_headers." ++ Headers.fold name

theorem key?_header (header : IsHeaderName name) :
    key? ("FGA_DEFAULT_HEADERS__" ++ name) = some (headerKey name) := by
  have spelt : ("FGA_DEFAULT_HEADERS__" ++ name).toList.map lower =
      opening ++ "default_headers__".toList ++ (Headers.fold name).toList := by
    rw [String.toList_append, List.map_append, lower_header header]
    rfl
  have nested : nest ("default_headers__".toList ++ (Headers.fold name).toList) =
      "default_headers.".toList ++ (Headers.fold name).toList := by
    simp [nest, nest_plain header.fold.plain]
  have cut : (opening ++ "default_headers__".toList ++ (Headers.fold name).toList).drop
      opening.length = "default_headers__".toList ++ (Headers.fold name).toList := by
    rw [List.append_assoc, List.drop_left]
  have opens : opening.isPrefixOf
      (opening ++ "default_headers__".toList ++ (Headers.fold name).toList) := by
    rw [List.isPrefixOf_iff_prefix, List.append_assoc]
    exact List.prefix_append _ _
  rw [key?, spelt, if_pos opens, cut, nested, String.ofList_append, String.ofList_toList,
    String.ofList_toList]
  rfl

theorem pathOf_header (header : IsHeaderName name) : pathOf (headerKey name).toList =
    [.name "default_headers", .name (Headers.fold name)] := by
  have named : IsName "default_headers".toList := ⟨by decide, List.all_eq_true.mp (by decide)⟩
  have pair := pathOf_pair named header.fold.isName
  rw [String.ofList_toList, String.ofList_toList] at pair
  have key : "default_headers.".toList = "default_headers".toList ++ ['.'] := by decide
  change pathOf ("default_headers." ++ Headers.fold name).toList = _
  rw [String.toList_append, key, List.append_assoc]
  exact pair

end Rebac.Settings.Environment
