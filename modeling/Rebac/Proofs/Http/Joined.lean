import Rebac.Http.Request
import Rebac.Proofs.Url.Authority
import Rebac.Proofs.Url.Parts
import Rebac.Proofs.Url.Path
import Rebac.Settings.Basic

set_option autoImplicit false

/-!
# Paths behind addresses

The path of a call is put behind the text of an address, and the whole is read as a URL. What is
read is the URL of the address, going on with the path, unless the address has a query or a
fragment, or spaces or controls at its end, or keeps an empty segment in front of the path.
-/
namespace Rebac

namespace Url

variable {scheme authority : List Char} {u : Url}

/-! ## Addresses that are accepted -/

/-- How the text of an address is made up, and what of it stands in front of a path: the head with
the authority, and the rest without some slashes, or with the spaces and controls at its end. -/
structure Addressed (address : String) (u : Url) where
  head : List Char
  scheme : List Char
  authority : List Char
  rest : List Char
  back : List Char
  slashes : Nat
  http : scheme ∈ httpSchemes
  heads : Heads head scheme authority
  stops : ∀ c ∈ rest.head?, ends c = true
  read : ofParts (written scheme authority rest) = .ok u
  fronts : front address.toList = head ++ back
  joins : back ++ List.replicate slashes '/' = rest ++ margin address.toList
  cut : slashes = 0 ∨ margin address.toList = []

theorem Heads.cut {head text back : List Char} {n : Nat} (heads : Heads head scheme authority)
    (eq : text ++ List.replicate n '/' = head ++ back) :
    ∃ behind, text = head ++ behind ∧ behind ++ List.replicate n '/' = back := by
  rcases List.append_eq_append_iff.mp eq with ⟨taken, rfl, slashes⟩ | ⟨behind, rfl, rfl⟩
  -- The head ends in a character of its authority, which is no slash.
  · have none : taken = [] := by
      by_contra filled
      obtain ⟨before, whole⟩ := heads.last
      have last := congrArg List.getLast? whole
      rw [List.getLast?_append_of_ne_nil _ filled, List.getLast?_append_of_ne_nil _ heads.filled,
        List.getLast?_eq_some_getLast filled, List.getLast?_eq_some_getLast heads.filled] at last
      have slash : taken.getLast filled ∈ List.replicate n '/' :=
        slashes ▸ List.mem_append_left _ (List.getLast_mem filled)
      have inside := heads.inside _ (List.getLast_mem heads.filled)
      rw [← Option.some.inj last, List.eq_of_mem_replicate slash] at inside
      exact absurd inside (by decide)
    subst none
    exact ⟨[], by simp, by simpa using slashes⟩
  · exact ⟨behind, rfl, rfl⟩

theorem addressed {address : String} (parsed : parse address = .ok u)
    (http : u.scheme ∈ Settings.schemes) : Nonempty (Addressed address u) := by
  unfold parse at parsed
  cases split : split? address.toList with
  | none =>
    rw [split] at parsed
    cases parsed
  | some parts =>
    rw [split] at parsed
    change ofParts parts = .ok u at parsed
    rw [split?_clean] at split
    have scheme : parts.scheme ∈ httpSchemes := by
      rw [ofParts_scheme parsed] at http
      simp only [Settings.schemes, List.mem_cons, List.not_mem_nil, or_false] at http
      rcases http with eq | eq
      · rw [← String.toList_ofList (l := parts.scheme), eq]
        decide
      · rw [← String.toList_ofList (l := parts.scheme), eq]
        decide
    have named : parts.authority ≠ some [] := by
      intro none
      rw [ofParts, none] at parsed
      obtain ⟨a, read, -⟩ := Fallible.bind_ok.mp parsed
      exact (readAuthority_http scheme read).1 rfl
    obtain ⟨head, authority, rest, whole, heads, stops, eq⟩ := taken?_heads split scheme named
    obtain ⟨n, cut, none⟩ := front_eq address.toList
    rw [whole, List.append_assoc] at cut
    obtain ⟨back, fronts, joins⟩ := heads.cut cut
    rw [eq] at parsed
    exact ⟨⟨head, _, authority, rest, back, n, scheme, heads, stops, parsed, fronts, joins, none⟩⟩

/-! ## Paths behind an address -/

def IsPath (path : String) : Prop :=
  ∃ segments, segments ≠ [] ∧ (∀ s ∈ segments, Plain s) ∧ path.toList = spell segments

namespace IsPath

variable {path : String} (plain : IsPath path)

include plain

theorem visible : ∀ c ∈ path.toList, isEdge c = false ∧ isTail c = false := by
  obtain ⟨segments, -, each, eq⟩ := plain
  intro c mem
  rw [eq] at mem
  obtain ⟨s, within, there⟩ := List.mem_flatMap.mp mem
  rcases List.mem_cons.mp there with rfl | there
  · decide
  · exact kept_visible ((each s within).char there).2

theorem starts : path.toList.head? = some '/' := by
  obtain ⟨segments, some, -, eq⟩ := plain
  obtain ⟨s, rest, rfl⟩ := List.exists_cons_of_ne_nil some
  rw [eq]
  rfl

theorem stops : ∀ c ∈ path.toList.head?, ends c = true := by
  intro c first
  rw [plain.starts] at first
  cases first
  decide

end IsPath

namespace Addressed

variable {address path : String} {v : Url} (at_ : Addressed address u)

theorem callUrl_taken {parts : Parts} (plain : IsPath path)
    (taken : taken? (at_.head ++ (at_.back ++ path.toList)) = some parts) :
    Http.callUrl address path = ofParts parts := by
  have filled : path.toList ≠ [] := by
    intro none
    have starts := plain.starts
    rw [none] at starts
    cases starts
  have cleaned : clean (Text.dropEndWhile (· = '/') address.toList ++ path.toList) = _ :=
    clean_append filled fun c mem => (plain.visible c mem).1
  have split : split? (Http.baseUrl address ++ path).toList = some parts := by
    rw [split?_clean, Http.baseUrl, String.toList_append, String.toList_ofList, cleaned, at_.fronts,
      List.append_assoc, taken]
  simp only [Http.callUrl, parse, split]

theorem back_stops (filled : at_.rest ≠ [] ∨ margin address.toList = []) :
    ∀ c ∈ at_.back.head?, ends c = true := by
  intro c first
  have there : c ∈ (at_.rest ++ margin address.toList).head? := by
    rw [← at_.joins, List.head?_append, Option.mem_def.mp first]
    rfl
  rcases filled with some | tight
  · rw [List.head?_append_of_ne_nil _ some] at there
    exact at_.stops c there
  · rw [tight, List.append_nil] at there
    exact at_.stops c there

theorem callUrl_eq (plain : IsPath path) (filled : at_.rest ≠ [] ∨ margin address.toList = []) :
    Http.callUrl address path =
      ofParts (written at_.scheme at_.authority (at_.back ++ path.toList)) := by
  have stops : ∀ c ∈ (at_.back ++ path.toList).head?, ends c = true := by
    intro c first
    by_cases none : at_.back = []
    · rw [none, List.nil_append] at first
      exact plain.stops c first
    · rw [List.head?_append_of_ne_nil _ none] at first
      exact at_.back_stops filled c first
  have taken := at_.heads.reads [] _ nofun stops
  rw [List.nil_append, List.append_nil] at taken
  exact at_.callUrl_taken plain taken

theorem back_wide (wide : margin address.toList ≠ []) :
    at_.back = at_.rest ++ margin address.toList := by
  have joins := at_.joins
  rwa [at_.cut.resolve_right wide, List.replicate_zero, List.append_nil] at joins

/-- Spaces and controls right behind an authority make it one that is not accepted. -/
theorem callUrl_ne (plain : IsPath path) (none : at_.rest = [])
    (wide : margin address.toList ≠ []) : Http.callUrl address path ≠ .ok v := by
  have behind := at_.back_wide wide
  rw [none, List.nil_append] at behind
  have outside : ∀ c ∈ margin address.toList, ends c = false := fun c mem =>
    (ends_edge (margin_edge mem)).1
  have taken := at_.heads.reads _ _ outside plain.stops
  rw [← behind] at taken
  rw [at_.callUrl_taken plain taken, behind]
  intro read
  obtain ⟨a, named, -⟩ := ofParts_written.mp at_.read
  obtain ⟨b, longer, -⟩ := ofParts_written.mp read
  exact readAuthority_edges at_.http named wide (fun c => margin_edge) longer

theorem callUrl_read (plain : IsPath path) (called : Http.callUrl address path = .ok v) :
    (at_.rest ≠ [] ∨ margin address.toList = []) ∧ SameServer u v ∧ v.path =
      String.ofList (readPath (written at_.scheme at_.authority (at_.back ++ path.toList))) := by
  by_cases filled : at_.rest ≠ [] ∨ margin address.toList = []
  · obtain ⟨v', read, same, path_⟩ := ofParts_again at_.read (at_.back ++ path.toList)
    rw [at_.callUrl_eq plain filled, read] at called
    cases called
    exact ⟨filled, same, path_⟩
  · rw [not_or, not_not] at filled
    exact absurd called (at_.callUrl_ne plain filled.1 filled.2)

theorem callUrl_ok (plain : IsPath path) (filled : at_.rest ≠ [] ∨ margin address.toList = []) :
    ∃ v, Http.callUrl address path = .ok v := by
  obtain ⟨v, read, -⟩ := ofParts_again at_.read (at_.back ++ path.toList)
  exact ⟨v, (at_.callUrl_eq plain filled).trans read⟩

/-! What is read of an address with a query or a fragment does not depend on what comes behind. -/

theorem rest_tail : (u.query = none ∧ u.fragment = none) ↔ ∀ c ∈ at_.rest, isTail c = false :=
  ofParts_tail at_.read

theorem mem_back_tail {c : Char} (tail : isTail c = true) : c ∈ at_.back ↔ c ∈ at_.rest := by
  obtain ⟨visible, whole⟩ := tail_visible tail
  have slash : c ∉ List.replicate at_.slashes '/' := fun mem => whole (List.eq_of_mem_replicate mem)
  have edge : c ∉ margin address.toList := fun mem => by
    simp [margin_edge mem] at visible
  have both : c ∈ at_.back ++ List.replicate at_.slashes '/' ↔
      c ∈ at_.rest ++ margin address.toList := by
    rw [at_.joins]
  simpa only [List.mem_append, slash, edge, or_false] using both

theorem path_tail (tail : ¬ (u.query = none ∧ u.fragment = none)) (more : List Char) :
    String.ofList (readPath (written at_.scheme at_.authority (at_.back ++ more))) = u.path := by
  obtain ⟨c, mem, mark⟩ : ∃ c ∈ at_.rest, isTail c = true := by simpa [at_.rest_tail] using tail
  have stop {text : List Char} (there : c ∈ text) : ∃ c ∈ text, (!isTail c) = false :=
    ⟨c, there, by rw [mark]; rfl⟩
  have there := stop ((at_.mem_back_tail mark).mpr mem)
  have same : (splitTail (at_.back ++ more)).1 = (splitTail at_.rest).1 := by
    rw [splitTail_path, splitTail_path, takeWhile_stopped there,
      ← takeWhile_stopped there (List.replicate at_.slashes '/'), at_.joins,
      takeWhile_stopped (stop mem)]
  rw [ofParts_path at_.read, readPath_written same]

/-! Without these, the path goes on behind what is left of the address. -/

section Tailless

variable (whole : ∀ c ∈ at_.rest, isTail c = false)

include whole

theorem back_tailless : ∀ c ∈ at_.back, isTail c = false := by
  intro c mem
  by_contra tail
  have mark : isTail c = true := by simpa using tail
  exact tail (whole c ((at_.mem_back_tail mark).mp mem))

theorem back_rooted (filled : at_.rest ≠ [] ∨ margin address.toList = []) : Rooted at_.back := by
  intro c first
  have stops := at_.back_stops filled c first
  have inside := at_.back_tailless whole c (List.mem_of_mem_head? first)
  simp only [isTail, Bool.or_eq_false_iff] at inside
  simpa [ends, inside] using stops

theorem callUrl_path (plain : IsPath path) (called : Http.callUrl address path = .ok v) :
    v.path.toList = base at_.back ++ path.toList := by
  obtain ⟨filled, -, eq⟩ := at_.callUrl_read plain called
  have tailless : ∀ c ∈ at_.back ++ path.toList, isTail c = false := by
    intro c mem
    rcases List.mem_append.mp mem with mem | mem
    · exact at_.back_tailless whole c mem
    · exact (plain.visible c mem).2
  have path_ := written_path at_.scheme at_.authority tailless
  obtain ⟨segments, some, each, spelt⟩ := plain
  rw [eq, String.toList_ofList, spelt]
  rw [spelt] at path_
  exact readPath_joined (http_special at_.http).1 some each path_ (at_.back_rooted whole filled)

theorem path_eq (tight : margin address.toList = []) :
    ∃ k, u.path.toList = base at_.back ++ List.replicate k '/' := by
  have path_ := written_path at_.scheme at_.authority whole
  have special := (http_special at_.http).1
  have rooted := at_.back_rooted whole (.inr tight)
  have joins := at_.joins
  rw [tight, List.append_nil] at joins
  rw [ofParts_path at_.read, String.toList_ofList]
  rcases Nat.eq_zero_or_pos at_.slashes with zero | pos
  · rw [zero, List.replicate_zero, List.append_nil] at joins
    by_cases none : at_.rest = []
    · refine ⟨1, ?_⟩
      rw [joins, none]
      simp [readPath, written, splitTail, breakAt, special, base, kept, spell, Text.piecesAt]
    · rw [joins] at rooted ⊢
      rcases readPath_alone special path_ none rooted with eq | eq
      · exact ⟨0, by rw [eq, List.replicate_zero, List.append_nil]⟩
      · exact ⟨1, eq⟩
  · have some : List.replicate at_.slashes ([] : List Char) ≠ [] := by simpa using pos.ne'
    have plain : ∀ s ∈ List.replicate at_.slashes [], Plain s := fun s mem =>
      List.eq_of_mem_replicate mem ▸ plain_nil
    refine ⟨at_.slashes, ?_⟩
    rw [← spell_slashes] at joins ⊢
    exact readPath_joined special some plain (path_.trans joins.symm) rooted

theorem path_short (filled : at_.rest ≠ []) (wide : margin address.toList ≠ []) :
    u.path.toList.length < (base at_.back).length := by
  have path_ := written_path at_.scheme at_.authority whole
  have rooted := at_.back_rooted whole (.inl filled)
  rw [at_.back_wide wide] at rooted ⊢
  have rooted' : Rooted at_.rest := by
    intro c first
    exact rooted c (by rwa [List.head?_append_of_ne_nil _ filled])
  obtain ⟨c, last, edge⟩ := getLast?_edges wide (fun c => margin_edge) []
  rw [ofParts_path at_.read, String.toList_ofList]
  exact length_readPath_lt (http_special at_.http).1 path_ filled rooted'
    (fun c mem => (ends_edge (margin_edge mem)).2) last edge

end Tailless

end Addressed

end Url

namespace Http

open Url

variable {address path : String} {u v : Url}

structure Continues (u : Url) (path : String) (v : Url) : Prop where
  server : SameServer u v
  path : v.path = baseUrl u.path ++ path

/-- An address that a path can be put behind: it has no query and no fragment, nothing that counts
stands behind its path, and no empty segment is left in front of the path. -/
structure Extensible (address : String) (u : Url) : Prop where
  query : u.query = none
  fragment : u.fragment = none
  tight : margin address.toList = []
  filled : ∀ w, callUrl address "/" = .ok w → ¬ ['/', '/'] <:+ w.path.toList

theorem isPath_slash : IsPath "/" :=
  ⟨[[]], List.cons_ne_nil _ _, by simpa using plain_nil, rfl⟩

/-- Whatever is called is on the server of the address, and at the path of the address itself if
that has a query or a fragment. -/
theorem callUrl_server (parsed : Url.parse address = .ok u) (http : u.scheme ∈ Settings.schemes)
    (plain : IsPath path) (called : callUrl address path = .ok v) :
    SameServer u v ∧ (¬ (u.query = none ∧ u.fragment = none) → v.path = u.path) := by
  obtain ⟨at_⟩ := addressed parsed http
  obtain ⟨-, same, path_⟩ := at_.callUrl_read plain called
  exact ⟨same, fun tail => path_.trans (at_.path_tail tail path.toList)⟩

theorem baseUrl_toList (text : String) :
    (baseUrl text).toList = Text.dropEndWhile (· = '/') text.toList := by
  rw [baseUrl, String.toList_ofList]

/-- A path is put behind an address as it should be just when the address is one for that. -/
theorem callUrl_continues_iff (parsed : Url.parse address = .ok u)
    (http : u.scheme ∈ Settings.schemes) (plain : IsPath path) (named : ∃ c ∈ path.toList, c ≠ '/') :
    (∃ v, callUrl address path = .ok v ∧ Continues u path v) ↔ Extensible address u := by
  obtain ⟨at_⟩ := addressed parsed http
  constructor
  · rintro ⟨v, called, -, goes⟩
    obtain ⟨filled, -, read⟩ := at_.callUrl_read plain called
    have goes' := congrArg String.toList goes
    rw [String.toList_append, baseUrl_toList] at goes'
    -- A query or a fragment takes the path of the call, so the path would be that of the address.
    have whole : u.query = none ∧ u.fragment = none := by
      by_contra tail
      rw [read, at_.path_tail tail path.toList] at goes'
      exact Text.dropEndWhile_append_ne (by simpa using named) goes'.symm
    have tailless := at_.rest_tail.mp whole
    rw [at_.callUrl_path tailless plain called] at goes'
    have same := List.append_cancel_right goes'
    have tight : margin address.toList = [] := by
      by_contra wide
      have shorter := at_.path_short tailless (filled.resolve_right wide) wide
      have cut := Text.length_dropEndWhile_le (· = '/') u.path.toList
      rw [← same] at cut
      omega
    refine ⟨whole.1, whole.2, tight, fun w closed => ?_⟩
    obtain ⟨k, own⟩ := at_.path_eq tailless tight
    rw [own, Text.dropEndWhile_append (by simp)] at same
    rw [at_.callUrl_path tailless isPath_slash closed]
    exact Text.dropEndWhile_slash_iff.mp same.symm
  · rintro ⟨query, fragment, tight, filled⟩
    have tailless := at_.rest_tail.mp ⟨query, fragment⟩
    obtain ⟨v, called⟩ := at_.callUrl_ok plain (.inr tight)
    obtain ⟨w, closed⟩ := at_.callUrl_ok isPath_slash (.inr tight)
    obtain ⟨k, own⟩ := at_.path_eq tailless tight
    have ending := filled w closed
    rw [at_.callUrl_path tailless isPath_slash closed] at ending
    refine ⟨v, called, (at_.callUrl_read plain called).2.1, String.toList_inj.mp ?_⟩
    rw [at_.callUrl_path tailless plain called, String.toList_append, baseUrl_toList, own,
      Text.dropEndWhile_append (by simp), Text.dropEndWhile_slash_iff.mpr ending]

end Http

end Rebac
