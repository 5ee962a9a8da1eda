import Rebac.Proofs.Identifier
import Rebac.Proofs.Number.Reading
import Rebac.Proofs.Settings.Layers

set_option autoImplicit false

/-! # Texts in an environment -/

namespace Rebac.Settings

open Rebac.Settings.Tree Environment

variable {t base : Tree} {vars : List (String × String)} {s : Settings} {key name text : String}
  {values : List (String × Tree)}

/-! ## What is left of a text -/

namespace Environment

/-- What a text says once it has been read as a value. -/
def spoken (text : String) : String :=
  match guess text with
  | .bool b => if b then "true" else "false"
  | .int n => toString n
  | .float x => x.toPlain
  | _ => text

def isTruth (text : String) : Bool :=
  text.toList.map Char.toLower = ['t', 'r', 'u', 'e'] ||
    text.toList.map Char.toLower = ['f', 'a', 'l', 's', 'e']

theorem isTruth_iff : isTruth text ↔ text.toList.map Char.toLower = ['t', 'r', 'u', 'e'] ∨
    text.toList.map Char.toLower = ['f', 'a', 'l', 's', 'e'] := by
  simp [isTruth]

theorem isTruth_length (truth : isTruth text) : text.toList.length ≤ 5 := by
  rw [← List.length_map]
  rcases isTruth_iff.mp truth with eq | eq <;> rw [eq] <;> decide

theorem guess_cases (text : String) : (∃ b, guess text = .bool b) ∨ (∃ n, guess text = .int n) ∨
    (∃ x, guess text = .float x) ∨ guess text = .string text := by
  unfold guess
  simp only
  split
  · exact .inl ⟨_, rfl⟩
  · split
    · exact .inl ⟨_, rfl⟩
    · split
      · exact .inr (.inl ⟨_, rfl⟩)
      · split
        · exact .inr (.inr (.inl ⟨_, rfl⟩))
        · exact .inr (.inr (.inr rfl))

theorem guess_truthless (truthless : ¬ isTruth text) : guess text =
    match Number.readInt64? text.toList with
    | some n => .int n
    | none =>
      match Number.readDouble? text.toList with
      | some x => .float x
      | none => .string text := by
  have yes : text.toList.map Char.toLower ≠ ['t', 'r', 'u', 'e'] := fun eq =>
    truthless (isTruth_iff.mpr (.inl eq))
  have no : text.toList.map Char.toLower ≠ ['f', 'a', 'l', 's', 'e'] := fun eq =>
    truthless (isTruth_iff.mpr (.inr eq))
  exact (if_neg yes).trans (if_neg no)

theorem readText_guess (key text : String) :
    readText key (.leaf (guess text) origin) = .ok (spoken text) := by
  unfold spoken
  rcases guess_cases text with ⟨b, eq⟩ | ⟨n, eq⟩ | ⟨x, eq⟩ | eq <;> rw [eq] <;> rfl

theorem readOptional_guess (key text : String) :
    readOptional key (.leaf (guess text) origin) = .ok (some (spoken text)) := by
  have read := readText_guess key text
  rcases guess_cases text with ⟨b, eq⟩ | ⟨n, eq⟩ | ⟨x, eq⟩ | eq <;>
    · rw [eq] at read ⊢
      rw [readOptional, read]
      · rfl
      · exact nofun

theorem truth_letter {c : Char} (small : c.toLower = 't' ∨ c.toLower = 'f') :
    ¬ Number.isNumeric c := by
  have spelt : c = 't' ∨ c = 'T' ∨ c = 'f' ∨ c = 'F' := by
    rcases Headers.toLower_cases c with eq | ⟨-, -, eq⟩
    · rw [eq] at small
      exact small.imp_right fun eq => .inr (.inl eq)
    · rcases small with small | small <;> rw [small] at eq
      · have capital : 'T'.toNat = c.toNat := Nat.add_right_cancel (m := 32) eq
        exact .inr (.inl (Char.toNat_inj.mp capital.symm))
      · have capital : 'F'.toNat = c.toNat := Nat.add_right_cancel (m := 32) eq
        exact .inr (.inr (.inr (Char.toNat_inj.mp capital.symm)))
  rcases spelt with rfl | rfl | rfl | rfl <;> decide

theorem truth_foreign (truth : isTruth text) : ∃ c ∈ text.toList, ¬ Number.isNumeric c := by
  have word := isTruth_iff.mp truth
  cases chars : text.toList with
  | nil =>
    rw [chars] at word
    rcases word with eq | eq <;> cases eq
  | cons c rest =>
    rw [chars, List.map_cons] at word
    exact ⟨c, List.mem_cons_self, truth_letter (word.imp List.head_eq_of_cons_eq
      List.head_eq_of_cons_eq)⟩

theorem spoken_truth (truth : isTruth text) : spoken text = Headers.fold text := by
  rw [spoken, guess, Headers.fold]
  rcases isTruth_iff.mp truth with eq | eq <;> rw [eq] <;> rfl

theorem spoken_whole {n : Int} (whole : Number.readInt64? text.toList = some n) :
    spoken text = text ↔ Number.isPrinted text.toList := by
  have read : Number.readInt? text.toList = some n := (Option.filter_eq_some_iff.mp whole).1
  have truthless : ¬ isTruth text := fun truth => by
    obtain ⟨c, mem, alien⟩ := truth_foreign truth
    exact alien (Number.readInt?_numeric read c mem)
  have said : guess text = .int n := by
    rw [guess_truthless truthless, whole]
  rw [spoken, said, ← Number.toString_readInt? read, ← String.toList_inj]

theorem spoken_foreign (foreign : ∃ c ∈ text.toList, ¬ Number.isNumeric c)
    (truthless : ¬ isTruth text) (wordless : ¬ Number.isWord text.toList) : spoken text = text := by
  obtain ⟨c, mem, alien⟩ := foreign
  have whole : Number.readInt64? text.toList = none := by
    cases read : Number.readInt64? text.toList with
    | none => rfl
    | some n =>
      exact absurd (Number.readInt?_numeric (Option.filter_eq_some_iff.mp read).1 c mem) alien
  have real : Number.readDouble? text.toList = none := by
    cases read : Number.readDouble? text.toList with
    | none => rfl
    | some x =>
      exact absurd ((Number.readDouble?_numeric read).resolve_left wordless c mem) alien
  have same : guess text = .string text := by
    rw [guess_truthless truthless, whole, real]
  rw [spoken, same]

theorem spoken_identifier {id : Identifier} (accepted : Identifier.parse text = .ok id)
    (foreign : ∃ c ∈ text.toList, ¬ Number.isNumeric c) : spoken text = text := by
  obtain ⟨c, cs, -, -, chars, count, -⟩ := Identifier.parse_ok accepted
  have length : text.toList.length = 26 := by rw [chars, List.length_cons, count]
  refine spoken_foreign foreign (fun truth => ?_) fun word => ?_
  -- the words for values are too short to be identifiers
  · have short := isTruth_length truth
    omega
  · have short := Number.isWord_length word
    omega

end Environment

/-! ## Trees of texts -/

def singleKeys : List String := ["api_url", "store_id", "authorization_model_id", "api_token"]

def IsTextKey (key : String) : Prop :=
  key ∈ singleKeys ∨ ∃ name, IsHeaderName name ∧ key = headerKey name

/-- An environment whose variables for settings are all for texts. -/
def TextsOnly (vars : List (String × String)) : Prop :=
  ∀ v ∈ vars, ∀ key, key? v.1 = some key → IsTextKey key

def IsText (t : Tree) : Prop := ∃ text, t = .leaf (guess text) origin

def HoldsTexts (t : Tree) : Prop :=
  ∀ e ∈ t.entries, e.1 ∈ singleKeys ∧ IsText e.2 ∨
    e.1 = "default_headers" ∧ ∃ es origin, e.2 = .table es origin ∧ ∀ h ∈ es, IsText h.2

theorem HoldsTexts.table (holds : HoldsTexts t) {inner : Tree}
    (here : ("default_headers", inner) ∈ t.entries) :
    ∃ es origin, inner = .table es origin ∧ ∀ h ∈ es, IsText h.2 := by
  have apart : "default_headers" ∉ singleKeys := by decide
  exact ((holds _ here).resolve_left fun single => apart single.1).2

theorem holds_put {top : Tree} (holds : HoldsTexts base) (texts : IsTextKey key)
    (said : IsText top) : HoldsTexts (put top (pathOf key.toList) base) := by
  obtain ⟨text, rfl⟩ := said
  rcases texts with single | ⟨name, header, rfl⟩
  · have alone : ∀ key ∈ singleKeys, pathOf key.toList = [.name key] := by decide
    rw [alone key single]
    intro e mem
    rw [put, entries_withEntries] at mem
    rcases mem_modify mem with old | ⟨same, old, -, eq⟩
    · exact holds e old
    · exact .inl ⟨same ▸ single, text, eq⟩
  · -- the table of headers is the old one with one entry changed, or a new one
    rw [pathOf_header header]
    intro e mem
    rw [put, entries_withEntries] at mem
    rcases mem_modify mem with old | ⟨same, old, from', eq⟩
    · exact holds e old
    · obtain ⟨origin, table⟩ := put_name (.leaf (guess text) Environment.origin)
        (Headers.fold name) [] old
      refine .inr ⟨same, _, origin, eq.trans table, fun h within => ?_⟩
      rcases mem_modify within with early | ⟨-, _, -, eq⟩
      · rcases from' with rfl | there
        · cases early
        · obtain ⟨es, origin, rfl, said⟩ := holds.table there
          exact said h early
      · exact ⟨text, eq⟩

theorem holds_layer (texts : ∀ v ∈ values, IsTextKey v.1 ∧ IsText v.2) :
    HoldsTexts (Tree.empty.layer values) := by
  induction values using List.reverseRecOn with
  | nil => exact nofun
  | append_singleton values v ih =>
    obtain ⟨earlier, last⟩ := List.forall_mem_append.mp texts
    obtain ⟨key, said⟩ := last v (List.mem_singleton_self v)
    rw [layer_concat]
    exact holds_put (ih earlier) key said

theorem holds_environment (texts : TextsOnly vars) :
    HoldsTexts (Tree.empty.layer (Environment.layer vars)) := by
  refine holds_layer fun v mem => ?_
  obtain ⟨pair, within, eq⟩ := List.mem_filterMap.mp mem
  obtain ⟨key, named, rfl⟩ := Option.map_eq_some_iff.mp eq
  exact ⟨texts pair within key named, pair.2, rfl⟩

theorem HoldsTexts.single (holds : HoldsTexts t) (apart : key ≠ "default_headers") {inner : Tree}
    (here : t.child? key = some inner) : key ∈ singleKeys ∧ IsText inner :=
  (holds _ (mem_of_lookup here)).resolve_right fun other => apart other.1

theorem HoldsTexts.optional (holds : HoldsTexts t) (key : String)
    (apart : key ≠ "default_headers") :
    ∃ value, Settles none (readOptional key) (t.child? key) value := by
  cases here : t.child? key with
  | none => exact ⟨none, rfl⟩
  | some inner =>
    obtain ⟨-, text, rfl⟩ := holds.single apart here
    exact ⟨_, readOptional_guess key text⟩

theorem HoldsTexts.headers (holds : HoldsTexts t) (key : String) :
    ∃ h, Settles [] (readHeaders key) (t.child? "default_headers") h := by
  cases here : t.child? "default_headers" with
  | none => exact ⟨[], rfl⟩
  | some inner =>
    obtain ⟨es, origin, rfl, said⟩ := holds.table (mem_of_lookup here)
    obtain ⟨pairs, each⟩ := Fallible.mapM_defined (f := fun e : String × Tree => do
        let value ← readText (key ++ "." ++ e.1) e.2
        return (e.1, value)) fun e mem => by
      obtain ⟨text, eq⟩ := said e mem
      refine ⟨(e.1, spoken text), ?_⟩
      rw [eq, readText_guess]
      rfl
    refine ⟨Headers.ofList pairs, ?_⟩
    change readHeaders key (.table es origin) = _
    rw [readHeaders, each]
    rfl

theorem HoldsTexts.absent (holds : HoldsTexts t) (key : String) (apart : key ≠ "default_headers")
    (single : key ∉ singleKeys) : t.child? key = none := by
  cases here : t.child? key with
  | none => rfl
  | some inner => exact absurd (holds.single apart here).1 single

/-! ## Loaded texts -/

theorem texts_load (texts : TextsOnly vars) (url : given? vars "FGA_API_URL" = some text) :
    ∃ s, ofEnvironment vars = .ok s := by
  have holds := holds_environment texts
  obtain ⟨inner, address⟩ : ∃ inner,
      (Tree.empty.layer (Environment.layer vars)).child? "api_url" = some inner := by
    have here := found_one Tree.empty vars "FGA_API_URL" "api_url" rfl rfl
    rw [chosen?, said?, url] at here
    rcases here with ⟨t, eq, -⟩ | eq <;> exact ⟨_, eq⟩
  obtain ⟨-, said, rfl⟩ := holds.single (by decide) address
  obtain ⟨storeId, store⟩ := holds.optional "store_id" (by decide)
  obtain ⟨modelId, model⟩ := holds.optional "authorization_model_id" (by decide)
  obtain ⟨apiToken, token⟩ := holds.optional "api_token" (by decide)
  obtain ⟨headers, standing⟩ := holds.headers "default_headers"
  have retry := holds.absent "retry" (by decide) (by decide)
  have timeout := holds.absent "timeout_ms" (by decide) (by decide)
  refine ⟨⟨spoken said, storeId, modelId, apiToken, headers, {}, standardTimeoutMillis⟩,
    ofTree_ok.mpr ⟨⟨_, address, readText_guess _ _⟩, store, model, token, standing, ?_, ?_⟩⟩
  · rw [retry]
    rfl
  · rw [timeout]
    rfl

/-- Settings whose texts are what is left of those in an environment. -/
structure Spoken (vars : List (String × String)) (s : Settings) : Prop where
  apiUrl : (given? vars "FGA_API_URL").map spoken = some s.apiUrl
  storeId : s.storeId = (given? vars "FGA_STORE_ID").map spoken
  modelId : s.modelId = (given? vars "FGA_AUTHORIZATION_MODEL_ID").map spoken
  apiToken : s.apiToken = (given? vars "FGA_API_TOKEN").map spoken
  headers : EntriesOnly vars "default_headers" → ∀ name text, IsHeaderName name →
    given? vars ("FGA_DEFAULT_HEADERS__" ++ name) = some text →
    (Headers.fold name, spoken text) ∈ s.headers

theorem spoken_of_settles {named : String} {value : Option String}
    (settles : Settles none (readOptional key) (chosen? Tree.empty vars named [key]) value) :
    value = (given? vars named).map spoken := by
  rw [chosen?, said?] at settles
  cases given : given? vars named with
  | none =>
    rw [given] at settles
    exact (Except.ok.inj settles).symm
  | some text =>
    rw [given, Option.map_some, Option.some_or, Settles, Option.elim_some,
      readOptional_guess] at settles
    exact (Except.ok.inj settles).symm

theorem loaded_spoken (loaded : ofEnvironment vars = .ok s) : Spoken vars s := by
  have reads := ofTree_ok.mp loaded
  have layers := layered reads
  refine ⟨?_, spoken_of_settles layers.storeId, spoken_of_settles layers.modelId,
    spoken_of_settles layers.apiToken, fun entries name text header given => ?_⟩
  · obtain ⟨t, here, read⟩ := layers.apiUrl
    rw [chosen?, said?] at here
    cases given : given? vars "FGA_API_URL" with
    | none =>
      rw [given] at here
      cases here
    | some text =>
      rw [given] at here
      cases here
      rw [readText_guess] at read
      exact congrArg some (Except.ok.inj read)
  · obtain ⟨value, read, mem⟩ := header_said distinct_empty entries reads header given
    rw [readText_guess] at read
    rwa [Except.ok.inj read]

/-- Texts in an environment are loaded as what is left of them once they have been read as values.
A truth value is left in small letters, and a whole number of 64 bits as it is printed. A text that
has a character which no number has is left as it is, unless it is a word for a value; and so is an
identifier that has such a character. -/
theorem texts_respelt (vars : List (String × String)) :
    (TextsOnly vars → given? vars "FGA_API_URL" ≠ none → ∃ s, ofEnvironment vars = .ok s) ∧
      (∀ s, ofEnvironment vars = .ok s → Spoken vars s) ∧
      (∀ text, isTruth text → spoken text = Headers.fold text) ∧
      (∀ text n, Number.readInt64? text.toList = some n →
        (spoken text = text ↔ Number.isPrinted text.toList)) ∧
      (∀ text, (∃ c ∈ text.toList, ¬ Number.isNumeric c) → ¬ isTruth text →
        ¬ Number.isWord text.toList → spoken text = text) ∧
      ∀ text id, Identifier.parse text = .ok id → (∃ c ∈ text.toList, ¬ Number.isNumeric c) →
        spoken text = text := by
  refine ⟨fun texts url => ?_, fun s loaded => loaded_spoken loaded, fun text => spoken_truth,
    fun text n => spoken_whole, fun text => spoken_foreign, fun text id => spoken_identifier⟩
  obtain ⟨address, given⟩ := Option.ne_none_iff_exists'.mp url
  exact texts_load texts given

def tokenVars (token : String) : List (String × String) :=
  [("FGA_API_URL", "http://localhost"), ("FGA_API_TOKEN", token)]

theorem letters_kept : ∃ s, ofEnvironment (tokenVars "acme-007") = .ok s ∧
    s.apiToken = some "acme-007" := by
  obtain ⟨load, spoken, -, -, foreign, -⟩ := texts_respelt (tokenVars "acme-007")
  have texts : TextsOnly (tokenVars "acme-007") := by
    intro v mem key named
    rcases List.mem_cons.mp mem with rfl | mem
    · cases named
      exact .inl (by decide)
    · cases List.mem_singleton.mp mem
      cases named
      exact .inl (by decide)
  obtain ⟨s, loaded⟩ := load texts (by decide)
  refine ⟨s, loaded, ?_⟩
  rw [(spoken s loaded).apiToken]
  exact congrArg some (foreign "acme-007" ⟨'c', by decide, by decide⟩ (by decide) (by decide))

def storeVars (id : String) : List (String × String) :=
  [("FGA_API_URL", "http://localhost"), ("FGA_STORE_ID", id)]

/-- Not every token is loaded as it is given, and not every identifier of a store as one of the same
store. -/
theorem token_respelt :
    ¬ (∀ token, ∃ s, ofEnvironment (tokenVars token) = .ok s ∧ s.apiToken = some token) ∧
    ¬ ∀ raw id, Identifier.parse raw = .ok id → ∃ s raw',
      ofEnvironment (storeVars raw) = .ok s ∧ s.storeId = some raw' ∧
        Identifier.parse raw' = .ok id := by
  constructor
  · intro kept
    obtain ⟨s, loaded, same⟩ := kept "007"
    have found : ((ofEnvironment (tokenVars "007")).toOption.bind (·.apiToken)) = some "7" := by
      decide +kernel
    rw [loaded] at found
    exact absurd (same.symm.trans found) (by decide)
  · intro kept
    have number : (Identifier.parse "00000000000000000000001E25").toOption =
        some (.ofNat (1 * 32 ^ 3 + 14 * 32 ^ 2 + 2 * 32 + 5)) := by decide +kernel
    obtain ⟨s, raw, loaded, stored, same⟩ := kept _ _ (Fallible.toOption_ok.mp number)
    have found : ((ofEnvironment (storeVars "00000000000000000000001E25")).toOption.bind
        (·.storeId)) = some "10000000000000000000000000" := by decide +kernel
    rw [loaded] at found
    cases Option.some.inj (stored.symm.trans found)
    exact absurd (Fallible.toOption_ok.mpr same) (by decide +kernel)

end Rebac.Settings
