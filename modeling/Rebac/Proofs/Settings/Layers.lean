import Rebac.Proofs.Client.Calls
import Rebac.Proofs.Settings.Decode
import Rebac.Proofs.Settings.Environment
import Rebac.Proofs.Settings.Resolve
import Rebac.Settings.Load

set_option autoImplicit false

/-! # Settings in layers -/

namespace Rebac.Settings

open Rebac.Settings.Tree Environment Dispatch

variable {α : Type} {base : Tree} {vars : List (String × String)} {s : Settings}
  {key name text table : String} {default value : α} {read : Tree → Loaded α}
  {at? chosen : Option Tree}

def chosen? (file : Tree) (vars : List (String × String)) (named : String) (path : List String) :
    Option Tree :=
  (said? vars named).or (file.find? path)

/-- Whether an environment has anything for a table or in it. -/
def reaches (vars : List (String × String)) (table : String) : Bool :=
  (Environment.layer vars).any fun v => (pathOf v.1.toList).head? = some (.name table)

/-- What a file says of a retry setting. It may say it at a place in a list, which is lost as soon
as the environment has anything in the table. -/
def fileField? (file : Tree) (vars : List (String × String)) (place : Nat) (name : String) :
    Option Tree :=
  (file.child? "retry").bind fun t =>
    if reaches vars "retry" then t.child? name else retryField? t place name

/-- Settings that the environment says before the file. -/
structure Layered (file : Tree) (vars : List (String × String)) (s : Settings) : Prop where
  apiUrl : ∃ t, chosen? file vars "FGA_API_URL" ["api_url"] = some t ∧
    readText "api_url" t = .ok s.apiUrl
  storeId : Settles none (readOptional "store_id")
    (chosen? file vars "FGA_STORE_ID" ["store_id"]) s.storeId
  modelId : Settles none (readOptional "authorization_model_id")
    (chosen? file vars "FGA_AUTHORIZATION_MODEL_ID" ["authorization_model_id"]) s.modelId
  apiToken : Settles none (readOptional "api_token")
    (chosen? file vars "FGA_API_TOKEN" ["api_token"]) s.apiToken
  timeoutMillis : Settles 10000 (readNatural "timeout_ms")
    (chosen? file vars "FGA_TIMEOUT_MS" ["timeout_ms"]) s.timeoutMillis

structure LayeredRetry (file : Tree) (vars : List (String × String)) (r : RetrySettings) :
    Prop where
  maxRetries : Settles 3 (readSmall "retry.max_retries")
    ((said? vars "FGA_RETRY__MAX_RETRIES").or (fileField? file vars 0 "max_retries")) r.maxRetries
  minWaitMillis : Settles 100 (readNatural "retry.min_wait_ms")
    ((said? vars "FGA_RETRY__MIN_WAIT_MS").or (fileField? file vars 1 "min_wait_ms"))
    r.minWaitMillis
  maxWaitMillis : Settles 120000 (readNatural "retry.max_wait_ms")
    ((said? vars "FGA_RETRY__MAX_WAIT_MS").or (fileField? file vars 2 "max_wait_ms"))
    r.maxWaitMillis

/-! ## Single settings -/

theorem Settles.single (refuses : ∀ t, t.isGroup → read t ≠ .ok value)
    (found : (∃ t, at? = some t ∧ t.isGroup) ∨ at? = chosen)
    (settles : Settles default read at? value) : Settles default read chosen value := by
  rcases found with ⟨t, rfl, group⟩ | rfl
  · exact absurd settles (refuses t group)
  · exact settles

theorem readText_group {t : Tree} (group : t.isGroup) : readText key t ≠ .ok text := by
  cases t with
  | leaf => cases group
  | table => exact nofun
  | list => exact nofun

theorem readOptional_group {value : Option String} {t : Tree} (group : t.isGroup) :
    readOptional key t ≠ .ok value := by
  cases t with
  | leaf => cases group
  | table => exact nofun
  | list => exact nofun

theorem readNatural_group {n : Nat} {t : Tree} (group : t.isGroup) :
    readNatural key t ≠ .ok n := by
  cases t with
  | leaf => cases group
  | table => exact nofun
  | list => exact nofun

theorem readSmall_group {n : Nat} {t : Tree} (group : t.isGroup) : readSmall key t ≠ .ok n := by
  intro read
  obtain ⟨m, whole, -⟩ := Fallible.bind_ok.mp read
  exact readNatural_group group whole

theorem found (base : Tree) (vars : List (String × String)) (target : List String)
    {named key : String} (spelt : key? named = some key)
    (path : pathOf key.toList = target.map .name)
    (clear : ∀ v ∈ Environment.layer vars,
      v.1 = key ∨ Below (pathOf v.1.toList) target ∨ Parts (pathOf v.1.toList) target) :
    (∃ t, (base.layer (Environment.layer vars)).find? target = some t ∧ t.isGroup) ∨
      (base.layer (Environment.layer vars)).find? target = chosen? base vars named target := by
  rw [chosen?, ← last?_layer spelt]
  exact find?_layer path fun v mem => ⟨layer_single v mem, clear v mem⟩

theorem found_one (base : Tree) (vars : List (String × String)) (named key : String)
    (spelt : key? named = some key) (alone : pathOf key.toList = [.name key]) :
    (∃ t, (base.layer (Environment.layer vars)).child? key = some t ∧ t.isGroup) ∨
      (base.layer (Environment.layer vars)).child? key = chosen? base vars named [key] := by
  have here := found base vars [key] spelt alone fun v _ => clear_one alone v.1
  rwa [find?_one] at here

theorem layered (reads : Reads (base.layer (Environment.layer vars)) s) : Layered base vars s where
  apiUrl := by
    obtain ⟨t, here, read⟩ := reads.apiUrl
    rcases found_one base vars "FGA_API_URL" "api_url" rfl rfl with ⟨t', there, group⟩ | eq
    · cases here.symm.trans there
      exact absurd read (readText_group group)
    · exact ⟨t, eq.symm.trans here, read⟩
  storeId := reads.storeId.single (fun _ => readOptional_group) (found_one base vars _ _ rfl rfl)
  modelId := reads.modelId.single (fun _ => readOptional_group) (found_one base vars _ _ rfl rfl)
  apiToken := reads.apiToken.single (fun _ => readOptional_group) (found_one base vars _ _ rfl rfl)
  timeoutMillis :=
    reads.timeoutMillis.single (fun _ => readNatural_group) (found_one base vars _ _ rfl rfl)

/-! ## Retry settings -/

theorem found_two (base : Tree) {named table key name : String} (spelt : key? named = some key)
    (pair : pathOf key.toList = [.name table, .name name]) (entries : EntriesOnly vars table) :
    (∃ t, ((base.layer (Environment.layer vars)).child? table).bind (·.child? name) = some t ∧
        t.isGroup) ∨
      ((base.layer (Environment.layer vars)).child? table).bind (·.child? name) =
        chosen? base vars named [table, name] := by
  have here := found base vars [table, name] spelt pair fun v mem =>
    clear_two pair (entries.layer v mem)
  rwa [find?_two] at here

theorem reaches_iff : reaches vars table = true ↔
    ∃ v ∈ Environment.layer vars, ¬ Parts (pathOf v.1.toList) [table] := by
  simp [reaches, parts_one]

theorem Environment.EntriesOnly.each (entries : EntriesOnly vars table) :
    ∀ v ∈ Environment.layer vars, Parts (pathOf v.1.toList) [table] ∨
      ∃ name rest, pathOf v.1.toList = [table].map .name ++ .name name :: rest := by
  intro v mem
  obtain ⟨first, rest, path⟩ := pathOf_cons v.1.toList
  by_cases same : first = table
  · subst same
    obtain ⟨name, inner, rfl⟩ := entries.layer v mem rest path
    exact .inr ⟨name, inner, path⟩
  · exact .inl (path ▸ .inl same)

theorem found_retry (base : Tree) {named key name : String} (place : Nat)
    (spelt : key? named = some key) (pair : pathOf key.toList = [.name "retry", .name name])
    (entries : EntriesOnly vars "retry") :
    (∃ t, ((base.layer (Environment.layer vars)).child? "retry").bind
        (retryField? · place name) = some t ∧ t.isGroup) ∨
      ((base.layer (Environment.layer vars)).child? "retry").bind (retryField? · place name) =
        (said? vars named).or (fileField? base vars place name) := by
  rw [fileField?]
  -- with anything below it the environment makes a table of what the file has, a list included;
  -- with nothing below it what the file has stays
  cases reached : reaches vars "retry" with
  | true =>
    obtain ⟨es, origin, table⟩ := find?_layer_table base entries.each (reaches_iff.mp reached)
    rw [find?_one] at table
    have here := found_two base spelt pair entries
    rw [chosen?, find?_two, table] at here
    rw [table]
    exact here
  | false =>
    have aside : ∀ v ∈ Environment.layer vars, Parts (pathOf v.1.toList) ["retry"] := by
      intro v mem
      by_contra within
      rw [reaches_iff.mpr ⟨v, mem, within⟩] at reached
      cases reached
    have unsaid : said? vars named = none := by
      refine (said?_none spelt).mpr fun v mem same => ?_
      have parts := aside v mem
      rw [parts_one, same, pair] at parts
      exact parts rfl
    have stays := find?_layer_parts base aside
    rw [find?_one, find?_one] at stays
    rw [stays, unsaid]
    exact .inr rfl

theorem layered_retry (entries : EntriesOnly vars "retry")
    (reads : Reads (base.layer (Environment.layer vars)) s) : LayeredRetry base vars s.retry :=
  have fields := settles_retry reads.retry
  { maxRetries := fields.maxRetries.single (fun _ => readSmall_group)
      (found_retry base 0 rfl rfl entries)
    minWaitMillis := fields.minWaitMillis.single (fun _ => readNatural_group)
      (found_retry base 1 rfl rfl entries)
    maxWaitMillis := fields.maxWaitMillis.single (fun _ => readNatural_group)
      (found_retry base 2 rfl rfl entries) }

/-! ## Headers -/

theorem ordered_of_reads {t : Tree} (reads : Reads t s) : Headers.Ordered s.headers := by
  have standing := reads.headers
  cases here : t.child? "default_headers" with
  | none =>
    rw [here] at standing
    rw [← Except.ok.inj standing]
    exact .nil
  | some inner =>
    rw [here] at standing
    exact readHeaders_ordered standing

theorem header_said (distinct : Distinct base) (entries : EntriesOnly vars "default_headers")
    (reads : Reads (base.layer (Environment.layer vars)) s) (header : IsHeaderName name)
    (given : given? vars ("FGA_DEFAULT_HEADERS__" ++ name) = some text) :
    ∃ value, readText (headerKey name) (.leaf (guess text) origin) = .ok value ∧
      (Headers.fold name, value) ∈ s.headers := by
  have here := found_two base (key?_header header) (pathOf_header header) entries
  rw [chosen?, said?, given, Option.map_some, Option.some_or] at here
  have standing := reads.headers
  have distinct : Distinct (base.layer (Environment.layer vars)) := distinct.layer
  cases table : (base.layer (Environment.layer vars)).child? "default_headers" with
  | none =>
    rw [table] at here
    rcases here with ⟨t, eq, -⟩ | eq <;> cases eq
  | some inner =>
    rw [table] at here standing
    rcases here with ⟨t, eq, group⟩ | eq
    · obtain ⟨value, read, -⟩ := readHeaders_entry (distinct.entry table) standing eq
      exact absurd read (readText_group group)
    · exact readHeaders_entry (distinct.entry table) standing eq

/-- A header of the environment is sent with every call that has none of its name by itself, and the
default headers of its name that are spelt otherwise are not. -/
theorem header_sent {c : Client} {o : RequestOptions} {traces : List Trace} {value : String}
    (ordered : Headers.Ordered s.headers) (mem : (Headers.fold name, value) ∈ s.headers)
    (free : Headers.reserved name = false)
    (other : s.apiToken = none ∨ Headers.fold authorization ≠ Headers.fold name)
    (opened : Client.OpenedBy s c) (run : c.Operates o traces)
    (unnamed : ∀ e ∈ o.headers, Headers.fold e.1 ≠ Headers.fold name) :
    ∀ trace ∈ traces, ∀ sent ∈ trace.sent,
      Headers.named name sent.2.headers = [(Headers.fold name, value)] := by
  intro trace there sent within
  have last := (Headers.greatest_iff_last ordered).mp (Headers.greatest_fold mem)
  rw [Client.makes_headers (run.makes trace there sent within), opened.headers,
    Headers.named_merge free, Headers.named_standing_other ordered other, last,
    Headers.last_named_none.mpr unnamed]
  rfl

/-! ## Loaded settings -/

/-- Settings that are loaded from a file, whatever its format, are those of the layers: every one is
what the environment says, or else the file, or else its default, and the headers of the environment
go before those of the file, in whatever case these are spelt. Of the retry settings this holds as
long as the variables for them are each for one of them, and of the headers likewise. -/
theorem settings_layered {formats : Formats} {f : File} (loaded : ofFile formats f vars = .ok s) :
    ∃ values, f.layer formats = .ok values ∧ Layered (Tree.empty.layer values) vars s ∧
      (EntriesOnly vars "retry" → LayeredRetry (Tree.empty.layer values) vars s.retry) ∧
      (EntriesOnly vars "default_headers" → ∀ name text, IsHeaderName name →
        Headers.reserved name = false →
        (s.apiToken = none ∨ Headers.fold authorization ≠ Headers.fold name) →
        given? vars ("FGA_DEFAULT_HEADERS__" ++ name) = some text →
        ∃ value, readText (headerKey name) (.leaf (guess text) origin) = .ok value ∧
          ∀ c o traces, Client.OpenedBy s c → c.Operates o traces →
            (∀ e ∈ o.headers, Headers.fold e.1 ≠ Headers.fold name) →
            ∀ trace ∈ traces, ∀ sent ∈ trace.sent,
              Headers.named name sent.2.headers = [(Headers.fold name, value)]) := by
  obtain ⟨values, file, read⟩ := Fallible.bind_ok.mp loaded
  have reads := ofTree_ok.mp read
  refine ⟨values, file, layered reads, fun entries => layered_retry entries reads, ?_⟩
  intro entries name text header free other given
  obtain ⟨value, said, mem⟩ := header_said distinct_empty.layer entries reads header given
  exact ⟨value, said, fun c o traces opened run unnamed =>
    header_sent (ordered_of_reads reads) mem free other opened run unnamed⟩

theorem resolved_sends {c : Client} (resolved : s.resolve = .ok c) :
    ∃ c' traces, Client.OpenedBy s c' ∧ c'.Operates {} traces ∧
      ∃ trace ∈ traces, ∃ sent, sent ∈ trace.sent := by
  have opened := Client.OpenedBy.forStore (.ofNat 1) (.resolved resolved)
  cases ready : (c.forStore (.ofNat 1)).prepare {} with
  | error cause =>
    rcases Client.prepare_refuses.mp ⟨cause, ready⟩ with none | ⟨raw, why, named, -⟩ | many
    · cases none
    · cases named
    · obtain ⟨_, _, _, -, -, -, valid, rfl⟩ := resolve_ok.mp resolved
      obtain ⟨cause, refused⟩ := Client.validate_refuses.mpr many
      cases valid.symm.trans refused
  | ok p =>
    obtain ⟨trace, run, sent⟩ := Client.check_sends ready Client.anneReads
    exact ⟨_, [trace], opened, .check run, trace, List.mem_singleton_self trace, _, sent⟩

theorem layer_toml {f : File} {text : String} {members : Members} (toml : f.extension = "toml")
    (content : f.content = some text) (read : Toml.read (withoutMark text) = some members) :
    f.layer commonFormats = .ok (ofMembers f.name (narrowMembers members)) := by
  rw [File.layer, content, toml]
  simp only [commonFormats, ↓reduceIte, read]

theorem ofFile_layer {formats : Formats} {f : File} {values : List (String × Tree)}
    (file : f.layer formats = .ok values) : ofFile formats f vars =
      ofTree ((Tree.empty.layer values).layer (Environment.layer vars)) := by
  rw [ofFile, file]
  rfl

def tenants : File := ⟨"rebac.toml", "toml", some <|
  "api_url = \"http://localhost\"\nretry.min_wait_ms = 10\n" ++
  "[default_headers]\nX-Tenant = \"globex\"\nX-TENANT = \"initech\"\n"⟩

def tenantsMembers : Members :=
  [("api_url", .string "http://localhost"),
   ("default_headers", .object [("X-TENANT", .string "initech"), ("X-Tenant", .string "globex")]),
   ("retry", .object [("min_wait_ms", .int 10)])]

theorem tenants_layer : tenants.layer commonFormats =
    .ok (ofMembers "rebac.toml" (narrowMembers tenantsMembers)) :=
  layer_toml rfl rfl (by decide +kernel)

def acmeVars : List (String × String) :=
  [("FGA_RETRY__MAX_RETRIES", "5"), ("FGA_DEFAULT_HEADERS__X-TENANT", "acme")]

def acmeSettings : Settings where
  apiUrl := "http://localhost"
  headers := [("X-TENANT", "initech"), ("X-Tenant", "globex"), ("x-tenant", "acme")]
  retry := ⟨5, 10, 120000⟩

theorem tenants_load : ofFile commonFormats tenants acmeVars = .ok acmeSettings :=
  (ofFile_layer tenants_layer).trans (Fallible.toOption_ok.mp (by decide +kernel))

theorem entriesOnly_acme (table : String) : EntriesOnly acmeVars table := by
  intro v mem key rest read path
  rcases List.mem_cons.mp mem with rfl | mem
  · cases read
    cases path
    exact ⟨_, _, rfl⟩
  · cases List.mem_singleton.mp mem
    cases read
    cases path
    exact ⟨_, _, rfl⟩

theorem isHeaderName_tenant : IsHeaderName "X-TENANT" :=
  ⟨by decide, List.all_eq_true.mp (by decide)⟩

theorem acme_sent : (∃ values, tenants.layer commonFormats = .ok values ∧
      LayeredRetry (Tree.empty.layer values) acmeVars acmeSettings.retry) ∧
    ∃ c traces, Client.OpenedBy acmeSettings c ∧ c.Operates {} traces ∧
      ∃ trace ∈ traces, ∃ sent ∈ trace.sent,
        Headers.named "X-TENANT" sent.2.headers = [("x-tenant", "acme")] := by
  obtain ⟨values, file, -, retry, headers⟩ := settings_layered tenants_load
  obtain ⟨value, read, carried⟩ := headers (entriesOnly_acme _) "X-TENANT" "acme"
    isHeaderName_tenant (by decide +kernel) (.inl rfl) (by decide +kernel)
  cases read
  obtain ⟨client, resolved⟩ : ∃ client, acmeSettings.resolve = .ok client :=
    Fallible.toOption_isSome.mp (by decide +kernel)
  obtain ⟨c, traces, opened, run, trace, mem, sent, there⟩ := resolved_sends resolved
  exact ⟨⟨values, file, retry (entriesOnly_acme _)⟩, c, traces, opened, run, trace, mem, sent, there,
    carried c {} traces opened run nofun trace mem sent there⟩

def listed : File :=
  ⟨"rebac.toml", "toml", some "api_url = \"http://localhost\"\nretry = [5, 10, 20]\n"⟩

theorem listed_layer : listed.layer commonFormats = .ok (ofMembers "rebac.toml" (narrowMembers
    [("api_url", .string "http://localhost"), ("retry", .array [.int 5, .int 10, .int 20])])) :=
  layer_toml rfl rfl (by decide +kernel)

def bare : File := ⟨"rebac.toml", "toml", some "api_url = \"http://localhost\"\n"⟩

theorem bare_layer : bare.layer commonFormats = .ok (ofMembers "rebac.toml" (narrowMembers
    [("api_url", .string "http://localhost")])) :=
  layer_toml rfl rfl (by decide +kernel)

def brokenOff (named : String) : List (String × String) :=
  [("FGA_DEFAULT_HEADERS__X-TENANT", "acme"), (named, "1"), ("FGA_DEFAULT_HEADERS__TRACE", "on")]

/-- The least wait is what the environment says of it, or else the file in a table or a list, or else
its default. -/
def WaitKept (f : File) (vars : List (String × String)) : Prop :=
  ∀ values s, f.layer commonFormats = .ok values → ofFile commonFormats f vars = .ok s →
    Settles 100 (readNatural "retry.min_wait_ms") ((said? vars "FGA_RETRY__MIN_WAIT_MS").or
      (((Tree.empty.layer values).child? "retry").bind (retryField? · 1 "min_wait_ms")))
      s.retry.minWaitMillis

def HeadersCarried (f : File) (vars : List (String × String)) : Prop :=
  ∀ s c o traces name text, ofFile commonFormats f vars = .ok s → IsHeaderName name →
    Headers.reserved name = false → s.apiToken = none →
    given? vars ("FGA_DEFAULT_HEADERS__" ++ name) = some text → Client.OpenedBy s c →
    c.Operates o traces → (∀ e ∈ o.headers, Headers.fold e.1 ≠ Headers.fold name) →
    ∀ trace ∈ traces, ∀ sent ∈ trace.sent, Headers.named name sent.2.headers ≠ []

theorem wait_lost {f : File} {values : List (String × Tree)} {n : Nat}
    (file : f.layer commonFormats = .ok values) (loaded : ofFile commonFormats f vars = .ok s)
    (unsaid : said? vars "FGA_RETRY__MIN_WAIT_MS" = none)
    (written : (((Tree.empty.layer values).child? "retry").bind
      (retryField? · 1 "min_wait_ms")).elim (.ok 100) (readNatural "retry.min_wait_ms") = .ok n)
    (differs : n ≠ s.retry.minWaitMillis) : ¬ WaitKept f vars := by
  intro kept
  have settles := kept values s file loaded
  rw [unsaid, Option.none_or, Settles, written] at settles
  exact differs (Except.ok.inj settles)

theorem header_lost {named : String} (loaded : ofFile commonFormats bare (brokenOff named) =
      .ok { apiUrl := "http://localhost", headers := [("trace", "on")] })
    (given : given? (brokenOff named) ("FGA_DEFAULT_HEADERS__" ++ "X-TENANT") = some "acme") :
    ¬ HeadersCarried bare (brokenOff named) := by
  intro carried
  obtain ⟨client, resolved⟩ : ∃ client, Settings.resolve
      { apiUrl := "http://localhost", headers := [("trace", "on")] } = .ok client :=
    Fallible.toOption_isSome.mp (by decide +kernel)
  obtain ⟨c, traces, opened, run, trace, mem, sent, there⟩ := resolved_sends resolved
  refine carried _ c {} traces "X-TENANT" "acme" loaded isHeaderName_tenant (by decide +kernel) rfl
    given opened run nofun trace mem sent there ?_
  rw [Client.makes_headers (run.makes trace mem sent there), opened.headers]
  decide +kernel

/-- A single variable resets the settings that a list has beside it. And with a variable for all
retries or all headers, or for a place in them, what stands beside it is lost even in tables. -/
theorem siblings_reset :
    ¬ WaitKept listed [("FGA_RETRY__MAX_RETRIES", "3")] ∧
    ¬ WaitKept tenants [("FGA_RETRY", "1"), ("FGA_RETRY__MAX_RETRIES", "3")] ∧
    ¬ WaitKept tenants [("FGA_RETRY[0]", "5")] ∧
    ¬ HeadersCarried bare (brokenOff "FGA_DEFAULT_HEADERS") ∧
    ¬ HeadersCarried bare (brokenOff "FGA_DEFAULT_HEADERS[0]") := by
  refine ⟨?_, ?_, ?_, ?_, ?_⟩
  · have loaded : ofFile commonFormats listed [("FGA_RETRY__MAX_RETRIES", "3")] =
        .ok { apiUrl := "http://localhost", retry := ⟨3, 100, 120000⟩ } :=
      (ofFile_layer listed_layer).trans (Fallible.toOption_ok.mp (by decide +kernel))
    exact wait_lost (n := 10) listed_layer loaded rfl rfl (by decide)
  · have loaded : ofFile commonFormats tenants
          [("FGA_RETRY", "1"), ("FGA_RETRY__MAX_RETRIES", "3")] =
        .ok { acmeSettings with
          headers := [("X-TENANT", "initech"), ("X-Tenant", "globex")]
          retry := ⟨3, 100, 120000⟩ } :=
      (ofFile_layer tenants_layer).trans (Fallible.toOption_ok.mp (by decide +kernel))
    exact wait_lost (n := 10) tenants_layer loaded rfl rfl (by decide)
  · have loaded : ofFile commonFormats tenants [("FGA_RETRY[0]", "5")] =
        .ok { acmeSettings with
          headers := [("X-TENANT", "initech"), ("X-Tenant", "globex")]
          retry := ⟨5, 100, 120000⟩ } :=
      (ofFile_layer tenants_layer).trans (Fallible.toOption_ok.mp (by decide +kernel))
    exact wait_lost (n := 10) tenants_layer loaded rfl rfl (by decide)
  · exact header_lost ((ofFile_layer bare_layer).trans
      (Fallible.toOption_ok.mp (by decide +kernel))) (by decide +kernel)
  · exact header_lost ((ofFile_layer bare_layer).trans
      (Fallible.toOption_ok.mp (by decide +kernel))) (by decide +kernel)

end Rebac.Settings
