import Rebac.Question.Answer
import Rebac.Proofs.Json.Fields

set_option autoImplicit false

/-! # What answers amount to -/

namespace Rebac

def CallError.Rejected (e : CallError) : Prop := e.status? = some 401 ∨ e.status? = some 403

theorem ClientError.fatal_ofCall (e : CallError) : (ofCall e).fatal = true ↔ e.Rejected := by
  cases e with
  | http status hint body =>
    simp only [ofCall, CallError.classOf, CallError.Rejected, CallError.status?]
    split_ifs with limited absent broken
    · simp [fatal, limited]
    · simp [fatal, absent]
    · have other : status ≠ 401 ∧ status ≠ 403 := by omega
      simp [fatal, other]
    all_goals simp_all [fatal]
  | timeout _ => simp [ofCall, fatal, CallError.Rejected, CallError.status?]
  | connection _ => simp [ofCall, fatal, CallError.Rejected, CallError.status?]
  | decode _ => simp [ofCall, fatal, CallError.Rejected, CallError.status?]

namespace Answer

variable {α : Type}

theorem field_ok {default a : α} {decode : Json → Json.Decoded α} {members : Members}
    {name : String} (read : field default decode members name = .ok a) :
    (members.find? name = none ∧ a = default) ∨
      ∃ j, members.find? name = some j ∧ decode j = .ok a := by
  unfold field Json.present at read
  cases found : members.find? name with
  | none =>
    rw [found] at read
    cases read
    exact .inl ⟨rfl, rfl⟩
  | some j =>
    rw [found] at read
    cases decoded : decode j with
    | error e => simp [decoded, Except.map] at read
    | ok b =>
      simp only [decoded, Except.map, Option.getD_some, Except.ok.injEq] at read
      exact .inr ⟨j, rfl, read ▸ decoded⟩

theorem ofOutcome_ok {decode : Json → Json.Decoded α} {outcome : Outcome} {a : α} :
    ofOutcome decode outcome = .ok a ↔
      ∃ response, outcome = .ok response ∧ decode response.body = .ok a := by
  cases outcome with
  | error e => simp [ofOutcome]
  | ok response =>
    cases read : decode response.body <;> simp [ofOutcome, Response.decode, read]

theorem ofOutcome_error {decode : Json → Json.Decoded α} {outcome : Outcome} {e : ClientError} :
    ofOutcome decode outcome = .error e ↔ (∃ err, outcome = .error err ∧ e = .ofCall err) ∨
      ∃ response reason, outcome = .ok response ∧ decode response.body = .error reason ∧
        e = .protocol reason.message := by
  cases outcome with
  | error err => simp [ofOutcome, eq_comm]
  | ok response =>
    cases read : decode response.body <;>
      simp [ofOutcome, Response.decode, read, ClientError.ofCall, eq_comm]

/-- A record allows its question if it has `true` in the place of the answer. -/
def Allows (record : Json) : Prop := Json.recordField? "allowed" 0 record = some (.bool true)

/-- The entry of an id in a record of results; of several the last counts. -/
def Under (id : String) (record entry : Json) : Prop :=
  ∃ members, record.recordField? "result" 0 = some (.object members) ∧
    members.reverse.lookup id = some entry

def AllowsUnder (id : String) (record : Json) : Prop :=
  ∃ entry, Under id record entry ∧ Allows entry

theorem check_allows {body : Json} (read : check body = .ok true) : Allows body := by
  cases body with
  | object members =>
    rcases field_ok read with ⟨-, eq⟩ | ⟨j, found, decoded⟩
    · cases eq
    · rw [Allows, Json.recordField?, found, Json.asBool_ok decoded]
  | array items =>
    obtain ⟨allowed, item, rest⟩ := Fallible.bind_ok.mp read
    cases Json.atMost_ok rest
    rcases Json.itemOr_ok item with ⟨-, eq⟩ | ⟨j, found, decoded⟩
    · cases eq
    · rw [Allows, Json.recordField?, found, Json.asBool_ok decoded]
  | _ => cases read

/-! ## Records of results -/

/-- A text that may be left out, and is then empty. -/
def SaysText (given : Option Json) (s : String) : Prop :=
  given.elim (s = "") (· = .string s)

structure Fault.Reads (v : Json) (f : Fault) : Prop where
  fits : v.Fits 3
  inputError : Json.Optional (fun j s => j = .string s) (v.recordField? "input_error" 0) f.inputError
  internalError : Json.Optional (fun j s => j = .string s) (v.recordField? "internal_error" 1)
    f.internalError
  message : SaysText (v.recordField? "message" 2) f.message

structure Entry.Reads (v : Json) (e : Entry) : Prop where
  fits : v.Fits 2
  allowed : Json.Optional (fun j b => j = .bool b) (v.recordField? "allowed" 0) e.allowed
  error : Json.Optional Fault.Reads (v.recordField? "error" 1) e.error

section Fields

variable {decode : Json → Json.Decoded α} {reads : Json → α → Prop} {given : Option α}
  {members : Members} {name s : String} {items : List Json} {place : Nat}

theorem field_optional (read : ∀ j a, decode j = .ok a ↔ reads j a)
    (nothing : ∀ a, ¬ reads .null a) :
    field none (Json.asOption decode) members name = .ok given ↔
      Json.Optional reads (members.find? name) given := by
  rw [field, Fallible.map_ok, ← Json.present_optional read nothing]
  refine exists_congr fun found => and_congr_right fun _ => ?_
  cases found <;> rfl

theorem field_text : field "" Json.asString members name = .ok s ↔
    SaysText (members.find? name) s := by
  rw [field, Fallible.map_ok, Json.present, SaysText]
  cases members.find? name with
  | none => simp [eq_comm]
  | some j => simp [Fallible.map_ok, Json.asString_ok]

theorem itemOr_text : Json.itemOr items place "" Json.asString = .ok s ↔
    SaysText items[place]? s := by
  rw [Json.itemOr, SaysText]
  cases items[place]? with
  | none => simp [eq_comm]
  | some j => simp [Json.asString_ok]

end Fields

theorem fault_iff (v : Json) (f : Fault) : fault v = .ok f ↔ f.Reads v := by
  obtain ⟨inputError, internalError, message⟩ := f
  have text : ∀ j s, Json.asString j = .ok s ↔ j = .string s := fun _ _ => Json.asString_ok
  cases v with
  | object members =>
    simp only [fault, Fallible.bind_ok, field_optional text nofun, field_text]
    constructor
    · rintro ⟨_, input, _, internal, _, said, eq⟩
      cases eq
      exact ⟨trivial, input, internal, said⟩
    · rintro ⟨-, input, internal, said⟩
      exact ⟨_, input, _, internal, _, said, rfl⟩
  | array items =>
    simp only [fault, Fallible.bind_ok, Json.itemOr_optional text nofun, itemOr_text,
      Json.atMost_ok_iff]
    constructor
    · rintro ⟨_, input, _, internal, _, said, few, eq⟩
      cases eq
      exact ⟨few, input, internal, said⟩
    · rintro ⟨few, input, internal, said⟩
      exact ⟨_, input, _, internal, _, said, few, rfl⟩
  | _ =>
    constructor
    · intro read
      cases read
    · intro reads
      exact reads.fits.elim

theorem entry_iff (v : Json) (e : Entry) : entry v = .ok e ↔ e.Reads v := by
  obtain ⟨allowed, error⟩ := e
  have flag : ∀ j b, Json.asBool j = .ok b ↔ j = .bool b := fun j b => by
    cases j <;> simp [Json.asBool]
  have faultless (f : Fault) : ¬ f.Reads .null := fun reads => reads.fits
  cases v with
  | object members =>
    simp only [entry, Fallible.bind_ok, field_optional flag nofun,
      field_optional fault_iff faultless]
    constructor
    · rintro ⟨_, said, _, told, eq⟩
      cases eq
      exact ⟨trivial, said, told⟩
    · rintro ⟨-, said, told⟩
      exact ⟨_, said, _, told, rfl⟩
  | array items =>
    simp only [entry, Fallible.bind_ok, Json.itemOr_optional flag nofun,
      Json.itemOr_optional fault_iff faultless, Json.atMost_ok_iff]
    constructor
    · rintro ⟨_, said, _, told, few, eq⟩
      cases eq
      exact ⟨few, said, told⟩
    · rintro ⟨few, said, told⟩
      exact ⟨_, said, _, told, few, rfl⟩
  | _ =>
    constructor
    · intro read
      cases read
    · intro reads
      exact reads.fits.elim

theorem Entry.Reads.allows {v : Json} {e : Entry} (reads : e.Reads v)
    (allowed : e.allowed = some true) : Allows v := by
  have said := reads.allowed
  rw [allowed] at said
  rw [Allows]
  generalize v.recordField? "allowed" 0 = given at said ⊢
  cases said with
  | value eq => rw [eq]

theorem batch_ok {body : Json} {entries : List (String × Entry)}
    (read : batch body = .ok entries) :
    (Json.recordField? "result" 0 body = none ∧ entries = []) ∨ ∃ results,
      Json.recordField? "result" 0 body = some results ∧
        Json.asMapOf entry results = .ok entries := by
  cases body with
  | object members => exact field_ok read
  | array items =>
    obtain ⟨given, first, rest⟩ := Fallible.bind_ok.mp read
    cases Json.atMost_ok rest
    exact Json.itemOr_ok first
  | _ => cases read

theorem batch_nodup {body : Json} {entries : List (String × Entry)}
    (read : batch body = .ok entries) : (entries.map Prod.fst).Nodup := by
  rcases batch_ok read with ⟨-, rfl⟩ | ⟨results, -, decoded⟩
  · exact List.nodup_nil
  · exact (Json.asMapOf_ok decoded).1

theorem batch_entry {body : Json} {entries : List (String × Entry)} {id : String} {e : Entry}
    (read : batch body = .ok entries) (mem : (id, e) ∈ entries) :
    ∃ v, Under id body v ∧ e.Reads v := by
  rcases batch_ok read with ⟨-, rfl⟩ | ⟨results, found, decoded⟩
  · cases mem
  · obtain ⟨-, members, rfl, -, sources⟩ := Json.asMapOf_ok decoded
    obtain ⟨item, within, entered⟩ := sources id e mem
    exact ⟨item, ⟨members, found, within⟩, (entry_iff item e).mp entered⟩

theorem batch_under {body v : Json} {entries : List (String × Entry)} {id : String}
    (read : batch body = .ok entries) (under : Under id body v) : ∃ e, (id, e) ∈ entries := by
  obtain ⟨members, found, last⟩ := under
  rcases batch_ok read with ⟨absent, -⟩ | ⟨results, found', decoded⟩
  · cases absent.symm.trans found
  · cases found.symm.trans found'
    obtain ⟨-, members', same, names, -⟩ := Json.asMapOf_ok decoded
    cases same
    obtain ⟨before, after, eq, -⟩ := List.lookup_eq_some_iff.mp last
    have mem : (id, v) ∈ members :=
      List.mem_reverse.mp (eq ▸ List.mem_append_right _ List.mem_cons_self)
    obtain ⟨⟨_, e⟩, there, rfl⟩ := List.mem_map.mp ((names id).mpr (List.mem_map_of_mem mem))
    exact ⟨e, there⟩

end Answer

end Rebac
