import Rebac.Client.Check

set_option autoImplicit false

/-! # What is prepared for an operation -/

namespace Rebac.Client

def storePath (store : Identifier) : String := "/stores/" ++ store.text

def policyFor (c : Client) (o : RequestOptions) : Retry.Policy := o.retry.getD c.retry

theorem prepare_inv {c : Client} {o : RequestOptions} {p : Prepared} (ready : c.prepare o = .ok p) :
    ∃ store modelId, c.storeId = some store ∧ c.chooseModel o.modelId = .ok modelId ∧
      (c.policyFor o).validate = .ok () ∧
      p = ⟨storePath store, modelId, c.policyFor o, Headers.merge c.headers o.headers,
        o.timeout.getD c.timeout, o.consistency⟩ := by
  unfold prepare at ready
  cases given : c.storeId with
  | none => simp [given] at ready
  | some store =>
    cases model : c.chooseModel o.modelId with
    | error e =>
      simp only [given, model] at ready
      cases ready
    | ok modelId =>
      cases valid : (o.retry.getD c.retry).validate with
      | error e =>
        simp only [given, model, bind, Except.bind, valid] at ready
        cases ready
      | ok _ =>
        simp only [given, model, bind, Except.bind, valid] at ready
        cases ready
        exact ⟨store, modelId, rfl, rfl, valid, rfl⟩

theorem prepare_ok {c : Client} {o : RequestOptions} {p : Prepared} (ready : c.prepare o = .ok p) :
    ∃ store, c.storeId = some store ∧ p.storePath = storePath store ∧
      c.chooseModel o.modelId = .ok p.modelId ∧ p.consistency = o.consistency := by
  obtain ⟨store, modelId, given, model, -, rfl⟩ := prepare_inv ready
  exact ⟨store, given, rfl, model, rfl⟩

theorem validate_refuses {policy : Retry.Policy} :
    (∃ cause, policy.validate = .error cause) ↔ 15 < policy.maxRetries := by
  unfold Retry.Policy.validate
  split
  · rename_i many
    exact ⟨fun _ => many, fun _ => ⟨_, rfl⟩⟩
  · rename_i few
    simpa [Retry.Policy.allowedRetries] using few

theorem prepare_policy {c : Client} {o : RequestOptions} {p : Prepared}
    (ready : c.prepare o = .ok p) : p.policy = c.policyFor o ∧ (c.policyFor o).maxRetries ≤ 15 := by
  obtain ⟨store, modelId, -, -, valid, rfl⟩ := prepare_inv ready
  refine ⟨rfl, Nat.le_of_not_lt fun many => ?_⟩
  obtain ⟨cause, refused⟩ := validate_refuses.mpr many
  cases valid.symm.trans refused

/-- What keeps an operation from its first call: there is no store, the model that the options name
is no identifier, or the policy has too many retries. -/
def Unready (c : Client) (o : RequestOptions) : Prop :=
  c.storeId = none ∨ (∃ raw why, o.modelId = some raw ∧ Identifier.parse raw = .error why) ∨
    15 < (c.policyFor o).maxRetries

theorem chooseModel_refuses {c : Client} {named : Option String} :
    (∃ cause, c.chooseModel named = .error cause) ↔
      ∃ raw why, named = some raw ∧ Identifier.parse raw = .error why := by
  cases named with
  | none => simp [chooseModel]
  | some raw => cases read : Identifier.parse raw <;> simp [chooseModel, read]

theorem prepare_refuses {c : Client} {o : RequestOptions} :
    (∃ cause, c.prepare o = .error cause) ↔ c.Unready o := by
  unfold Unready prepare policyFor
  rw [← chooseModel_refuses, ← validate_refuses]
  cases c.storeId with
  | none => simp
  | some store =>
    cases c.chooseModel o.modelId with
    | error cause => simp [bind, Except.bind]
    | ok modelId =>
      cases valid : (o.retry.getD c.retry).validate with
      | error cause => simp [bind, Except.bind, valid]
      | ok _ => simp [bind, Except.bind, valid, pure, Except.pure]

/-! ## Operations of one call -/

open Dispatch

/-- An operation that is refused, or makes one call and fails as that call does. -/
def askOnce {τ α : Type} (c : Client) (o : RequestOptions) (call : Prepared → Call)
    (decode : Json → Json.Decoded τ) (value : List τ → α) (events : List τ → List Event) :
    Program τ α :=
  match c.prepare o with
  | .error cause => .refuse (.validation cause)
  | .ok p =>
    .round (p.single (call p) (Answer.ofOutcome decode)) fun answers =>
      .done (.ok (value answers)) (events answers)

theorem check_asks (c : Client) (q : Question) (o : RequestOptions) :
    c.check q o = c.askOnce o (fun p => p.checkCall q) Answer.check (fun answers => answers.any id)
      fun answers => [.checked (answers.any id)] := rfl

theorem listObjects_asks (c : Client) (q : ObjectsQuestion) (o : RequestOptions) :
    c.listObjects q o = c.askOnce o (fun p => p.objectsCall q) Answer.objects List.flatten
      fun answers => [.objectsListed answers.flatten.length] := rfl

def ofStore (store : Identifier) : Client := ⟨some store, none, [], .standard, .zero⟩

theorem ofStore_ready (store : Identifier) : ∃ p, (ofStore store).prepare {} = .ok p := ⟨_, rfl⟩

end Rebac.Client
