import Rebac.Http.Request
import Rebac.Proofs.Headers

set_option autoImplicit false

/-!
# The lines of a request

Each header of a call becomes one line, and a merged set has one header of each name. The line that
says the body is JSON is there before the headers of the call are added, and one of these says the
same: that line stands twice, and every other name has one line at most.
-/
namespace Rebac.Http

variable {address name : String} {call : Call} {request : Request} {url : Url}
  {standing perCall headers : Headers} {own lines : List Line}

def linesOf (name : String) (lines : List Line) : List Line := lines.filter fun l => l.1 = name

theorem linesOf_append (name : String) (xs ys : List Line) :
    linesOf name (xs ++ ys) = linesOf name xs ++ linesOf name ys := List.filter_append _ _

theorem linesOf_cons_other {l : Line} (differs : l.1 ≠ name) :
    linesOf name (l :: lines) = linesOf name lines := by
  simp [linesOf, differs]

/-! ## Headers as lines -/

def lineOf (h : String × String) : Line := (Headers.fold h.1, trimValue h.2)

theorem callLines?_eq (made : callLines? headers = some own) : own = headers.map lineOf := by
  induction headers generalizing own with
  | nil =>
    cases made
    rfl
  | cons h headers ih =>
    simp only [callLines?, List.mapM_cons, bind, Option.bind_eq_some_iff] at made
    obtain ⟨line, first, rest, later, eq⟩ := made
    cases eq
    split at first
    · cases first
      rw [List.map_cons, ih later]
      rfl
    · cases first

theorem linesOf_map (name : String) (headers : Headers) :
    linesOf (Headers.fold name) (headers.map lineOf) = (Headers.named name headers).map lineOf := by
  rw [linesOf, List.filter_map]
  rfl

theorem linesOf_map_le (once : ∀ k, (Headers.named k headers).length ≤ 1) (name : String) :
    (linesOf name (headers.map lineOf)).length ≤ 1 := by
  by_cases none : linesOf name (headers.map lineOf) = []
  · simp [none]
  · -- a name with a line is the name of a header in small letters
    obtain ⟨l, mem⟩ := List.exists_mem_of_ne_nil _ none
    obtain ⟨there, eq⟩ := List.mem_filter.mp mem
    obtain ⟨h, -, rfl⟩ := List.mem_map.mp there
    cases of_decide_eq_true eq
    change (linesOf (Headers.fold h.1) _).length ≤ 1
    rw [linesOf_map, List.length_map]
    exact once h.1

theorem credentials_lines (url : Url) : ∀ l ∈ credentials url, l.1 = "authorization" := by
  unfold credentials
  extract_lets plain readable password
  split
  · simp
  · simp

theorem linesOf_credentials (differs : name ≠ "authorization") (url : Url) :
    linesOf name (credentials url) = [] := by
  apply List.filter_eq_nil_iff.mpr
  intro l mem eq
  rw [credentials_lines url l mem] at eq
  exact differs (of_decide_eq_true eq).symm

/-! ## Requests -/

theorem ofCall_lines (made : Request.ofCall address call = .ok request) :
    ∃ url own, callUrl address call.path = .ok url ∧ callLines? call.headers = some own ∧
      request.lines =
        if hasLine accept (credentials url ++ (contentType, Headers.json) :: own) then
          credentials url ++ (contentType, Headers.json) :: own
        else (credentials url ++ (contentType, Headers.json) :: own) ++ [(accept, "*/*")] := by
  simp only [Request.ofCall] at made
  split at made
  · cases made
  · rename_i url parsed
    split at made
    · cases made
    · split at made
      · cases made
      · rename_i own lines
        split at made
        · cases made
        · cases made
          exact ⟨url, own, parsed, lines, rfl⟩

/-- The request for a call with merged headers has the credentials of the address, the line for the
type of the body, and one line for each header. -/
theorem merged_lines (merged : call.headers = Headers.merge standing perCall)
    (made : Request.ofCall address call = .ok request) :
    ∃ url, callUrl address call.path = .ok url ∧ request.lines = credentials url ++
      (contentType, Headers.json) :: (Headers.merge standing perCall).map lineOf := by
  obtain ⟨url, own, parsed, lined, eq⟩ := ofCall_lines made
  have same := callLines?_eq lined
  rw [merged] at same
  subst same
  refine ⟨url, parsed, eq.trans (if_pos ?_)⟩
  have there : (Headers.accept, Headers.json) ∈ Headers.merge standing perCall := by
    have listed : (Headers.accept, Headers.json) ∈
        Headers.named Headers.accept (Headers.merge standing perCall) := by
      rw [Headers.named_accept]
      exact List.mem_singleton_self _
    exact (Headers.mem_named.mp listed).1
  have line : lineOf (Headers.accept, Headers.json) ∈
      credentials url ++ (contentType, Headers.json) ::
        (Headers.merge standing perCall).map lineOf :=
    List.mem_append_right _ (List.mem_cons_of_mem _ (List.mem_map_of_mem there))
  exact List.any_eq_true.mpr ⟨_, line, by decide⟩

/-- The lines that go out: one at most of each name, but the type of the body stands twice, and a
token of the call beside the credentials of the address. -/
structure LinesSent (url : Url) (lines : List Line) : Prop where
  contentType : linesOf contentType lines =
    [(contentType, Headers.json), (contentType, Headers.json)]
  accept : linesOf accept lines = [(accept, Headers.json)]
  authorization : (linesOf "authorization" lines).length ≤ (credentials url).length + 1
  once : ∀ name, name ≠ Http.contentType → name ≠ "authorization" →
    (linesOf name lines).length ≤ 1

/-- The request for a call whose headers are merged has the line for the type of its body twice,
whatever the headers, the address and the body are. -/
theorem content_type_sent_twice (merged : call.headers = Headers.merge standing perCall)
    (made : Request.ofCall address call = .ok request) :
    ∃ url, callUrl address call.path = .ok url ∧ LinesSent url request.lines := by
  obtain ⟨url, parsed, lines⟩ := merged_lines merged made
  have own := linesOf_map_le fun k => Headers.named_merge_le k standing perCall
  refine ⟨url, parsed, ?_, ?_, ?_, ?_⟩
  · have line := linesOf_map Headers.contentType (Headers.merge standing perCall)
    rw [Headers.named_contentType] at line
    rw [lines, linesOf_append, linesOf_credentials (by decide)]
    exact congrArg ((contentType, Headers.json) :: ·) line
  · have line := linesOf_map Headers.accept (Headers.merge standing perCall)
    rw [Headers.named_accept] at line
    rw [lines, linesOf_append, linesOf_credentials (by decide), linesOf_cons_other (by decide)]
    exact line
  · rw [lines, linesOf_append, linesOf_cons_other (by decide), List.length_append]
    exact Nat.add_le_add (List.length_filter_le _ _) (own _)
  · intro name other plain
    rw [lines, linesOf_append, linesOf_credentials plain, linesOf_cons_other (Ne.symm other)]
    exact own name

def tenantCall : Call :=
  ⟨"/stores/plan/check", Headers.merge [] [("X-Tenant", "acme")], .null, none⟩

theorem tenant_call_sent : ∃ request, Request.ofCall "http://localhost" tenantCall = .ok request ∧
    1 < (linesOf contentType request.lines).length := by
  have sent : ((Request.ofCall "http://localhost" tenantCall).toOption.map fun request =>
      (linesOf contentType request.lines).length) = some 2 := by decide +kernel
  cases made : Request.ofCall "http://localhost" tenantCall with
  | error e =>
    rw [made] at sent
    cases sent
  | ok request =>
    rw [made] at sent
    have twice : (linesOf contentType request.lines).length = 2 := Option.some.inj sent
    exact ⟨request, rfl, by omega⟩

theorem tenant_type_sent_twice : ∃ (request : Request) (url : Url),
    callUrl "http://localhost" tenantCall.path = .ok url ∧ LinesSent url request.lines := by
  obtain ⟨request, made, -⟩ := tenant_call_sent
  obtain ⟨url, parsed, sent⟩ := content_type_sent_twice rfl made
  exact ⟨request, url, parsed, sent⟩

theorem lines_not_once : ¬ ∀ (address : String) (standing perCall : Headers) (call : Call)
    (request : Request), call.headers = Headers.merge standing perCall →
      Request.ofCall address call = .ok request →
      ∀ name, (linesOf name request.lines).length ≤ 1 := by
  intro once
  obtain ⟨request, made, twice⟩ := tenant_call_sent
  have single := once _ [] [("X-Tenant", "acme")] _ request rfl made contentType
  omega

end Rebac.Http
