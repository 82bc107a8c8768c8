import Criteria.Proofs.Combining
import Criteria.Proofs.Exchanges

/-!
# What a client does not learn

The details of a failure of the system are for the log. So two applications whose
repositories fail alike, with other details only, cannot be told apart by a client.

The argument is about two runs side by side. `Repository.Alike` says of two
repositories that each operation, from states that a relation `R` keeps together,
gives results that are the same but for such details, and leads to states that `R`
keeps together. Every layer above carries this on: the calls of a service, the
endpoints, where a failure becomes a response (`Failure.Alike.failed_eq`) and nothing
else is left of it, and so any sequence of requests.
-/

namespace Criteria

open Api Http

/-! ## Alike failures, operations and repositories -/

/-- Two failures that differ in the details for the log at most. -/
inductive Failure.Alike : Failure → Failure → Prop where
  | refl (f : Failure) : Alike f f
  | database (d e : DatabaseError) : Alike (.database d) (.database e)
  | corruptData (s t : String) : Alike (.corruptData s) (.corruptData t)
  | internal (s t : String) : Alike (.internal s) (.internal t)

/-- A client is told of alike failures in the same words. -/
theorem Failure.Alike.failed_eq {f g : Failure} (h : f.Alike g) : failed f = failed g := by
  cases h with
  | refl => rfl
  | database => rfl
  | corruptData => rfl
  | internal => rfl

/-- Two results that are the same, or alike failures. -/
inductive AlikeResults {α : Type} : Except Failure α → Except Failure α → Prop where
  | ok (a : α) : AlikeResults (.ok a) (.ok a)
  | error {f g : Failure} (h : f.Alike g) : AlikeResults (.error f) (.error g)

namespace AlikeResults

variable {α : Type} {x y : Except Failure α}

theorem refl (x : Except Failure α) : AlikeResults x x := by
  cases x with
  | ok a => exact .ok a
  | error f => exact .error (.refl f)

theorem answer_eq (h : AlikeResults x y) (respond : α → Response) :
    answer respond x = answer respond y := by
  cases h with
  | ok a => rfl
  | error h => exact h.failed_eq

theorem isOk_eq (h : AlikeResults x y) : x.isOk = y.isOk := by
  cases h <;> rfl

end AlikeResults

/-- Two operations that give alike results from states that a relation keeps together, and
lead to such states. -/
def Action.Alike {σ τ α : Type} (R : σ → τ → Prop) (act : Action σ α) (act' : Action τ α) : Prop :=
  ∀ s s', R s s' → AlikeResults (act s).1 (act' s').1 ∧ R (act s).2 (act' s').2

structure Repository.Alike {σ τ : Type} (R : σ → τ → Prop) (p : Repository σ) (q : Repository τ) :
    Prop where
  create : ∀ text root, Action.Alike R (p.create text root) (q.create text root)
  listAll : Action.Alike R p.listAll q.listAll
  contains : ∀ id, Action.Alike R (p.contains id) (q.contains id)
  delete : ∀ id, Action.Alike R (p.delete id) (q.delete id)
  ping : Action.Alike R p.ping q.ping

/-! ## The service -/

variable {σ τ : Type} {R : σ → τ → Prop}

structure ServiceState.Alike (R : σ → τ → Prop) (s : ServiceState σ) (s' : ServiceState τ) :
    Prop where
  storage : R s.storage s'.storage
  metrics : s.metrics = s'.metrics

/-- What two operations of alike repositories make of alike states of the services. -/
theorem ServiceState.Alike.asked {s : ServiceState σ} {s' : ServiceState τ} (hs : s.Alike R s')
    {α : Type} {act : Action σ α} {act' : Action τ α} (h : Action.Alike R act act') :
    ∃ x x' t t', act s.storage = (x, t) ∧ act' s'.storage = (x', t') ∧ AlikeResults x x' ∧
      ServiceState.Alike R ⟨t, s.metrics⟩ ⟨t', s'.metrics⟩ := by
  obtain ⟨hresult, hstorage⟩ := h _ _ hs.storage
  exact ⟨_, _, _, _, rfl, rfl, hresult, hstorage, hs.metrics⟩

structure Service.Alike (R : σ → τ → Prop) (svc : Service σ) (svc' : Service τ) : Prop where
  mode : svc.mode = svc'.mode
  repository : svc.repository.Alike R svc'.repository

namespace Service

variable {svc : Service σ} {svc' : Service τ}

theorem counted_alike {s : ServiceState σ} {s' : ServiceState τ} (h : s.Alike R s') (m : Mutation)
    (r : MutationResult) : (counted s m r).Alike R (counted s' m r) :=
  ⟨h.storage, congrArg (·.count (.mutation m r)) h.metrics⟩

theorem Alike.keep (h : svc.Alike R svc') (m : Mutation) (text : String) (root : Tree) :
    Action.Alike (ServiceState.Alike R) (svc.keep m text root) (svc'.keep m text root) := by
  intro s s' hs
  obtain ⟨x, x', t, t', hx, hx', hresult, hstate⟩ := hs.asked (h.repository.create text root)
  simp only [Service.keep, hx, hx']
  cases hresult with
  | ok rule => exact ⟨.ok rule, counted_alike hstate m .success⟩
  | error hfail => exact ⟨.error hfail, counted_alike hstate m .error⟩

/-- Whatever two services alike are called for, they do alike. -/
theorem Alike.run (h : svc.Alike R svc') {α : Type} (c : Call α) :
    Action.Alike (ServiceState.Alike R) (c.run svc) (c.run svc') := by
  intro s s' hs
  cases c with
  | create text =>
      simp only [Call.run, Service.create, read_congr h.mode]
      cases svc'.read text with
      | error f => exact ⟨.refl _, counted_alike hs .create .rejected⟩
      | ok root => exact h.keep .create text root s s' hs
  | combine texts =>
      simp only [Call.run, Service.combine, readAll_congr h.mode]
      cases svc'.readAll texts with
      | error f => exact ⟨.refl _, counted_alike hs .combine .rejected⟩
      | ok roots => exact h.keep .combine _ _ s s' hs
  | delete id =>
      obtain ⟨x, x', t, t', hx, hx', hresult, hstate⟩ := hs.asked (h.repository.delete id)
      simp only [Call.run, Service.delete, hx, hx']
      cases hresult with
      | ok gone =>
          cases gone with
          | true => exact ⟨.ok (), counted_alike hstate .delete .success⟩
          | false => exact ⟨.refl _, counted_alike hstate .delete .notFound⟩
      | error hfail => exact ⟨.error hfail, counted_alike hstate .delete .error⟩
  | evaluate ctx =>
      obtain ⟨x, x', t, t', hx, hx', hresult, hstate⟩ := hs.asked h.repository.listAll
      simp only [Call.run, Service.evaluate, Service.list, hx, hx']
      cases hresult with
      | ok rules => exact ⟨.ok _, hstate.storage, by rw [hs.metrics]⟩
      | error hfail => exact ⟨.error hfail, hstate⟩
  | list =>
      obtain ⟨hresult, ht⟩ := h.repository.listAll _ _ hs.storage
      exact ⟨hresult, ht, hs.metrics⟩
  | ping =>
      obtain ⟨hresult, ht⟩ := h.repository.ping _ _ hs.storage
      exact ⟨hresult, ht, hs.metrics⟩

end Service

/-! ## The application -/

namespace Api

/-- Two runs come to the same response, and to states that a relation keeps together. -/
structure SameAnswer (R : σ → τ → Prop) (x : Response × ServiceState σ)
    (y : Response × ServiceState τ) : Prop where
  response : x.1 = y.1
  state : x.2.Alike R y.2

variable {svc : Service σ} {svc' : Service τ} {s : ServiceState σ} {s' : ServiceState τ}

theorem onBody_same (hs : s.Alike R s') {α β γ : Type} (r : Request)
    (readValue : Draft → Reading α) (validate : α → Except Failure β)
    {act : β → Action (ServiceState σ) γ} {act' : β → Action (ServiceState τ) γ}
    (hact : ∀ b, Action.Alike (ServiceState.Alike R) (act b) (act' b)) (respond : γ → Response) :
    SameAnswer R (onBody r readValue validate act respond s)
      (onBody r readValue validate act' respond s') := by
  simp only [onBody]
  cases body readValue r with
  | error a => exact ⟨rfl, hs⟩
  | ok q =>
      simp only
      cases validate q with
      | error f => exact ⟨rfl, hs⟩
      | ok b =>
          obtain ⟨hresult, hstate⟩ := hact b s s' hs
          exact ⟨hresult.answer_eq respond, hstate⟩

theorem countRequest_alike (h : s.Alike R s') (series : Series) :
    (countRequest s series).Alike R (countRequest s' series) :=
  ⟨h.storage, congrArg (·.count series) h.metrics⟩

section Alike

variable (h : svc.Alike R svc') (hs : s.Alike R s')
include h hs

theorem perform_same (e : Endpoint) (values : List String) (r : Request) :
    SameAnswer R (perform svc e values r s) (perform svc' e values r s') := by
  cases e with
  | createRule => exact onBody_same hs r _ _ (fun text => h.run (.create text)) _
  | combineRules => exact onBody_same hs r _ _ (fun texts => h.run (.combine texts)) _
  | evaluateRules =>
      exact onBody_same hs r EvaluateRequest.read .ok (fun ctx => h.run (.evaluate ctx)) _
  | listRules =>
      obtain ⟨hresult, hstate⟩ := h.run .list s s' hs
      exact ⟨hresult.answer_eq _, hstate⟩
  | deleteRule =>
      simp only [perform]
      cases ruleId values with
      | error a => exact ⟨rfl, hs⟩
      | ok id =>
          obtain ⟨hresult, hstate⟩ := h.run (.delete id) s s' hs
          exact ⟨hresult.answer_eq _, hstate⟩
  | health => exact ⟨rfl, hs⟩
  | readiness =>
      obtain ⟨hresult, hstate⟩ := h.run .ping s s' hs
      exact ⟨congrArg ready hresult.isOk_eq, hstate⟩

theorem dispatch_same (route : Route) (values : List String) (r : Request) :
    SameAnswer R (dispatch svc route values r s) (dispatch svc' route values r s') := by
  simp only [dispatch]
  cases route.endpoint? r.method with
  | none => exact ⟨rfl, hs⟩
  | some e =>
      obtain ⟨hresponse, hstate⟩ := perform_same h hs e values r
      exact ⟨by simp only [hresponse], hstate⟩

/-- Both applications give the same response but for the identifier, which each of them
makes up for itself. -/
theorem handle_same (fresh fresh' : String) (r : Request) : ∃ a : Response,
    (handle svc fresh r s).1 = a.withRequestId (r.id fresh) ∧
    (handle svc' fresh' r s').1 = a.withRequestId (r.id fresh') ∧
    (handle svc fresh r s).2.Alike R (handle svc' fresh' r s').2 := by
  simp only [handle]
  cases route? r.path with
  | none => exact ⟨_, rfl, rfl, countRequest_alike hs _⟩
  | some found =>
      obtain ⟨route, values⟩ := found
      obtain ⟨hresponse, hstate⟩ := dispatch_same h hs route values r
      simp only [hresponse]
      exact ⟨_, rfl, rfl, countRequest_alike hstate _⟩

end Alike

/-! ## Sequences of requests -/

/-- Two exchanges that differ at most in the identifier of the request, and that only if
the application made it up. -/
structure Exchange.Same (x y : Exchange) : Prop where
  request : x.request = y.request
  status : x.response.status = y.response.status
  headers : x.response.headers.filter (·.1 != requestIdHeader) =
    y.response.headers.filter (·.1 != requestIdHeader)
  body : x.response.body = y.response.body
  response : ∀ id, x.request.header? requestIdHeader = some id → id ≠ "" →
    id.toList.all isVisible = true → x.response = y.response

theorem Exchange.same_of_withRequestId (r : Request) (a : Response) (fresh fresh' : String) :
    Same ⟨r, a.withRequestId (r.id fresh)⟩ ⟨r, a.withRequestId (r.id fresh')⟩ := by
  refine ⟨rfl, rfl, ?_, rfl, fun id hid hne hvisible => ?_⟩
  · simp [Response.withRequestId, Response.withHeader]
  · have hown : ∀ other, r.id other = id := fun other => by
      rw [Request.id, hid]
      simp [hne, hvisible]
    simp only [hown]

/-- Two applications whose repositories fail alike answer the same requests with the same
responses, and count the same, one request after the other: the details of a failure
of the system reach no client. -/
theorem system_details_undisclosed {svc : Service σ} {svc' : Service τ}
    (hmode : svc.mode = svc'.mode) (hrepository : svc.repository.Alike R svc'.repository)
    {s : ServiceState σ} {s' : ServiceState τ} (hstorage : R s.storage s'.storage)
    (hmetrics : s.metrics = s'.metrics) {requests requests' : List (String × Request)}
    (hrequests : requests.map Prod.snd = requests'.map Prod.snd) :
    List.Forall₂ Exchange.Same (serve svc requests s).1 (serve svc' requests' s').1 ∧
      (serve svc requests s).2.metrics = (serve svc' requests' s').2.metrics := by
  -- The induction is on the requests and carries that the two states are alike.
  have hs : s.Alike R s' := ⟨hstorage, hmetrics⟩
  clear hstorage hmetrics
  induction requests generalizing requests' s s' with
  | nil =>
      cases requests' with
      | nil => exact ⟨.nil, hs.metrics⟩
      | cons request' rest' => cases hrequests
  | cons request rest ih =>
      cases requests' with
      | nil => cases hrequests
      | cons request' rest' =>
          obtain ⟨fresh, r⟩ := request
          obtain ⟨fresh', r'⟩ := request'
          obtain ⟨hr, hrest⟩ := List.cons.inj hrequests
          obtain rfl : r = r' := hr
          obtain ⟨a, ha, ha', hstate⟩ := handle_same ⟨hmode, hrepository⟩ hs fresh fresh' r
          obtain ⟨hxs, hcounts⟩ := ih hrest hstate
          have hsame := Exchange.same_of_withRequestId r a fresh fresh'
          rw [← ha, ← ha'] at hsame
          exact ⟨.cons hsame hxs, hcounts⟩

/-- A pool that has timed out and a database that refuses statements. -/
theorem system_details_undisclosed_refusing :
    let refusal (e : DatabaseError) (reason : String) : Repository.Method → Option Failure
      | .create => some (.database e)
      | .listAll => some (.corruptData reason)
      | .ping => some (.internal reason)
      | _ => none
    let svc : Service Store := ⟨Repository.memory.refusing (refusal .poolTimedOut "row 7"), .strict⟩
    let svc' : Service Store :=
      ⟨Repository.memory.refusing (refusal (.refused "disk full") "no such table"), .strict⟩
    let asked : List Request :=
      [⟨"POST", "/api/rules", [("content-type", "application/json")],
          "\x7b\"ruleString\":\"age > 30\"\x7d"⟩,
        ⟨"GET", "/api/rules", [("x-request-id", "mine")], ""⟩, ⟨"GET", "/ready", [], ""⟩]
    let run := serve svc (["1", "2", "3"].zip asked) ⟨.empty, .empty⟩
    let run' := serve svc' (["4", "5", "6"].zip asked) ⟨.empty, .empty⟩
    svc.repository.Alike Eq svc'.repository ∧ run.1.map (·.response.status) = [500, 500, 503] ∧
      List.Forall₂ Exchange.Same run.1 run'.1 := by
  intro refusal svc svc' asked run run'
  have hmode : svc.mode = svc'.mode := rfl
  have halike : Repository.Alike Eq (Repository.memory.refusing (refusal .poolTimedOut "row 7"))
      (Repository.memory.refusing (refusal (.refused "disk full") "no such table")) := by
    refine ⟨fun text root => ?_, ?_, fun id => ?_, fun id => ?_, ?_⟩
    all_goals
      rintro s - rfl
    · exact ⟨.error (.database _ _), rfl⟩
    · exact ⟨.error (.corruptData _ _), rfl⟩
    · exact ⟨.refl _, rfl⟩
    · exact ⟨.refl _, rfl⟩
    · exact ⟨.error (.internal _ _), rfl⟩
  refine ⟨halike, by decide +kernel, ?_⟩
  have hasked : (["1", "2", "3"].zip asked).map Prod.snd = (["4", "5", "6"].zip asked).map Prod.snd :=
    rfl
  exact (system_details_undisclosed hmode halike rfl rfl hasked).1

end Api

end Criteria
