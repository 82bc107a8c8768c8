import Criteria.Proofs.Counting
import Mathlib.Data.Finite.Prod

/-!
# The labels that clients can make up

A request is counted under three labels, and each has to be traced to where it comes
from. The path is the template of a route, or one word for all paths without a route; the
status is one of those that the endpoints answer with (`perform_status`). Which of them go
together is said by `Labels.Possible`, for one exchange first (`possible_handle`) and then
for any number of them (`possible_serve`).

The method comes from nowhere: it is what the client sent. `methods_recordedBy` says so,
and `bounded_iff` draws the conclusion that the series are as many as clients have methods,
up to a factor. Nothing but the grammar of requests keeps these from being infinitely many,
and it does not.
-/

namespace Criteria.Api

open Http

/-! ## Statuses -/

/-- The statuses that the answers of an endpoint can have. -/
def Endpoint.statuses : Endpoint → List Nat
  | createRule | combineRules | evaluateRules => [200, 400, 404, 413, 415, 422, 500]
  | listRules => [200, 400, 404, 500]
  | deleteRule => [204, 400, 404, 500]
  | health => [200]
  | readiness => [200, 503]

theorem answer_status {α : Type} {respond : α → Response} {status : Nat}
    (h : ∀ a, (respond a).status = status) (result : Except Failure α) :
    (answer respond result).status ∈ [status, 400, 404, 500] := by
  cases result with
  | ok a => exact List.mem_cons.2 (Or.inl (h a))
  | error f => exact List.mem_cons_of_mem _ (failed_status_mem f)

variable {σ : Type} (svc : Service σ)

theorem onBody_status {α β γ : Type} {r : Request} {readValue : Draft → Reading α}
    {validate : α → Except Failure β} {act : β → Action (ServiceState σ) γ}
    {respond : γ → Response} (h : ∀ a, (respond a).status = 200) (s : ServiceState σ) :
    (onBody r readValue validate act respond s).1.status ∈
      [200, 400, 404, 413, 415, 422, 500] := by
  rw [onBody]
  cases hbody : body readValue r with
  | error a =>
      have hsub : [400, 413, 415, 422] ⊆ [200, 400, 404, 413, 415, 422, 500] := by decide
      exact hsub (body_error_status_mem hbody)
  | ok a =>
      have hsub : [200, 400, 404, 500] ⊆ [200, 400, 404, 413, 415, 422, 500] := by decide
      cases hvalid : validate a with
      | error f =>
          simp only [hvalid]
          exact hsub (List.mem_cons_of_mem _ (failed_status_mem f))
      | ok b =>
          simp only [hvalid]
          exact hsub (answer_status h (act b s).1)

theorem perform_status (e : Endpoint) (values : List String) (r : Request) (s : ServiceState σ) :
    (perform svc e values r s).1.status ∈ e.statuses := by
  cases e with
  | createRule => exact onBody_status (fun _ => rfl) s
  | combineRules => exact onBody_status (fun _ => rfl) s
  | evaluateRules => exact onBody_status (fun _ => rfl) s
  | listRules =>
      exact @answer_status _ (fun rules => .json 200 (.array (rules.map Rule.toJson))) 200
        (fun _ => rfl) (svc.list s).1
  | deleteRule =>
      rw [perform]
      cases hid : ruleId values with
      | error a =>
          have hsub : [400] ⊆ Endpoint.deleteRule.statuses := by decide
          exact hsub (List.mem_singleton.2 (ruleId_error_status hid))
      | ok id =>
          exact @answer_status _ (fun _ => .bare 204) 204 (fun _ => rfl) (svc.delete id s).1
  | health => exact List.mem_singleton.2 rfl
  | readiness =>
      simp only [perform]
      cases (svc.ping s).1.isOk <;> decide

/-! ## The labels of an exchange -/

/-- The labels under which a request is counted. -/
@[ext]
structure Labels where
  method : String
  path : String
  status : Nat
  deriving DecidableEq, Repr

namespace Labels

def series (l : Labels) : Series :=
  .request l.method l.path l.status

theorem series_inj {l l' : Labels} : l.series = l'.series ↔ l = l' := by
  rw [series, series, Series.request.injEq, Labels.ext_iff]

/-- Labels that a request can be counted under. The path and the status are those of a route
and of an answer; the method is anything. -/
inductive Possible : Labels → Prop where
  | unmatched (method : String) : Possible ⟨method, unmatchedPath, 404⟩
  | refused {method : String} {route : Route} (hroute : route ∈ routes)
      (hmethod : route.endpoint? method = none) : Possible ⟨method, route.template.text, 405⟩
  | answered {method : String} {route : Route} {e : Endpoint} {status : Nat}
      (hroute : route ∈ routes) (hmethod : route.endpoint? method = some e)
      (hstatus : status ∈ e.statuses) : Possible ⟨method, route.template.text, status⟩

/-- The methods that some route answers. -/
def methods : List String := ["GET", "HEAD", "POST", "DELETE"]

def paths : List String := unmatchedPath :: routes.map (·.template.text)

def statuses : List Nat := [200, 204, 400, 404, 405, 413, 415, 422, 500, 503]

theorem Possible.path_mem {l : Labels} (h : l.Possible) : l.path ∈ paths := by
  cases h with
  | unmatched method => exact List.mem_cons_self
  | refused hroute _ => exact List.mem_cons_of_mem _ (List.mem_map_of_mem hroute)
  | answered hroute _ _ => exact List.mem_cons_of_mem _ (List.mem_map_of_mem hroute)

theorem Possible.status_mem {l : Labels} (h : l.Possible) : l.status ∈ statuses := by
  cases h with
  | unmatched method => exact (by decide : 404 ∈ statuses)
  | refused _ _ => exact (by decide : 405 ∈ statuses)
  | @answered _ _ e _ _ _ hstatus =>
      have hsub : e.statuses ⊆ statuses := by cases e <;> decide
      exact hsub hstatus

theorem methods_of_routes : ∀ route ∈ routes, ∀ m ∈ route.methods, m.1 ∈ methods := by
  decide

/-- A method that no route answers is only counted where nothing is done. -/
theorem Possible.method_mem {l : Labels} (h : l.Possible) :
    l.method ∈ methods ∨ l.path = unmatchedPath ∧ l.status = 404 ∨ l.status = 405 := by
  cases h with
  | unmatched method => exact Or.inr (Or.inl ⟨rfl, rfl⟩)
  | refused _ _ => exact Or.inr (Or.inr rfl)
  | answered hroute hmethod _ =>
      obtain ⟨m, hm, hasked⟩ := Route.endpoint?_eq_some hmethod
      rcases hasked with rfl | ⟨rfl, -⟩
      · exact Or.inl (methods_of_routes _ hroute _ hm)
      · exact Or.inl (by decide : "HEAD" ∈ methods)

end Labels

namespace Exchange

def labels (x : Exchange) : Labels :=
  ⟨x.request.method, ((route? x.request.path).map (·.1.template.text)).getD unmatchedPath,
    x.response.status⟩

theorem series_labels (x : Exchange) : x.labels.series = x.series := by
  rw [labels, series, Labels.series, requestSeries, Option.map_map]
  rfl

end Exchange

theorem possible_handle (fresh : String) (r : Request) (s : ServiceState σ) :
    (Exchange.mk r (handle svc fresh r s).1).labels.Possible := by
  rw [Exchange.labels, handle]
  cases hroute : route? r.path with
  | none => exact .unmatched r.method
  | some found =>
      obtain ⟨route, values⟩ := found
      have hmem := (route?_eq_some hroute).1
      simp only [dispatch]
      cases hmethod : route.endpoint? r.method with
      | none => exact .refused hmem hmethod
      | some e =>
          refine .answered hmem hmethod ?_
          have hstatus := perform_status svc e values r s
          simp only
          split
          · exact hstatus
          · exact hstatus

theorem possible_serve (requests : List (String × Request)) (s : ServiceState σ) :
    (serve svc requests s).1.map (·.request) = requests.map (·.2) ∧
      ∀ x ∈ (serve svc requests s).1, x.labels.Possible := by
  induction requests generalizing s with
  | nil => exact ⟨rfl, fun x hx => by cases hx⟩
  | cons request rest ih =>
      obtain ⟨fresh, r⟩ := request
      obtain ⟨hmap, hpossible⟩ := ih (handle svc fresh r s).2
      refine ⟨congrArg (r :: ·) hmap, fun x hx => ?_⟩
      rcases List.mem_cons.1 hx with rfl | hx
      · exact possible_handle svc fresh r s
      · exact hpossible x hx

/-- The labels under which some request has been counted. -/
def recorded (m : Metrics) : Set Labels :=
  {l | m.get l.series ≠ 0}

/-- The labels that a service counts some requests under, from its start on. -/
def recordedBy (storage : σ) (requests : List (String × Request)) : Set Labels :=
  recorded (serve svc requests ⟨storage, .empty⟩).2.metrics

theorem mem_recordedBy {storage : σ} {requests : List (String × Request)} {l : Labels} :
    l ∈ recordedBy svc storage requests ↔
      ∃ x ∈ (serve svc requests ⟨storage, .empty⟩).1, x.labels = l := by
  have hget : (serve svc requests ⟨storage, .empty⟩).2.metrics.get l.series =
      0 + (serve svc requests ⟨storage, .empty⟩).1.countP (·.series == l.series) :=
    (requests_serve svc requests ⟨storage, .empty⟩).2 l.series rfl
  rw [recordedBy, recorded, Set.mem_ofPred_eq, hget, Nat.zero_add, ← Nat.pos_iff_ne_zero,
    List.countP_pos_iff]
  simp only [beq_iff_eq, ← Exchange.series_labels, Labels.series_inj]

theorem possible_of_recordedBy {storage : σ} {requests : List (String × Request)} {l : Labels}
    (h : l ∈ recordedBy svc storage requests) : l.Possible := by
  obtain ⟨x, hx, rfl⟩ := (mem_recordedBy svc).1 h
  exact (possible_serve svc requests _).2 x hx

/-- The methods that are recorded are the methods that were sent. -/
theorem methods_recordedBy (storage : σ) (requests : List (String × Request)) :
    Labels.method '' recordedBy svc storage requests =
      {method | ∃ request ∈ requests, request.2.method = method} := by
  have hmap := (possible_serve svc requests ⟨storage, .empty⟩).1
  ext method
  constructor
  · rintro ⟨l, hl, rfl⟩
    obtain ⟨x, hx, rfl⟩ := (mem_recordedBy svc).1 hl
    have hmem : x.request ∈ requests.map (·.2) := hmap ▸ List.mem_map_of_mem hx
    obtain ⟨request, hrequest, heq⟩ := List.mem_map.1 hmem
    exact ⟨request, hrequest, congrArg Request.method heq⟩
  · rintro ⟨request, hrequest, rfl⟩
    have hmem := List.mem_map_of_mem (f := (·.2)) hrequest
    rw [← hmap] at hmem
    obtain ⟨x, hx, heq⟩ := List.mem_map.1 hmem
    exact ⟨x.labels, (mem_recordedBy svc).2 ⟨x, hx, rfl⟩, congrArg Request.method heq⟩

/-! ## What clients can send -/

/-- Requests that a client can send, with methods of its choice. -/
def AreSent (methods : Set String) (requests : List (String × Request)) : Prop :=
  ∀ request ∈ requests, request.2.method ∈ methods ∧
    ∃ target headers body, Request.ofParts? request.2.method target headers body = some request.2

theorem isToken_of_ofParts? {method target body : String} {headers : List (String × String)}
    {r : Request} (h : Request.ofParts? method target headers body = some r) :
    isToken method = true := by
  rw [Request.ofParts?] at h
  split at h
  · next hvalid => exact ((Bool.and_eq_true _ _).mp hvalid).1
  · cases h

/-- A request for a path that no route has. -/
def stray (method : String) : Request :=
  ⟨method, "/scan", [], ""⟩

theorem areSent_stray {methods : Set String} {method : String} (hmem : method ∈ methods)
    (htoken : isToken method = true) : AreSent methods [("", stray method)] := by
  intro request hrequest
  rw [List.mem_singleton.1 hrequest]
  refine ⟨hmem, "/scan", [], "", ?_⟩
  have hpath : Target.path? "/scan" = some "/scan" := by decide +kernel
  simp [Request.ofParts?, stray, htoken, hpath]

theorem infinite_tokens : {method : String | isToken method = true}.Infinite := by
  refine Set.infinite_of_injective_forall_mem
    (f := fun n : Nat => String.ofList (List.replicate (n + 1) 'A')) (fun m n h => ?_) fun n => ?_
  · have hlength := congrArg (fun s : String => s.toList.length) h
    simpa using hlength
  · simp [isToken, isTokenChar]

/-- The labels have a bound that holds whatever clients send if and only if there are only
so many methods for them to send. -/
theorem bounded_iff (storage : σ) (methods : Set String) :
    (∃ bound : Set Labels, bound.Finite ∧
      ∀ requests, AreSent methods requests → recordedBy svc storage requests ⊆ bound) ↔
    {method | method ∈ methods ∧ isToken method = true}.Finite := by
  constructor
  · rintro ⟨bound, hfinite, hbound⟩
    refine (hfinite.image Labels.method).subset fun method hmethod => ?_
    have hmem : method ∈ Labels.method '' recordedBy svc storage [("", stray method)] := by
      rw [methods_recordedBy]
      exact ⟨_, List.mem_cons_self, rfl⟩
    exact Set.image_mono (hbound _ (areSent_stray hmethod.1 hmethod.2)) hmem
  · intro hfinite
    let labels : String × String × Nat → Labels := fun l => ⟨l.1, l.2.1, l.2.2⟩
    refine ⟨_, (hfinite.prod (Labels.paths.finite_toSet.prod Labels.statuses.finite_toSet)).image
      labels, fun requests hsent l hl => ?_⟩
    have hmem := Set.mem_image_of_mem Labels.method hl
    rw [methods_recordedBy] at hmem
    obtain ⟨request, hrequest, heq⟩ := hmem
    obtain ⟨hmethod, target, headers, body, hparts⟩ := hsent request hrequest
    rw [heq] at hmethod hparts
    have hpossible := possible_of_recordedBy svc hl
    exact ⟨(l.method, l.path, l.status), ⟨⟨hmethod, isToken_of_ofParts? hparts⟩,
      hpossible.path_mem, hpossible.status_mem⟩, rfl⟩

/-- A request is counted under the template of its route, or under one label if there is none,
and under the status of its answer. Of these there are only so many, and methods that no
route answers end in a refusal. But each method that is sent is a label of its own, and a
method may be any token. So the labels are bounded exactly if the methods are, and clients
that send what they like get past any bound. -/
theorem request_labels_bounded_iff_methods (storage : σ) :
    (∀ requests,
      Labels.method '' recordedBy svc storage requests =
        {method | ∃ request ∈ requests, request.2.method = method} ∧
      ∀ l ∈ recordedBy svc storage requests, l.Possible ∧
        l.path ∈ Labels.paths ∧ l.status ∈ Labels.statuses ∧
        (l.method ∈ Labels.methods ∨ l.path = unmatchedPath ∧ l.status = 404 ∨ l.status = 405)) ∧
    (∀ methods : Set String,
      (∃ bound : Set Labels, bound.Finite ∧
        ∀ requests, AreSent methods requests → recordedBy svc storage requests ⊆ bound) ↔
      {method | method ∈ methods ∧ isToken method = true}.Finite) ∧
    ∀ bound : Set Labels, bound.Finite →
      ∃ requests, AreSent Set.univ requests ∧ ¬ recordedBy svc storage requests ⊆ bound := by
  refine ⟨fun requests => ⟨methods_recordedBy svc storage requests, fun l hl => ?_⟩,
    bounded_iff svc storage, fun bound hfinite => ?_⟩
  · have hpossible := possible_of_recordedBy svc hl
    exact ⟨hpossible, hpossible.path_mem, hpossible.status_mem, hpossible.method_mem⟩
  · by_contra hnone
    push Not at hnone
    have htokens := (bounded_iff svc storage Set.univ).1 ⟨bound, hfinite, hnone⟩
    simp only [Set.mem_univ, true_and] at htokens
    exact infinite_tokens htokens

/-- Two requests for paths that do not exist share the label of the path but not that of the
method; with these two methods only, the labels are bounded. -/
theorem request_labels_bounded_iff_methods_scan :
    let svc : Service Store := ⟨.memory, .lenient⟩
    let requests := [("1", stray "SCAN-A"), ("2", stray "SCAN-B")]
    (⟨"SCAN-A", "unmatched", 404⟩ ∈ recordedBy svc .empty requests ∧
      ⟨"SCAN-B", "unmatched", 404⟩ ∈ recordedBy svc .empty requests) ∧
    Labels.method '' recordedBy svc .empty requests =
      {method | ∃ request ∈ requests, request.2.method = method} ∧
    ∃ bound : Set Labels, bound.Finite ∧
      ∀ requests, AreSent {"SCAN-A", "SCAN-B"} requests →
        recordedBy svc .empty requests ⊆ bound := by
  intro svc requests
  obtain ⟨hrecorded, hbounded, -⟩ := request_labels_bounded_iff_methods svc .empty
  refine ⟨⟨?_, ?_⟩, (hrecorded requests).1, (hbounded _).2 ?_⟩
  · show (serve svc requests ⟨.empty, .empty⟩).2.metrics.get
      (.request "SCAN-A" "unmatched" 404) ≠ 0
    decide +kernel
  · show (serve svc requests ⟨.empty, .empty⟩).2.metrics.get
      (.request "SCAN-B" "unmatched" 404) ≠ 0
    decide +kernel
  · exact (Set.toFinite {"SCAN-A", "SCAN-B"}).subset fun _ h => h.1

end Criteria.Api
