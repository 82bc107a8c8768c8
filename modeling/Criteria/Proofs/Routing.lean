import Criteria.Api.App

/-!
# Where requests go

A request is answered by an endpoint if its path has the endpoint's template and
its method is the endpoint's, or asks for the head of what `GET` would get
(`asked_for`). The templates are few and mostly without parameters, so from the
endpoint one can tell the path: a path that matches is made of the segments of its
template (`segmentsOf?_eq_some`, `matchSegments_literal_append`).

A request that no endpoint answers is refused, and everything else about an
answer, the head apart, is the endpoint's (`handle_cases`).
-/

namespace Criteria

namespace Http.Template

theorem segmentsOf?_eq_some {path : String} {segments : List String}
    (h : segmentsOf? path = some segments) : path = "/" ++ "/".intercalate segments := by
  rw [segmentsOf?] at h
  split at h
  · next rest hpath =>
      cases h
      rw [← String.toList_inj, hpath]
      have hsplit : ['/'].intercalate (rest.splitOn '/') = rest := List.intercalate_splitOn '/'
      simp [String.toList_intercalate, Function.comp_def, hsplit]
  · cases h

/-- Literal segments match themselves and leave the rest of a path to the rest of
the template. -/
theorem matchSegments_literal_append {texts path : List String} {more : List Segment}
    {values : List String}
    (h : matchSegments (texts.map .literal ++ more) path = some values) :
    ∃ rest, path = texts ++ rest ∧ matchSegments more rest = some values := by
  induction texts generalizing path with
  | nil => exact ⟨path, rfl, h⟩
  | cons text texts ih =>
      rw [List.map_cons, List.cons_append] at h
      cases path with
      | nil => cases h
      | cons p path =>
          rw [matchSegments] at h
          split at h
          · next heq =>
              obtain ⟨rest, rfl, hrest⟩ := ih h
              exact ⟨rest, by rw [heq]; rfl, hrest⟩
          · cases h

theorem match?_eq_some {t : Template} {path : String} {values : List String}
    (h : t.match? path = some values) : ∃ segments,
      path = "/" ++ "/".intercalate segments ∧ matchSegments t.segments segments = some values := by
  obtain ⟨segments, hsegments, hmatch⟩ := Option.bind_eq_some_iff.1 h
  exact ⟨segments, segmentsOf?_eq_some hsegments, hmatch⟩

end Http.Template

namespace Api

open Http

theorem plainPath_match? {texts : List String} {path : String} {values : List String}
    (h : (plainPath texts).match? path = some values) : path = "/" ++ "/".intercalate texts := by
  obtain ⟨segments, rfl, hmatch⟩ := Template.match?_eq_some h
  have hmatch : Template.matchSegments (texts.map .literal ++ []) segments = some values := by
    rw [List.append_nil]
    exact hmatch
  obtain ⟨rest, rfl, hrest⟩ := Template.matchSegments_literal_append hmatch
  cases rest with
  | nil => rw [List.append_nil]
  | cons p rest => cases hrest

namespace Endpoint

/-- The method of the requests that an endpoint is for. -/
def method : Endpoint → String
  | createRule | combineRules | evaluateRules => "POST"
  | deleteRule => "DELETE"
  | listRules | health | readiness => "GET"

def template : Endpoint → Template
  | createRule | listRules => plainPath ["api", "rules"]
  | combineRules => plainPath ["api", "rules", "combine"]
  | evaluateRules => plainPath ["api", "rules", "evaluate"]
  | deleteRule => ⟨["api", "rules", "rules"].map .literal ++ [.parameter "id"]⟩
  | health => plainPath ["health"]
  | readiness => plainPath ["ready"]

end Endpoint

theorem routes_consistent :
    ∀ route ∈ routes, ∀ m ∈ route.methods, m.2.method = m.1 ∧ m.2.template = route.template := by
  decide

theorem Route.endpoint?_eq_some {route : Route} {method : String} {e : Endpoint}
    (h : route.endpoint? method = some e) :
    ∃ m, (m, e) ∈ route.methods ∧ (method = m ∨ method = "HEAD" ∧ m = "GET") := by
  have hmem : ∀ {m}, route.methods.lookup m = some e → (m, e) ∈ route.methods := by
    intro m hm
    obtain ⟨before, after, heq, -⟩ := List.lookup_eq_some_iff.1 hm
    rw [heq]
    exact List.mem_append_right _ List.mem_cons_self
  rw [Route.endpoint?] at h
  split at h
  · next found hfound =>
      cases h
      exact ⟨method, hmem hfound, Or.inl rfl⟩
  · split at h
    · next hhead => exact ⟨"GET", hmem h, Or.inr ⟨hhead, rfl⟩⟩
    · cases h

theorem route?_eq_some {path : String} {route : Route} {values : List String}
    (h : route? path = some (route, values)) :
    route ∈ routes ∧ route.template.match? path = some values := by
  obtain ⟨found, hfound, hmatch⟩ := List.exists_of_findSome?_eq_some h
  obtain ⟨values', hvalues, heq⟩ := Option.map_eq_some_iff.1 hmatch
  cases heq
  exact ⟨hfound, hvalues⟩

/-- What is known of a request from the endpoint that answers it. -/
theorem asked_for {r : Request} {route : Route} {values : List String} {e : Endpoint}
    (hroute : route? r.path = some (route, values)) (he : route.endpoint? r.method = some e) :
    (e.template.match? r.path = some values) ∧
      (r.method = e.method ∨ r.method = "HEAD" ∧ e.method = "GET") := by
  obtain ⟨hmem, hvalues⟩ := route?_eq_some hroute
  obtain ⟨m, hm, hmethod⟩ := Route.endpoint?_eq_some he
  obtain ⟨hm, htemplate⟩ := routes_consistent route hmem (m, e) hm
  obtain rfl : e.method = m := hm
  rw [show e.template = route.template from htemplate]
  exact ⟨hvalues, hmethod⟩

theorem deleteRule_match? {path : String} {values : List String}
    (h : Endpoint.deleteRule.template.match? path = some values) :
    ∃ segment, values = [segment] ∧ path = "/api/rules/rules/" ++ segment := by
  obtain ⟨segments, rfl, hmatch⟩ := Template.match?_eq_some h
  obtain ⟨rest, rfl, hrest⟩ := Template.matchSegments_literal_append hmatch
  match rest with
  | [] => cases hrest
  | [segment] =>
      refine ⟨segment, ?_, ?_⟩
      · rw [Template.matchSegments] at hrest
        split at hrest
        · cases hrest
        · exact (Option.some.inj hrest).symm
      · rw [← String.toList_inj]
        simp
  | first :: second :: more => cases hrest

variable {σ : Type}

/-- A request is refused without effect, or an endpoint answers it. -/
theorem handle_cases (svc : Service σ) (fresh : String) (r : Request) (s : ServiceState σ) :
    (400 ≤ (handle svc fresh r s).1.status ∧ (handle svc fresh r s).2.storage = s.storage) ∨
    ∃ route values e, route? r.path = some (route, values) ∧ route.endpoint? r.method = some e ∧
      (handle svc fresh r s).1.status = (perform svc e values r s).1.status ∧
      (r.method ≠ "HEAD" → (handle svc fresh r s).1.body = (perform svc e values r s).1.body) ∧
      (handle svc fresh r s).2.storage = (perform svc e values r s).2.storage := by
  rw [handle]
  cases hroute : route? r.path with
  | none => exact Or.inl ⟨Nat.le_add_right 400 4, rfl⟩
  | some found =>
      obtain ⟨route, values⟩ := found
      simp only [dispatch]
      cases he : route.endpoint? r.method with
      | none => exact Or.inl ⟨Nat.le_add_right 400 5, rfl⟩
      | some e =>
          refine Or.inr ⟨route, values, e, rfl, he, ?_, fun hhead => ?_, rfl⟩
          · simp only
            split <;> rfl
          · simp only [if_neg hhead]
            rfl

end Api

end Criteria
