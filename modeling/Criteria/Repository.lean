import Criteria.Failure
import Criteria.Store

/-!
Where a service keeps its rules. A repository is a record of operations on a state of any type; the
service knows no more of it. A rule owns its tree, so deleting a rule deletes the tree with it.
-/

namespace Criteria

structure Repository (σ : Type) where
  /-- Keeps a text and its tree, which may be empty, as a new rule. -/
  create : String → Tree → Action σ Rule
  /-- All rules in the order of their creation. -/
  listAll : Action σ (List Rule)
  contains : Int64 → Action σ Bool
  /-- Deletes a rule; false if there is none of that number. -/
  delete : Int64 → Action σ Bool
  /-- Fails if the place cannot be used. -/
  ping : Action σ Unit

namespace Repository

/-- The repository that keeps its rules in memory and never fails. -/
def memory : Repository Store where
  create text root s :=
    let (r, s) := s.create text root
    (.ok r, s)
  listAll s := (.ok s.toList, s)
  contains id s := (.ok (s.contains id), s)
  delete id s :=
    match s.delete id with
    | .ok s => (.ok true, s)
    | .error _ => (.ok false, s)
  ping s := (.ok (), s)

inductive Method where
  | create
  | listAll
  | contains
  | delete
  | ping
  deriving DecidableEq, Repr

/-- The repository with some operations failing without effect. -/
def refusing {σ : Type} (r : Repository σ) (refusal : Method → Option Failure) : Repository σ :=
  let guarded {α : Type} (m : Method) (act : Action σ α) : Action σ α := fun s =>
    match refusal m with
    | some f => (.error f, s)
    | none => act s
  { create := fun text root => guarded .create (r.create text root)
    listAll := guarded .listAll r.listAll
    contains := fun id => guarded .contains (r.contains id)
    delete := fun id => guarded .delete (r.delete id)
    ping := guarded .ping r.ping }

end Repository

end Criteria
