import Criteria.Proofs.Chronicle
import Criteria.Service

/-!
# A service that keeps its rules in memory

What a call of the service does to the rules can be told from its answer, as it
can be for a call of the store: a rule that is returned was created, a delete
that succeeds has deleted, and anything else, a refused text above all, has
changed nothing (`Service.Call.run_becomes`). So the rules of a service in memory
are those of a store that has seen the same changes, whatever mode the texts are
read in and whatever was counted.
-/

namespace Criteria.Service

/-- A call of a service and the type of its answer. -/
inductive Call : Type → Type where
  | create (text : String) : Call Rule
  | combine (texts : List String) : Call Rule
  | delete (id : Int64) : Call Unit
  | evaluate (ctx : Context) : Call Outcome
  | list : Call (List Rule)
  | ping : Call Unit

/-- The change that is told by an answer with a new rule. -/
def createdBy : Except Failure Rule → List Change
  | .ok r => [.created r]
  | .error _ => []

/-- The change that is told by the answer to a delete. -/
def deletedBy (id : Int64) : Except Failure Unit → List Change
  | .ok () => [.deleted id]
  | .error _ => []

namespace Call

def run {σ α : Type} (svc : Service σ) : Call α → Action (ServiceState σ) α
  | create text => svc.create text
  | combine texts => svc.combine texts
  | delete id => svc.delete id
  | evaluate ctx => svc.evaluate ctx
  | list => svc.list
  | ping => svc.ping

/-- What a call has changed, going by its answer. -/
def changes {α : Type} : Call α → Except Failure α → List Change
  | create _, answer => createdBy answer
  | combine _, answer => createdBy answer
  | delete id, answer => deletedBy id answer
  | _, _ => []

/-- The number that a call asks to delete. -/
def deletes? {α : Type} : Call α → Option Int64
  | delete id => some id
  | _ => none

theorem deletes_of_mem_changes {α : Type} {c : Call α} {a : Except Failure α} {id : Int64}
    (h : Change.deleted id ∈ c.changes a) : c.deletes? = some id := by
  cases c <;> cases a <;> simp_all [changes, createdBy, deletedBy, deletes?]

end Call

/-- What has changed by some calls, and the state after them. -/
def runAll {σ : Type} (svc : Service σ) :
    List ((α : Type) × Call α) → ServiceState σ → List Change × ServiceState σ
  | [], s => ([], s)
  | ⟨_, c⟩ :: rest, s =>
    let (answer, s) := c.run svc s
    let (more, s) := svc.runAll rest s
    (c.changes answer ++ more, s)

theorem runAll_deletes {σ : Type} {svc : Service σ} {calls : List ((α : Type) × Call α)}
    {s : ServiceState σ} {id : Int64} (h : Change.deleted id ∈ (svc.runAll calls s).1) :
    ∃ c ∈ calls, c.2.deletes? = some id := by
  induction calls generalizing s with
  | nil => cases h
  | cons call rest ih =>
      obtain ⟨α, c⟩ := call
      rcases List.mem_append.1 h with h | h
      · exact ⟨_, List.mem_cons_self, Call.deletes_of_mem_changes h⟩
      · obtain ⟨c', hc', hid⟩ := ih h
        exact ⟨c', List.mem_cons_of_mem _ hc', hid⟩

section Memory

variable {svc : Service Store} (hmemory : svc.repository = Repository.memory)
include hmemory

theorem keep_eq (m : Mutation) (text : String) (root : Tree) (s : ServiceState Store) :
    ∃ metrics, svc.keep m text root s =
      (.ok (s.storage.create text root).1, ⟨(s.storage.create text root).2, metrics⟩) := by
  simp only [keep, hmemory]
  exact ⟨_, rfl⟩

theorem evaluate_eq (ctx : Context) (s : ServiceState Store) :
    ∃ metrics, svc.evaluate ctx s =
      (.ok (Rule.firstMatch s.storage.rules ctx), ⟨s.storage, metrics⟩) := by
  rw [evaluate, list, hmemory]
  exact ⟨_, rfl⟩

theorem list_eq (s : ServiceState Store) : svc.list s = (.ok s.storage.rules, s) := by
  rw [list, hmemory]
  rfl

theorem create_becomes (text : String) (s : ServiceState Store) :
    s.storage.Becomes (createdBy (svc.create text s).1) (svc.create text s).2.storage := by
  rw [create]
  cases svc.read text with
  | error f => exact .same
  | ok root =>
      obtain ⟨metrics, heq⟩ := keep_eq hmemory .create text root s
      simp only [heq]
      exact .create text root

theorem combine_becomes (texts : List String) (s : ServiceState Store) :
    s.storage.Becomes (createdBy (svc.combine texts s).1) (svc.combine texts s).2.storage := by
  rw [combine]
  cases svc.readAll texts with
  | error f => exact .same
  | ok roots =>
      obtain ⟨metrics, heq⟩ :=
        keep_eq hmemory .combine (Rule.joinTexts texts) (Tree.orChain roots) s
      simp only [heq]
      exact .create (Rule.joinTexts texts) (Tree.orChain roots)

theorem delete_becomes (id : Int64) (s : ServiceState Store) :
    s.storage.Becomes (deletedBy id (svc.delete id s).1) (svc.delete id s).2.storage := by
  rw [delete, hmemory, Repository.memory]
  cases hdelete : s.storage.delete id with
  | ok s' =>
      simp only [hdelete]
      exact .delete hdelete
  | error e =>
      simp only [hdelete]
      exact .same

/-- A call makes the changes that its answer tells of and no others. -/
theorem Call.run_becomes {α : Type} (c : Call α) (s : ServiceState Store) :
    s.storage.Becomes (c.changes (c.run svc s).1) (c.run svc s).2.storage := by
  cases c with
  | create text => exact create_becomes hmemory text s
  | combine texts => exact combine_becomes hmemory texts s
  | delete id => exact delete_becomes hmemory id s
  | evaluate ctx =>
      obtain ⟨metrics, heq⟩ := evaluate_eq hmemory ctx s
      rw [run, heq]
      exact .same
  | list =>
      rw [run, list_eq hmemory]
      exact .same
  | ping =>
      rw [run, Service.ping, hmemory]
      exact .same

theorem runAll_reached (calls : List ((α : Type) × Call α)) {past : List Change}
    {s : ServiceState Store} (h : Store.Reached past s.storage) :
    Store.Reached (past ++ (svc.runAll calls s).1) (svc.runAll calls s).2.storage := by
  induction calls generalizing past s with
  | nil =>
      rw [runAll, List.append_nil]
      exact h
  | cons call rest ih =>
      obtain ⟨α, c⟩ := call
      have hrun := ih (h.step (c.run_becomes hmemory s))
      rw [List.append_assoc] at hrun
      exact hrun

end Memory

end Criteria.Service
