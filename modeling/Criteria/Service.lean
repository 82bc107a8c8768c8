import Criteria.Metrics
import Criteria.Repository
import Criteria.Rule.Combination
import Criteria.Tree.Strict

/-!
The rule service. It reads texts in its mode, refuses trees that are too deep, keeps rules in a
repository and counts what it does. A text is refused before the repository hears of it, so a refused
request changes nothing but the counters.
-/

namespace Criteria

/-- A service: where its rules are kept and how it reads texts. -/
structure Service (σ : Type) where
  repository : Repository σ
  mode : Mode

structure ServiceState (σ : Type) where
  storage : σ
  metrics : Metrics

/-- The greatest depth of a tree that is read from one text. -/
def maxDepth : Nat := 512

namespace Service

variable {σ : Type}

def tooDeep (depth : Nat) : Failure :=
  .validation ("规则嵌套过深: " ++ toString depth ++ " 层，最多 " ++ toString maxDepth ++ " 层")

def read (svc : Service σ) (text : String) : Except Failure Tree :=
  match svc.mode.parse text with
  | .error fault => .error (.unreadable fault.message)
  | .ok root => if maxDepth < root.depth then .error (tooDeep root.depth) else .ok root

/-- Reads some texts, up to the first one that is refused. -/
def readAll (svc : Service σ) : List String → Except Failure (List Tree)
  | [] => .ok []
  | text :: rest =>
    match svc.read text with
    | .error f => .error f
    | .ok root =>
      match svc.readAll rest with
      | .error f => .error f
      | .ok roots => .ok (root :: roots)

def counted (s : ServiceState σ) (m : Mutation) (r : MutationResult) : ServiceState σ :=
  { s with metrics := s.metrics.count (.mutation m r) }

/-- Has the repository keep a rule and counts what became of it. -/
def keep (svc : Service σ) (m : Mutation) (text : String) (root : Tree) :
    Action (ServiceState σ) Rule := fun s =>
  let (result, storage) := svc.repository.create text root s.storage
  let s := { s with storage := storage }
  match result with
  | .ok r => (.ok r, counted s m .success)
  | .error f => (.error f, counted s m .error)

def create (svc : Service σ) (text : String) : Action (ServiceState σ) Rule := fun s =>
  match svc.read text with
  | .error f => (.error f, counted s .create .rejected)
  | .ok root => svc.keep .create text root s

/-- Keeps the rule that matches when one of the texts does; no texts make a rule without a tree. -/
def combine (svc : Service σ) (texts : List String) : Action (ServiceState σ) Rule := fun s =>
  match svc.readAll texts with
  | .error f => (.error f, counted s .combine .rejected)
  | .ok roots => svc.keep .combine (Rule.joinTexts texts) (Tree.orChain roots) s

def list (svc : Service σ) : Action (ServiceState σ) (List Rule) := fun s =>
  let (result, storage) := svc.repository.listAll s.storage
  (result, { s with storage := storage })

/-- Deletes a rule, which must exist. -/
def delete (svc : Service σ) (id : Int64) : Action (ServiceState σ) Unit := fun s =>
  let (result, storage) := svc.repository.delete id s.storage
  let s := { s with storage := storage }
  match result with
  | .ok true => (.ok (), counted s .delete .success)
  | .ok false => (.error (.ruleNotFound id), counted s .delete .notFound)
  | .error f => (.error f, counted s .delete .error)

/-- Decides all rules on a context by their first match. -/
def evaluate (svc : Service σ) (ctx : Context) : Action (ServiceState σ) Outcome := fun s =>
  match svc.list s with
  | (.error f, s) => (.error f, s)
  | (.ok rules, s) =>
    let o := Rule.firstMatch rules ctx
    (.ok o, { s with metrics := s.metrics.countEvaluation o.isMatch o.evaluated })

def ping (svc : Service σ) : Action (ServiceState σ) Unit := fun s =>
  let (result, storage) := svc.repository.ping s.storage
  (result, { s with storage := storage })

end Service

end Criteria
