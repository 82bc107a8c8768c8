/-!
Counters of what the service does. A series is a name with its labels; a series that was never counted
does not exist. Besides, the numbers of rules looked at in evaluations are summed up.
-/

namespace Criteria

inductive Mutation where
  | create
  | combine
  | delete
  deriving DecidableEq, Repr

inductive MutationResult where
  | success
  | rejected
  | notFound
  | error
  deriving DecidableEq, Repr

inductive Series where
  | request (method path : String) (status : Nat)
  | mutation (operation : Mutation) (result : MutationResult)
  | evaluation (matched : Bool)
  deriving DecidableEq, Repr

structure Metrics where
  counts : List (Series × Nat)
  /-- The numbers of rules looked at, in the order of the evaluations. -/
  rulesEvaluated : List Nat
  deriving DecidableEq, Repr

namespace Mutation

def label : Mutation → String
  | create => "create"
  | combine => "combine"
  | delete => "delete"

end Mutation

namespace MutationResult

def label : MutationResult → String
  | success => "success"
  | rejected => "rejected"
  | notFound => "not_found"
  | error => "error"

end MutationResult

namespace Series

def labelled (name : String) (labels : List (String × String)) : String :=
  name ++ "\x7b" ++ ",".intercalate (labels.map fun (k, v) => k ++ "=\"" ++ v ++ "\"") ++ "\x7d"

def text : Series → String
  | request method path status =>
    labelled "http_requests_total" [("method", method), ("path", path), ("status", toString status)]
  | mutation operation result =>
    labelled "rule_mutations_total" [("operation", operation.label), ("status", result.label)]
  | evaluation matched => labelled "rule_evaluations_total" [("matched", toString matched)]

end Series

namespace Metrics

def empty : Metrics := ⟨[], []⟩

def bump (s : Series) : List (Series × Nat) → List (Series × Nat)
  | [] => [(s, 1)]
  | (t, n) :: rest => if t = s then (t, n + 1) :: rest else (t, n) :: bump s rest

def count (m : Metrics) (s : Series) : Metrics :=
  { m with counts := bump s m.counts }

def get (m : Metrics) (s : Series) : Nat :=
  (m.counts.lookup s).getD 0

/-- Counts an evaluation that looked at `evaluated` rules. -/
def countEvaluation (m : Metrics) (matched : Bool) (evaluated : Nat) : Metrics :=
  { m.count (.evaluation matched) with rulesEvaluated := m.rulesEvaluated ++ [evaluated] }

def lines (m : Metrics) : List String :=
  let counted := m.counts.map fun (s, n) => s.text ++ " " ++ toString n
  let summed :=
    if m.rulesEvaluated.isEmpty then []
    else
      ["rule_evaluation_rules_evaluated_count " ++ toString m.rulesEvaluated.length,
        "rule_evaluation_rules_evaluated_sum " ++ toString (m.rulesEvaluated.foldl (· + ·) 0)]
  (counted ++ summed).mergeSort fun a b => a ≤ b

end Metrics

end Criteria
