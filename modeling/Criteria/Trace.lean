import Criteria.Rule.Basic

/-!
Explained decisions. A traced run decides a rule as `Tree.evaluate` does and also notes, for each node
in the order in which nodes are decided, its path from the root and what became of it. The
conditions that hold are listed in any case, the lines of the trace only if asked for.
-/

namespace Criteria

structure Trace where
  ruleId : Int64
  isMatch : Bool
  /-- The conditions that hold, with their paths. -/
  matchedConditions : List String
  /-- One line for each node. -/
  lines : List String
  deriving DecidableEq, Repr

namespace Trace

/-- What has been noted so far, the latest first. -/
structure Notes where
  conditions : List String
  lines : List String
  deriving DecidableEq, Repr

def verdict (holds : Bool) : String :=
  if holds then "MATCHED" else "NOT_MATCHED"

/-- The remark on a condition without three parts. -/
def remark (c : Condition) : String :=
  if c.isMalformed then " (格式错误)" else ""

def conditionLine (path : String) (c : Condition) (holds : Bool) : String :=
  path ++ ": " ++ c.value ++ remark c ++ " => " ++ verdict holds

def branchLine (path : String) (c : Connective) (left right : Bool) : String :=
  path ++ ": " ++ c.word ++ " (" ++ toString left ++ ", " ++ toString right ++ ") => "
    ++ verdict (c.apply left right)

def rootlessLine : String := "root: 规则没有根节点"

def Notes.line (notes : Notes) (wanted : Bool) (line : String) : Notes :=
  if wanted then { notes with lines := line :: notes.lines } else notes

def Notes.condition (notes : Notes) (wanted : Bool) (path : String) (c : Condition) (holds : Bool) :
    Notes :=
  let notes := notes.line wanted (conditionLine path c holds)
  if holds then { notes with conditions := (path ++ ": " ++ c.value) :: notes.conditions } else notes

/-- What is still to be done, with the path of the node concerned. -/
inductive Step where
  | visit (t : Tree) (path : String)
  | combine (connective : Connective) (path : String)

def Step.count : Step → Nat
  | visit t _ => 2 * t.weight
  | combine _ _ => 1

/-- A bound on the number of steps that a stack of steps takes. -/
def stepCount (steps : List Step) : Nat :=
  steps.foldr (·.count + ·) 0

/-- Works off the steps and returns the stack of values and the notes. -/
def runSteps (ctx : Context) (wanted : Bool) (steps : List Step) (values : List Bool)
    (notes : Notes) : List Bool × Notes :=
  match steps with
  | [] => (values, notes)
  | .visit .empty _ :: steps => runSteps ctx wanted steps (false :: values) notes
  | .visit (.leaf c) path :: steps =>
    let holds := c.holds ctx
    runSteps ctx wanted steps (holds :: values) (notes.condition wanted path c holds)
  | .visit (.branch c left right) path :: steps =>
    runSteps ctx wanted
      (.visit left (path ++ ".left") :: .visit right (path ++ ".right") :: .combine c path :: steps)
      values notes
  | .combine c path :: steps =>
    let (right, values) := Tree.popValue values
    let (left, values) := Tree.popValue values
    runSteps ctx wanted steps (c.apply left right :: values)
      (notes.line wanted (branchLine path c left right))
termination_by stepCount steps
decreasing_by
  all_goals
    simp only [stepCount, List.foldr_cons, Step.count, Tree.weight]
    omega

/-- Decides a rule on a context; `wanted` says whether the lines of the trace are wanted. -/
def run (wanted : Bool) (r : Rule) (ctx : Context) : Trace :=
  if r.root.isEmpty then
    ⟨r.id, false, [], if wanted then [rootlessLine] else []⟩
  else
    let (values, notes) := runSteps ctx wanted [.visit r.root "root"] [] ⟨[], []⟩
    ⟨r.id, (Tree.popValue values).1, notes.conditions.reverse, notes.lines.reverse⟩

end Trace

end Criteria
