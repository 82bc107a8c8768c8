import Criteria.Tree.Basic
import Criteria.Tree.Split

/-!
Reading a text of criteria as a tree. Reading never fails: a text without a connective is one
condition, with parts or without. `ofChars` states the grammar as a recursion on the two operands.
`parse` is what runs: it keeps the texts still to be read and the joins still to be made on a stack
of tasks and the finished trees on another, so that neither long chains nor deep parentheses recurse.
-/

namespace Criteria.Tree

open Split Text

def ofChars (s : List Char) : Tree :=
  match _h : operands? (body s) with
  | some o => branch o.connective (ofChars o.left) (ofChars o.right)
  | none => ofCondition (String.ofList (trim (body s)))
termination_by s.length
decreasing_by
  all_goals
    have := operands?_body_length _h
    omega

inductive Task where
  /-- Read a text and put its tree on the stack of finished trees. -/
  | read (s : List Char)
  /-- Replace the two trees on top of that stack, the right one uppermost, by their branch. -/
  | join (connective : Connective)

/-- A bound on the number of steps that a task takes. -/
def Task.steps : Task → Nat
  | read s => 2 * s.length + 2
  | join _ => 1

/-- A bound on the number of steps that a stack of tasks takes. -/
def totalSteps (tasks : List Task) : Nat :=
  tasks.foldr (·.steps + ·) 0

/-- The tree on top of a stack and the rest of it; the empty tree if there is none. -/
def popTree : List Tree → Tree × List Tree
  | [] => (empty, [])
  | t :: rest => (t, rest)

/-- Works off the tasks and returns the stack of finished trees. -/
def runTasks (tasks : List Task) (finished : List Tree) : List Tree :=
  match tasks with
  | [] => finished
  | .read s :: tasks =>
    match _h : operands? (body s) with
    | some o => runTasks (.read o.left :: .read o.right :: .join o.connective :: tasks) finished
    | none => runTasks tasks (ofCondition (String.ofList (trim (body s))) :: finished)
  | .join connective :: tasks =>
    let (right, finished) := popTree finished
    let (left, finished) := popTree finished
    runTasks tasks (branch connective left right :: finished)
termination_by totalSteps tasks
decreasing_by
  · have := operands?_body_length _h
    simp only [totalSteps, List.foldr_cons, Task.steps]
    omega
  · simp [totalSteps, Task.steps]
  · simp [totalSteps, Task.steps]

def parse (text : String) : Tree :=
  (runTasks [.read text.toList] []).headD (ofCondition "")

end Criteria.Tree
