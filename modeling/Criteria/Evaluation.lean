import Criteria.Context
import Criteria.Tree.Basic

/-!
Deciding trees of criteria on a context. Nothing fails here: a condition that is malformed, names an
unknown field, finds no value of the field's type or has a target that cannot be read does not
hold. `Tree.meaning` says by recursion what a tree means; `Tree.evaluate` computes it with explicit
stacks, deciding both operands of every connective.
-/

namespace Criteria

open Number Text

namespace FieldValue

def unquote (s : List Char) : List Char :=
  s.filter fun c => c != '\'' && c != '"'

/-- Whether a target writes the same text as a value, letter case and quotation marks aside. -/
def sameText (actual target : String) : Bool :=
  lower actual.toList == lower (unquote target.toList)

/-- Whether a comparator holds between a value and a target. Numbers are compared as doubles, after the
target has been read as a number of the value's kind; texts know only equality. -/
def compare (actual : FieldValue) (target : String) (c : Comparator) : Bool :=
  match actual with
  | integer n =>
    match readInt64? target.toList with
    | some m => c.compareNumbers (Binary64.ofInt64 n) (Binary64.ofInt64 m)
    | none => false
  | float x =>
    match readBinary64? target.toList with
    | some y => c.compareNumbers x y
    | none => false
  | text s =>
    match c with
    | .eq => sameText s target
    | .ne => !sameText s target
    | _ => false

end FieldValue

namespace Condition

def holds (c : Condition) (ctx : Context) : Bool :=
  match c.field, c.target with
  | some field, some target =>
    match ctx.resolve field, c.comparator? with
    | some actual, some comparator => actual.compare target comparator
    | _, _ => false
  | _, _ => false

end Condition

namespace Tree

/-- What a tree means on a context; the empty tree does not hold. -/
def meaning (ctx : Context) : Tree → Bool
  | empty => false
  | leaf c => c.holds ctx
  | branch c left right => c.apply (left.meaning ctx) (right.meaning ctx)

inductive Step where
  /-- Decide a subtree and put its value on the stack of values. -/
  | visit (t : Tree)
  /-- Replace the two values on top of that stack, the right one uppermost, by what they combine to. -/
  | combine (connective : Connective)

def Step.count : Step → Nat
  | visit t => 2 * t.weight
  | combine _ => 1

/-- A bound on the number of steps that a stack of steps takes. -/
def stepCount (steps : List Step) : Nat :=
  steps.foldr (·.count + ·) 0

/-- The value on top of a stack and the rest of it; false if there is none. -/
def popValue : List Bool → Bool × List Bool
  | [] => (false, [])
  | v :: rest => (v, rest)

/-- Works off the steps and returns the stack of values. -/
def runSteps (ctx : Context) (steps : List Step) (values : List Bool) : List Bool :=
  match steps with
  | [] => values
  | .visit empty :: steps => runSteps ctx steps (false :: values)
  | .visit (leaf c) :: steps => runSteps ctx steps (c.holds ctx :: values)
  | .visit (branch c left right) :: steps =>
    runSteps ctx (.visit left :: .visit right :: .combine c :: steps) values
  | .combine c :: steps =>
    let (right, values) := popValue values
    let (left, values) := popValue values
    runSteps ctx steps (c.apply left right :: values)
termination_by stepCount steps
decreasing_by
  all_goals
    simp only [stepCount, List.foldr_cons, Step.count, weight]
    omega

def evaluate (t : Tree) (ctx : Context) : Bool :=
  (popValue (runSteps ctx [.visit t] [])).1

end Tree

end Criteria
