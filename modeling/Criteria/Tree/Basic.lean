import Criteria.Condition
import Criteria.Connective

/-!
Trees of criteria. A leaf is a condition and a branch joins two subtrees by a connective. A branch
may lack a child on either side and a rule may lack its tree, so the empty tree is a tree; it never
holds. Measures of a tree count its nodes, of which the empty tree has none.
-/

namespace Criteria

inductive Tree where
  | empty
  | leaf (condition : Condition)
  | branch (connective : Connective) (left right : Tree)
  deriving DecidableEq, Repr, Inhabited

namespace Tree

def ofCondition (text : String) : Tree :=
  leaf (Condition.ofText text)

def isEmpty : Tree → Bool
  | empty => true
  | _ => false

/-- The children that are present, from left to right. -/
def children : Tree → List Tree
  | branch _ left right => [left, right].filter (!·.isEmpty)
  | _ => []

/-- Whether a tree has no children; a branch that lacks both is a leaf in this sense. -/
def isLeaf (t : Tree) : Bool :=
  t.children.isEmpty

def condition? : Tree → Option Condition
  | leaf c => some c
  | _ => none

def size : Tree → Nat
  | empty => 0
  | leaf _ => 1
  | branch _ left right => left.size + right.size + 1

/-- The number of nodes on the longest way down. -/
def height : Tree → Nat
  | empty => 0
  | leaf _ => 1
  | branch _ left right => max left.height right.height + 1

/-- The nodes as subtrees: each before its left subtree, and that before its right one. -/
def preorder : Tree → List Tree
  | empty => []
  | leaf c => [leaf c]
  | branch c left right => branch c left right :: (left.preorder ++ right.preorder)

def conditions : Tree → List Condition
  | empty => []
  | leaf c => [c]
  | branch _ left right => left.conditions ++ right.conditions

/-- The size of a tree with its empty places counted in, so that no tree weighs nothing. -/
def weight : Tree → Nat
  | empty => 1
  | leaf _ => 1
  | branch _ left right => left.weight + right.weight + 1

end Tree

end Criteria
