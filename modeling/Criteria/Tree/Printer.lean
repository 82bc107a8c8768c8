import Criteria.Tree.Basic
import Criteria.Text.Blank

/-!
The text of a tree. A branch is written as its children with the connective between them. The left child
stands in parentheses if it is a branch, because a text is split at its first connective; the right
child needs none. `isExpressible` says of which trees the text keeps everything: those whose
branches have both children and whose conditions are written in three plain words.
-/

namespace Criteria

namespace Connective

/-- The connective between two operands, with the blanks that set it off. -/
def delimiter (c : Connective) : List Char :=
  ' ' :: c.word.toList ++ [' ']

end Connective

namespace Condition

/-- Whether a text is one word without parentheses. -/
def isPlainWord (s : String) : Bool :=
  !s.isEmpty && s.toList.all fun c => !Text.isBlank c && c != '(' && c != ')'

/-- Whether a condition is its three parts with single blanks between them, where the parts are plain and
the target is not taken for a connective. -/
def isExpressible (c : Condition) : Bool :=
  match c.field, c.comparison, c.target with
  | some field, some comparison, some target =>
    c.value == field ++ " " ++ comparison ++ " " ++ target && c.comparator?.isSome
      && isPlainWord field && isPlainWord target && (Connective.ofWord? target).isNone
  | _, _, _ => false

end Condition

namespace Tree

def isBranch : Tree → Bool
  | branch _ _ _ => true
  | _ => false

/-- Whether the text of a tree writes the tree. -/
def isExpressible : Tree → Bool
  | empty => false
  | leaf c => c.isExpressible
  | branch _ left right => left.isExpressible && right.isExpressible

def parenthesize (needed : Bool) (s : List Char) : List Char :=
  if needed then '(' :: s ++ [')'] else s

def chars : Tree → List Char
  | empty => []
  | leaf c => c.value.toList
  | branch c left right => parenthesize left.isBranch left.chars ++ c.delimiter ++ right.chars

def render (t : Tree) : String :=
  String.ofList t.chars

end Tree

end Criteria
