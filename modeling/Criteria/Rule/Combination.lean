import Criteria.Rule.Basic
import Criteria.Tree.Parse

/-!
Two ways of combining rules, of different shapes: a chain of `or` branches that leans to the right, and
a flat group under `and`.
-/

namespace Criteria

namespace Tree

/-- The chain that holds if one of the trees does; no trees make the empty tree and one tree stays as
it is. -/
def orChain : List Tree → Tree
  | [] => empty
  | [t] => t
  | t :: rest => branch .or t (orChain rest)

end Tree

/-- Trees side by side under one connective. -/
structure Group where
  connective : Connective
  children : List Tree
  deriving DecidableEq, Repr

namespace Rule

def joinTexts (texts : List String) : String :=
  " OR ".intercalate texts

/-- The text and the tree of the rule that combines the rules of some texts. -/
def combineTexts (texts : List String) : String × Tree :=
  (joinTexts texts, Tree.orChain (texts.map Tree.parse))

/-- The trees of some rules as one group; rules without a tree are left out, and without rules there is
no group. -/
def group? (rules : List Rule) : Option Group :=
  if rules.isEmpty then none
  else some ⟨.and, (rules.map (·.root)).filter (!·.isEmpty)⟩

end Rule

end Criteria
