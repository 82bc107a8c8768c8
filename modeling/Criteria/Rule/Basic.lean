import Criteria.Evaluation

/-!
Rules and lists of rules. A rule is a numbered tree of criteria with the text it was read from. A list
of rules is decided by its first match.
-/

namespace Criteria

/-- A numbered rule; one without a tree has the empty tree. -/
structure Rule where
  id : Int64
  text : String
  root : Tree
  deriving DecidableEq, Repr, Inhabited

namespace Rule

/-- Whether a rule matches a context. A rule without a tree matches none. -/
def evaluate (r : Rule) (ctx : Context) : Bool :=
  !r.root.isEmpty && r.root.evaluate ctx

end Rule

/-- How a list of rules was decided: the first match, if any, and how many rules were looked at. -/
structure Outcome where
  matchedId : Option Int64
  evaluated : Nat
  deriving DecidableEq, Repr

namespace Outcome

def isMatch (o : Outcome) : Bool :=
  o.matchedId.isSome

end Outcome

namespace Rule

/-- Looks for the first match, `seen` rules having been looked at before. -/
def firstMatchFrom (ctx : Context) (seen : Nat) : List Rule → Outcome
  | [] => ⟨none, seen⟩
  | r :: rest => if r.evaluate ctx then ⟨some r.id, seen + 1⟩ else firstMatchFrom ctx (seen + 1) rest

/-- Decides a list of rules: the first one that matches ends the search. -/
def firstMatch (rules : List Rule) (ctx : Context) : Outcome :=
  firstMatchFrom ctx 0 rules

def anyMatch (rules : List Rule) (ctx : Context) : Bool :=
  (firstMatch rules ctx).isMatch

end Rule

end Criteria
