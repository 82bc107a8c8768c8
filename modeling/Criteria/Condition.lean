import Criteria.Comparator
import Criteria.Text.Blank

/-!
Conditions, the leaves of a tree of criteria. A condition keeps its text as it was written and the
three parts that the text falls into: a field, a comparison and a target. A text of any other
number of words has no parts, and such a condition never holds.
-/

namespace Criteria

/-- A condition: its text and, each on its own present or absent, its three parts. -/
structure Condition where
  value : String
  field : Option String
  comparison : Option String
  target : Option String
  deriving DecidableEq, Repr, Inhabited

namespace Condition

def formless (value : String) : Condition :=
  ⟨value, none, none, none⟩

/-- The condition that a text writes: its words are the parts if there are exactly three. -/
def ofText (value : String) : Condition :=
  match Text.words value.toList with
  | [field, comparison, target] =>
    ⟨value, some (String.ofList field), some (String.ofList comparison), some (String.ofList target)⟩
  | _ => formless value

def isMalformed (c : Condition) : Bool :=
  c.field.isNone || c.comparison.isNone || c.target.isNone

/-- The comparator, if the comparison is one of the six symbols. -/
def comparator? (c : Condition) : Option Comparator :=
  c.comparison.bind Comparator.ofSymbol?

end Condition

end Criteria
