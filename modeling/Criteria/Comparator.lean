import Criteria.Number.Binary64

/-!
The six comparators of a condition. A comparator holds of the way two values compare; values that
do not compare at all, because one is not a number, are different and nothing else.
-/

namespace Criteria

open Number

inductive Comparator where
  | gt
  | ge
  | lt
  | le
  | eq
  | ne
  deriving DecidableEq, Repr, Inhabited

namespace Comparator

def all : List Comparator := [gt, ge, lt, le, eq, ne]

def symbol : Comparator → String
  | gt => ">"
  | ge => ">="
  | lt => "<"
  | le => "<="
  | eq => "="
  | ne => "!="

def ofSymbol? (s : String) : Option Comparator :=
  all.find? (·.symbol == s)

/-- Whether the comparator holds of two values that compare as given. -/
def holds : Comparator → Option Ordering → Bool
  | gt, o => o == some .gt
  | ge, o => o == some .gt || o == some .eq
  | lt, o => o == some .lt
  | le, o => o == some .lt || o == some .eq
  | eq, o => o == some .eq
  | ne, o => o != some .eq

def compareNumbers (c : Comparator) (actual target : Binary64) : Bool :=
  c.holds (actual.compare? target)

theorem ofSymbol?_symbol (c : Comparator) : ofSymbol? c.symbol = some c := by
  cases c <;> decide

end Comparator

end Criteria
