import Criteria.Text.Case

/-!
The two connectives that join criteria.
-/

namespace Criteria

inductive Connective where
  | and
  | or
  deriving DecidableEq, Repr, Inhabited

namespace Connective

def word : Connective → String
  | and => "AND"
  | or => "OR"

/-- The connective that a word stands for, in capitals. -/
def ofWord? (s : String) : Option Connective :=
  if s = "AND" then some and
  else if s = "OR" then some or
  else none

/-- The connective that a word stands for, in capitals or small letters. -/
def ofAnyCase? (s : String) : Option Connective :=
  if Text.eqIgnoringAsciiCase s "AND" then some and
  else if Text.eqIgnoringAsciiCase s "OR" then some or
  else none

def apply : Connective → Bool → Bool → Bool
  | and, left, right => left && right
  | or, left, right => left || right

theorem ofWord?_word (c : Connective) : ofWord? c.word = some c := by
  cases c <;> decide

end Connective

end Criteria
