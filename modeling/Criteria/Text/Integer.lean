/-!
Integers as decimal text. A reader takes the whole text or nothing: an optional sign, then at
least one digit and no other character, and a value within the range of the wanted type.
-/

namespace Criteria.Text

def digitValue? (c : Char) : Option Nat :=
  if '0' ≤ c ∧ c ≤ '9' then some (c.toNat - '0'.toNat) else none

def pushDigit (n : Option Nat) (c : Char) : Option Nat := do
  return 10 * (← n) + (← digitValue? c)

/-- The number that a text of decimal digits denotes; `none` if it has another character or none. -/
def readDigits? (s : List Char) : Option Nat :=
  if s.isEmpty then none else s.foldl pushDigit (some 0)

/-- A sign, or none for plus, and what follows it. -/
def takeSign : List Char → Bool × List Char
  | '-' :: s => (true, s)
  | '+' :: s => (false, s)
  | s => (false, s)

def readInt? (s : List Char) : Option Int :=
  let (negative, digits) := takeSign s
  (readDigits? digits).map fun n => if negative then -(n : Int) else n

def toInt64? (n : Int) : Option Int64 :=
  if Int64.minValue.toInt ≤ n ∧ n ≤ Int64.maxValue.toInt then some (Int64.ofInt n) else none

def readInt64? (s : List Char) : Option Int64 :=
  (readInt? s).bind toInt64?

/-- The natural number below `bound` that a text denotes; it may have a plus sign but no minus. -/
def readNatBelow? (bound : Nat) (s : List Char) : Option Nat :=
  match s with
  | '-' :: _ => none
  | _ => (readDigits? (takeSign s).2).filter (· < bound)

theorem toInt64?_eq_some {n : Int} {i : Int64} (h : toInt64? n = some i) : i.toInt = n := by
  unfold toInt64? at h
  rw [Int64.toInt_minValue, Int64.toInt_maxValue] at h
  split at h
  · simp only [Option.some.injEq] at h
    subst h
    exact Int64.toInt_ofInt_of_le (by omega) (by omega)
  · simp at h

theorem toInt64?_toInt (i : Int64) : toInt64? i.toInt = some i := by
  have := i.le_toInt
  have := i.toInt_lt
  unfold toInt64?
  rw [Int64.toInt_minValue, Int64.toInt_maxValue, if_pos (by omega)]
  simp

end Criteria.Text
