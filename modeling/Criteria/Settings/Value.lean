import Criteria.Number.Shortest
import Criteria.Text.Case

/-!
Settings as they are found in files and in the environment: values of a few types, in arrays by place
and in tables by name. Sources are laid over one another, the later one winning value by value. A
reader of a setting wants one type and takes a value of another where that has a natural reading.
-/

namespace Criteria.Settings

open Number Text

/-- A value of a setting, or values by place or by name. -/
inductive Value where
  /-- The value of a place that nothing was put in. -/
  | nil
  | bool (b : Bool)
  | integer (n : Int64)
  | float (x : Binary64)
  | text (s : String)
  | array (items : List Value)
  | table (entries : List (String × Value))
  deriving Repr, BEq, Inhabited

namespace Value

/-- The entries of a table; any other value has none. -/
def entries : Value → List (String × Value)
  | table es => es
  | _ => []

/-- The items of an array; any other value has none. -/
def items : Value → List Value
  | array vs => vs
  | _ => []

/-- Changes the value of a name; a name that is not there yet starts without one. -/
def update (name : String) (f : Value → Value) : List (String × Value) → List (String × Value)
  | [] => [(name, f nil)]
  | (k, v) :: rest => if k = name then (k, f v) :: rest else (k, v) :: update name f rest

mutual

/-- Lays a value over another one; tables are merged, anything else is replaced. -/
def layered : Value → Value → Value
  | table es, base => table (layeredEntries es base.entries)
  | v, _ => v

/-- Lays the entries of a table over those of another one. -/
def layeredEntries : List (String × Value) → List (String × Value) → List (String × Value)
  | [], base => base
  | (k, v) :: rest, base => layeredEntries rest (update k (layered v) base)

end

/-- The value as text; a number is written plainly. -/
def toText? : Value → Option String
  | bool b => some (toString b)
  | integer n => some (toString n.toInt)
  | float x => some x.text
  | text s => some s
  | _ => none

def wordToBool? (s : String) : Option Bool :=
  let w := String.ofList (lower s.toList)
  if ["true", "on", "yes"].contains w then some true
  else if ["false", "off", "no"].contains w then some false
  else none

def toBool? : Value → Option Bool
  | bool b => some b
  | integer n => some (n != 0)
  | float x => some (!x.isZero)
  | text s => if s = "1" then some true else if s = "0" then some false else wordToBool? s
  | _ => none

/-- The largest natural number that a setting can have. -/
def maxNatural : Nat := UInt64.size - 1

/-- A double as a natural number: rounded, and brought into range. -/
def naturalOf (x : Binary64) : Nat :=
  match x with
  | .nan => 0
  | .infinite negative => if negative then 0 else maxNatural
  | x => min ((x.nearestInt?.getD 0).toNat) maxNatural

def toNatBelow? (bound : Nat) (v : Value) : Option Nat :=
  let n : Option Nat :=
    match v with
    | bool b => some b.toNat
    | integer n => if n < 0 then none else some n.toInt.toNat
    | float x => some (naturalOf x)
    | text s =>
      match wordToBool? s with
      | some b => some b.toNat
      | none => readNatBelow? (maxNatural + 1) s.toList
    | _ => none
  n.filter (· < bound)

end Value

end Criteria.Settings
