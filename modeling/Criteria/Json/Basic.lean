import Criteria.Number.Shortest

/-!
JSON values. Numbers keep the digits they were written with and an object keeps its members in
order, so that a value can be written out again; which members may repeat is a matter of whoever
reads the value. `canonical` is the form of a value in which nothing depends on spelling any more.
-/

namespace Criteria

open Number

inductive Json where
  | null
  | bool (b : Bool)
  | number (n : Numeral)
  | text (s : String)
  | array (items : List Json)
  | object (members : List (String × Json))
  deriving Repr, BEq, Inhabited

namespace Json

def ofNat (n : Nat) : Json :=
  number ⟨false, Nat.toDigits 10 n, [], none⟩

def ofInt (n : Int) : Json :=
  number ⟨n < 0, Nat.toDigits 10 n.natAbs, [], none⟩

def ofInt64 (n : Int64) : Json :=
  ofInt n.toInt

/-- A value that may be absent; its absence is `null`. -/
def ofOption {α : Type} (f : α → Json) : Option α → Json
  | none => null
  | some a => f a

/-- The value of a key; of repeated members the last one counts. -/
def field? (key : String) : Json → Option Json
  | object members => (members.reverse.find? (·.1 == key)).map (·.2)
  | _ => none

mutual

/-- How many arrays and objects stand inside one another at the deepest place. -/
def nesting : Json → Nat
  | array items => nestingItems items + 1
  | object members => nestingMembers members + 1
  | _ => 0

def nestingItems : List Json → Nat
  | [] => 0
  | j :: rest => max (nesting j) (nestingItems rest)

def nestingMembers : List (String × Json) → Nat
  | [] => 0
  | (_, j) :: rest => max (nesting j) (nestingMembers rest)

end

/-- Drops every member whose key comes again later. -/
def lastOfEach (members : List (String × Json)) : List (String × Json) :=
  members.foldr (fun m rest => if rest.any (·.1 == m.1) then rest else m :: rest) []

/-- The spelling of the number that a numeral stands for: whole numbers that fit 64 bits as they
are, every other one as the shortest decimal of its double. -/
def canonicalNumeral (n : Numeral) : Numeral :=
  if n.toInt64?.isSome || (n.isWhole && !n.negative && Numeral.value n.whole < UInt64.size) then n
  else (n.scaled?.bind Binary64.numeral?).getD n

mutual

/-- The value with each key once, the last member counting, and numbers in their shortest form. -/
def canonical : Json → Json
  | number n => number (canonicalNumeral n)
  | array items => array (canonicalItems items)
  | object members => object (lastOfEach (canonicalMembers members))
  | j => j

def canonicalItems : List Json → List Json
  | [] => []
  | j :: rest => canonical j :: canonicalItems rest

def canonicalMembers : List (String × Json) → List (String × Json)
  | [] => []
  | (k, j) :: rest => (k, canonical j) :: canonicalMembers rest

end

end Json

end Criteria
