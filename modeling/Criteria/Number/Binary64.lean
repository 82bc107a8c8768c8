/-!
Double-precision numbers as exact values. Every finite double is a whole multiple of `2 ^ -1074`, so
it is kept as that multiple and a sign, and arithmetic on doubles is arithmetic on natural numbers
followed by one rounding. `round` is the only place where precision is lost: it takes an exact
quotient to the nearest double, and of two equally near ones to the even one.
-/

namespace Criteria.Number

/-- A double: not a number, an infinity, or `units` times `2 ^ -1074` with a sign. -/
inductive Binary64 where
  | nan
  | infinite (negative : Bool)
  | finite (negative : Bool) (units : Nat)
  deriving DecidableEq, Repr

namespace Binary64

/-- The number of units in one. -/
def one : Nat := 1 <<< 1074

/-- The magnitudes from here on, in units, are infinite. -/
def overflow : Nat := 1 <<< 2098

/-- The whole number nearest to `num / den`; a tie goes to the even one. -/
def roundDiv (num den : Nat) : Nat :=
  let q := num / den
  let twice := 2 * (num % den)
  if twice < den then q
  else if den < twice then q + 1
  else q + q % 2

/-- The distance, in units, between the doubles near a magnitude of `units`. -/
def spacing (units : Nat) : Nat :=
  1 <<< (units.log2 - 52)

/-- The double nearest to `num / den`, which must not have a zero denominator. -/
def round (negative : Bool) (num den : Nat) : Binary64 :=
  let scaled := num * one
  let step := spacing (scaled / den)
  let units := roundDiv scaled (den * step) * step
  if units < overflow then finite negative units else infinite negative

def ofInt (n : Int) : Binary64 :=
  round (n < 0) n.natAbs 1

def ofInt64 (n : Int64) : Binary64 :=
  ofInt n.toInt

/-- The value in units, with its sign. -/
def signed (negative : Bool) (units : Nat) : Int :=
  if negative then -(units : Int) else units

/-- The place of a double in the order of all doubles: the infinities stand at the ends and the two
zeros share one place. Not-a-number has no place. -/
def place? : Binary64 → Option (Int × Int)
  | nan => none
  | infinite negative => some (if negative then -1 else 1, 0)
  | finite negative units => some (0, signed negative units)

/-- How two doubles compare; `none` if one is not a number. -/
def compare? (a b : Binary64) : Option Ordering :=
  match a.place?, b.place? with
  | some x, some y => some ((compare x.1 y.1).then (compare x.2 y.2))
  | _, _ => none

def neg : Binary64 → Binary64
  | nan => nan
  | infinite negative => infinite (!negative)
  | finite negative units => finite (!negative) units

def mul : Binary64 → Binary64 → Binary64
  | nan, _ => nan
  | _, nan => nan
  | infinite s, infinite t => infinite (s != t)
  | infinite s, finite t u => if u = 0 then nan else infinite (s != t)
  | finite s u, infinite t => if u = 0 then nan else infinite (s != t)
  | finite s u, finite t v => round (s != t) (u * v) (one * one)

def div : Binary64 → Binary64 → Binary64
  | nan, _ => nan
  | _, nan => nan
  | infinite _, infinite _ => nan
  | infinite s, finite t _ => infinite (s != t)
  | finite s _, infinite t => finite (s != t) 0
  | finite s u, finite t v =>
    if v = 0 then (if u = 0 then nan else infinite (s != t)) else round (s != t) u v

/-- Whether the value is zero, of either sign. -/
def isZero (a : Binary64) : Bool :=
  match a with
  | finite _ units => units == 0
  | _ => false

/-- The integer nearest to a finite value; a half goes away from zero. -/
def nearestInt? : Binary64 → Option Int
  | finite negative units =>
    let n : Int := ((2 * units + one) / (2 * one) : Nat)
    some (if negative then -n else n)
  | _ => none

/-- The 64 bits of the interchange format: sign, exponent, fraction. -/
def bits : Binary64 → Nat
  | nan => 0x7FF8000000000000
  | infinite negative => (if negative then 1 <<< 63 else 0) + (2047 <<< 52)
  | finite negative units =>
    let sign := if negative then 1 <<< 63 else 0
    if units < 1 <<< 52 then sign + units
    else
      let e := units.log2 - 52
      sign + (e <<< 52) + (units >>> e)

end Binary64

end Criteria.Number
