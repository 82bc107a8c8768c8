import Criteria.Number.Numeral

/-!
The shortest decimal text of a double. Of all decimals that read back as the same double, one with
the fewest digits is written, and of those the one nearest to the double.
-/

namespace Criteria.Number

/-- A decimal: `digits` times ten to the `exponent`. -/
structure Decimal where
  digits : Nat
  exponent : Int
  deriving DecidableEq, Repr

namespace Shortest

/-- The number of decimal digits before the point of `units` times `2 ^ -1074`; for a value below
one tenth it is negative, by the zeros after the point. -/
def magnitude (units : Nat) : Int :=
  ((Nat.toDigits 10 (units * Nat.pow 10 324 / Binary64.one)).length : Int) - 324

/-- The whole multiples of ten to the `exponent` on both sides of the value, the nearer one first. -/
def neighbours (units : Nat) (exponent : Int) : Nat × Nat :=
  let num := if exponent < 0 then units * Nat.pow 10 (-exponent).toNat else units
  let den := if exponent < 0 then Binary64.one else Binary64.one * Nat.pow 10 exponent.toNat
  let below := num / den
  let twice := 2 * (num % den)
  if twice < den ∨ (twice = den ∧ below % 2 = 0) then (below, below + 1) else (below + 1, below)

/-- Tries one digit more in each round until a neighbour of the value reads back as the value. -/
def search (units : Nat) (magnitude : Int) (places : Nat) : Nat → Decimal
  | 0 => ⟨(neighbours units (magnitude - places)).1, magnitude - places⟩
  | fuel + 1 =>
    let exponent := magnitude - places
    let (near, far) := neighbours units exponent
    if Binary64.ofDecimal false near exponent = .finite false units then ⟨near, exponent⟩
    else if Binary64.ofDecimal false far exponent = .finite false units then ⟨far, exponent⟩
    else search units magnitude (places + 1) fuel

/-- The shortest decimal of a positive value; seventeen digits always suffice. -/
def decimal (units : Nat) : Decimal :=
  search units (magnitude units) 1 16

/-- The digits of a decimal without trailing zeros, and how many of them stand before the point. -/
def layout (units : Nat) : List Char × Int :=
  let d := decimal units
  let digits := Nat.toDigits 10 d.digits
  let trimmed := (digits.reverse.dropWhile (· == '0')).reverse
  (trimmed, digits.length + d.exponent)

/-- Writes digits with the point after the first `before` of them, padding with zeros. -/
def positional (digits : List Char) (before : Int) : List Char × List Char :=
  if before ≤ 0 then (['0'], List.replicate (-before).toNat '0' ++ digits)
  else
    let n := before.toNat
    (digits.take n ++ List.replicate (n - digits.length) '0', digits.drop n)

end Shortest

namespace Binary64

/-- Plain text: always positional, with a point only where a fraction follows. -/
def text : Binary64 → String
  | nan => "NaN"
  | infinite negative => if negative then "-inf" else "inf"
  | finite negative units =>
    let sign := if negative then ['-'] else []
    let (whole, fraction) :=
      if units = 0 then (['0'], []) else
        let (digits, before) := Shortest.layout units
        Shortest.positional digits before
    String.ofList (sign ++ whole ++ if fraction.isEmpty then [] else '.' :: fraction)

/-- The JSON literal of a finite double: positional from `1e-5` up to below `1e16`, and then always
with a fraction; otherwise in scientific form. -/
def numeral? : Binary64 → Option Numeral
  | finite negative units =>
    if units = 0 then some ⟨negative, ['0'], ['0'], none⟩
    else
      let (digits, before) := Shortest.layout units
      if -5 < before ∧ before ≤ 16 then
        let (whole, fraction) := Shortest.positional digits before
        some ⟨negative, whole, if fraction.isEmpty then ['0'] else fraction, none⟩
      else
        let e := before - 1
        some ⟨negative, digits.take 1, digits.drop 1, some (e < 0, Nat.toDigits 10 e.natAbs)⟩
  | _ => none

end Binary64

end Criteria.Number
