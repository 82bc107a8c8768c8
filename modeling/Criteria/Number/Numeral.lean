import Criteria.Number.Binary64
import Criteria.Text.Integer

/-!
Decimal literals and the doubles they stand for. A `Numeral` keeps the digits as they were written.
It has two values: `nearest` is the double closest to the written number; `scaled?` keeps only the
leading digits that fit 64 bits and then multiplies or divides by a power of ten, which is how
numbers in JSON text are valued and which may end a few units away from the nearest double.
-/

namespace Criteria.Number

open Criteria.Text

/-- A decimal literal as written. An exponent has a sign and digits. -/
structure Numeral where
  negative : Bool
  whole : List Char
  fraction : List Char
  exponent : Option (Bool × List Char)
  deriving DecidableEq, Repr

namespace Numeral

/-- The number that digits denote; anything else counts as zero. -/
def value (digits : List Char) : Nat :=
  (readDigits? digits).getD 0

/-- The written exponent, zero if there is none. -/
def tens (n : Numeral) : Int :=
  match n.exponent with
  | none => 0
  | some (negative, digits) => if negative then -(value digits : Int) else value digits

/-- Whether the literal has neither a fraction nor an exponent. -/
def isWhole (n : Numeral) : Bool :=
  n.fraction.isEmpty && n.exponent.isNone

/-- The 64-bit integer that the literal writes. Minus zero is not an integer. -/
def toInt64? (n : Numeral) : Option Int64 :=
  if n.isWhole then
    if n.negative then
      if value n.whole = 0 then none else Text.toInt64? (-(value n.whole : Int))
    else Text.toInt64? (value n.whole)
  else none

end Numeral

namespace Binary64

/-- The double nearest to `digits` times a power of ten. Magnitudes far outside the range of doubles
are settled without computing the power. -/
def ofDecimal (negative : Bool) (digits : Nat) (exponent : Int) : Binary64 :=
  if digits = 0 then finite negative 0
  else
    let magnitude := ((Nat.toDigits 10 digits).length : Int) + exponent
    if 310 < magnitude then infinite negative
    else if magnitude < -324 then finite negative 0
    else if 0 ≤ exponent then round negative (digits * Nat.pow 10 exponent.toNat) 1
    else round negative digits (Nat.pow 10 (-exponent).toNat)

def powerOfTen (n : Nat) : Binary64 :=
  round false (Nat.pow 10 n) 1

end Binary64

namespace Numeral

def nearest (n : Numeral) : Binary64 :=
  Binary64.ofDecimal n.negative (value (n.whole ++ n.fraction)) (n.tens - n.fraction.length)

/-- The largest significand that is kept. -/
def significandMax : Nat := UInt64.size - 1

/-- Reads digits onto a significand while they fit; the count says how many were read. -/
def keep (significand : Nat) : List Char → Nat × Nat
  | [] => (significand, 0)
  | c :: rest =>
    let next := 10 * significand + (digitValue? c).getD 0
    if next ≤ significandMax then
      let (m, n) := keep next rest
      (m, n + 1)
    else (significand, 0)

/-- `f` times a power of ten, in at most one multiplication and as many divisions as it takes;
`none` if the result is beyond the range of doubles. -/
def scale? (f : Binary64) (exponent : Int) : Option Binary64 :=
  if 308 < exponent then
    if f.isZero then some f else none
  else if 0 ≤ exponent then
    match f.mul (Binary64.powerOfTen exponent.toNat) with
    | .infinite _ => none
    | g => some g
  else if -308 ≤ exponent then some (f.div (Binary64.powerOfTen (-exponent).toNat))
  else if f.isZero then some f
  else scale? (f.div (Binary64.powerOfTen 308)) (exponent + 308)
termination_by (-exponent).toNat
decreasing_by omega

/-- The double that the literal stands for in JSON text; `none` if it is out of range. Whole digits
that do not fit the significand count as tens, further digits of the fraction are dropped. -/
def scaled? (n : Numeral) : Option Binary64 :=
  let (whole, read) := keep 0 n.whole
  let (significand, places) := keep whole n.fraction
  let exponent := ((n.whole.length - read : Nat) : Int) - places + n.tens
  (scale? (Binary64.ofInt significand) exponent).map fun f => if n.negative then f.neg else f

/-- Reads `digits[.digits][e[sign]digits]` with at least one digit outside the exponent. -/
def ofUnsigned? (negative : Bool) (s : List Char) : Option Numeral :=
  let (whole, rest) := s.span Char.isDigit
  let (fraction, rest) :=
    match rest with
    | '.' :: r => r.span Char.isDigit
    | r => ([], r)
  if whole.isEmpty && fraction.isEmpty then none
  else
    match rest with
    | [] => some ⟨negative, whole, fraction, none⟩
    | c :: r =>
      if c = 'e' ∨ c = 'E' then
        let (minus, digits) := takeSign r
        (readDigits? digits).map fun _ => ⟨negative, whole, fraction, some (minus, digits)⟩
      else none

end Numeral

/-- The double that a text denotes: an optional sign, then a decimal literal or, in any case, one of
the words for infinity and not-a-number. -/
def readBinary64? (s : List Char) : Option Binary64 :=
  let (negative, rest) := takeSign s
  match Numeral.ofUnsigned? negative rest with
  | some n => some n.nearest
  | none =>
    let word := String.ofList (rest.map Char.toLower)
    if word = "inf" ∨ word = "infinity" then some (.infinite negative)
    else if word = "nan" then some .nan
    else none

end Criteria.Number
