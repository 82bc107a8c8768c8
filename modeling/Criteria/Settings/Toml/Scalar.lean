import Criteria.Settings.Value
import Criteria.Text.Hex

/-!
Values without quotes: truth values, integers in four bases, decimal numbers, and dates and times,
which are texts in one spelling. Digits may have single underscores between them.
-/

namespace Criteria.Settings.Toml

open Number Text

/-- The digits of a number without the underscores between them; there is at least one digit. -/
def digits? (isDigit : Char → Bool) (s : List Char) : Option (List Char) :=
  let groups := s.splitOn '_'
  if groups.all fun g => !g.isEmpty && g.all isDigit then some groups.flatten else none

def plainDigits? (s : List Char) : Option (List Char) :=
  (digits? Char.isDigit s).filter fun digits => digits.head? != some '0' || digits.length == 1

/-- The base that a number is written in after two characters that name it. -/
def base? : List Char → Option (Nat × List Char)
  | '0' :: 'x' :: rest => some (16, rest)
  | '0' :: 'o' :: rest => some (8, rest)
  | '0' :: 'b' :: rest => some (2, rest)
  | _ => none

def isDigitOf (base : Nat) (c : Char) : Bool :=
  (hexValue? c).any (· < base)

/-- The integer that a word writes; only a decimal one may have a sign. -/
def integer? (s : List Char) : Option Int :=
  match base? s with
  | some (base, rest) =>
    (digits? (isDigitOf base) rest).map fun digits =>
      ((digits.foldl (fun n c => base * n + (hexValue? c).getD 0) 0 : Nat) : Int)
  | none =>
    let (negative, rest) := takeSign s
    (plainDigits? rest).bind fun digits => readInt? (if negative then '-' :: digits else digits)

/-- The number that a word writes with a fraction or an exponent. -/
def decimal? (s : List Char) : Option Numeral := do
  let (negative, rest) := takeSign s
  let isLetter (c : Char) : Bool := c == 'e' || c == 'E'
  let significand := rest.takeWhile (!isLetter ·)
  let whole ← plainDigits? (significand.takeWhile (· != '.'))
  let fraction ←
    match significand.dropWhile (· != '.') with
    | [] => some []
    | _ :: places => digits? Char.isDigit places
  let exponent ←
    match rest.dropWhile (!isLetter ·) with
    | [] => some none
    | _ :: power =>
      let (minus, power) := takeSign power
      (digits? Char.isDigit power).map fun digits => some (minus, digits)
  let n : Numeral := ⟨negative, whole, fraction, exponent⟩
  if n.isWhole then none else some n

/-- The double that a word writes. A number too large for doubles is none. -/
def float? (s : List Char) : Option Binary64 :=
  let (negative, rest) := takeSign s
  if rest = "inf".toList then some (.infinite negative)
  else if rest = "nan".toList then some .nan
  else
    (decimal? s).bind fun n =>
      match n.nearest with
      | .infinite _ => none
      | x => some x

/-! ### Dates and times -/

def pair? (a b : Char) : Option Nat :=
  readDigits? [a, b]

/-- Whether two digits write a number up to a limit. -/
def isPairUpTo (limit : Nat) (a b : Char) : Bool :=
  (pair? a b).any (· ≤ limit)

def daysIn (year month : Nat) : Nat :=
  if month = 2 then
    if year % 4 = 0 ∧ (year % 100 ≠ 0 ∨ year % 400 = 0) then 29 else 28
  else if [4, 6, 9, 11].contains month then 30
  else 31

def isDate : List Char → Bool
  | [y1, y2, y3, y4, '-', m1, m2, '-', d1, d2] =>
    match readDigits? [y1, y2, y3, y4], pair? m1 m2, pair? d1 d2 with
    | some year, some month, some day =>
      1 ≤ month && month ≤ 12 && 1 ≤ day && day ≤ daysIn year month
    | _, _, _ => false
  | _ => false

/-- A fraction of a second up to nine places, without zeros at the end, and what follows it. -/
def takeFraction? : List Char → Option (List Char × List Char)
  | '.' :: rest =>
    let places := rest.takeWhile Char.isDigit
    let kept := ((places.take 9).reverse.dropWhile (· == '0')).reverse
    if places.isEmpty then none
    else some (if kept.isEmpty then [] else '.' :: kept, rest.drop places.length)
  | rest => some ([], rest)

/-- A time of day with its seconds, and what follows it. -/
def takeTime? : List Char → Option (List Char × List Char)
  | h1 :: h2 :: ':' :: m1 :: m2 :: rest =>
    if isPairUpTo 23 h1 h2 && isPairUpTo 59 m1 m2 then
      let minutes := [h1, h2, ':', m1, m2, ':']
      match rest with
      | ':' :: s1 :: s2 :: rest =>
        if isPairUpTo 60 s1 s2 then
          (takeFraction? rest).map fun (fraction, rest) => (minutes ++ [s1, s2] ++ fraction, rest)
        else none
      | rest => some (minutes ++ ['0', '0'], rest)
    else none
  | _ => none

def offset? : List Char → Option (List Char)
  | [] => some []
  | ['Z'] => some ['Z']
  | ['z'] => some ['Z']
  | [sign, h1, h2, ':', m1, m2] =>
    if (sign == '+' || sign == '-') && isPairUpTo 23 h1 h2 && isPairUpTo 59 m1 m2 then
      let isZero := [h1, h2, m1, m2].all (· == '0')
      some [if isZero then '+' else sign, h1, h2, ':', m1, m2]
    else none
  | _ => none

/-- Whether a character stands between a date and a time. -/
def isDateEnd (c : Char) : Bool :=
  c == 'T' || c == 't' || c == ' '

/-- A date, a time, or both with or without the distance from universal time. -/
def moment? (s : List Char) : Option (List Char) :=
  let date := s.take 10
  if isDate date then
    match s.drop 10 with
    | [] => some date
    | c :: rest =>
      if isDateEnd c then do
        let (time, rest) ← takeTime? rest
        return date ++ ['T'] ++ time ++ (← offset? rest)
      else none
  else (takeTime? s).bind fun (time, rest) => if rest.isEmpty then some time else none

/-! ### All values without quotes -/

def scalar? (s : List Char) : Option Value :=
  if s = "true".toList then some (.bool true)
  else if s = "false".toList then some (.bool false)
  else
    match integer? s with
    | some n => (toInt64? n).map .integer
    | none =>
      match float? s with
      | some x => some (.float x)
      | none => (moment? s).map fun t => .text (String.ofList t)

end Criteria.Settings.Toml
