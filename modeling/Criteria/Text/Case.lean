import Criteria.Text.CaseTable

/-!
Letter case. Two texts that differ in case alone are equal as field names and department names, so
`lower` is the full mapping: a character may become several, and a capital sigma at the end of a
word becomes the final form of the small letter.
-/

namespace Criteria.Text

open CaseTable

def isCased (c : Char) : Bool :=
  inRanges c.toNat casedRanges

/-- Characters that do not end a word as far as case is concerned. -/
def isCaseIgnorable (c : Char) : Bool :=
  inRanges c.toNat ignorableRanges

/-- Whether a cased letter comes next, ignorable characters aside. -/
def casedAhead (s : List Char) : Bool :=
  match s.dropWhile isCaseIgnorable with
  | [] => false
  | c :: _ => isCased c

/-- Whether a cased letter came last once `c` is read, ignorable characters aside. -/
def casedBehind (behind : Bool) (c : Char) : Bool :=
  if isCaseIgnorable c then behind else isCased c

/-- The lower case of `c`; `final` says that `c` is the last letter of a longer word. -/
def lowerChar (final : Bool) (c : Char) : List Char :=
  if c = 'Σ' then [if final then 'ς' else 'σ']
  else if c = 'İ' then ['i', '\u0307']
  else [Char.ofNat (Run.map lowerRuns c.toNat)]

/-- Lowers a text that follows a cased letter or not, as `behind` says. -/
def lowerFrom (behind : Bool) : List Char → List Char
  | [] => []
  | c :: rest =>
    lowerChar (behind && !casedAhead rest) c ++ lowerFrom (casedBehind behind c) rest

def lower (s : List Char) : List Char :=
  lowerFrom false s

def upperChar (c : Char) : List Char :=
  match upperLong.lookup c.toNat with
  | some codes => codes.map Char.ofNat
  | none => [Char.ofNat (Run.map upperRuns c.toNat)]

def upper (s : List Char) : List Char :=
  s.flatMap upperChar

/-- The lower case of an ASCII letter; every other character is its own. -/
def asciiLower (s : List Char) : List Char :=
  s.map Char.toLower

/-- Whether two texts are equal up to the case of ASCII letters. -/
def eqIgnoringAsciiCase (s t : String) : Bool :=
  asciiLower s.toList == asciiLower t.toList

end Criteria.Text
