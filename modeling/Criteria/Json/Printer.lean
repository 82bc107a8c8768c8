import Criteria.Json.Basic
import Criteria.Text.Hex

/-!
JSON text. `write` puts the compact text of a value in front of the text that follows it. Inside a
string only what must be escaped is escaped: quotes, backslashes and control characters.
-/

namespace Criteria

namespace Number.Numeral

/-- The literal as it was written. -/
def chars (n : Numeral) : List Char :=
  (if n.negative then ['-'] else []) ++ n.whole
    ++ (if n.fraction.isEmpty then [] else '.' :: n.fraction)
    ++ match n.exponent with
      | none => []
      | some (negative, digits) => 'e' :: (if negative then '-' :: digits else digits)

end Number.Numeral

namespace Json

open Number

/-- A control character by its code: `\u` and four hexadecimal digits. -/
def escapeCode (c : Char) : List Char :=
  ['\\', 'u', '0', '0', Text.hexDigit (c.toNat / 16), Text.hexDigit (c.toNat % 16)]

def escapeChar (c : Char) : List Char :=
  if c = '"' then ['\\', '"']
  else if c = '\\' then ['\\', '\\']
  else if c = '\x08' then ['\\', 'b']
  else if c = '\t' then ['\\', 't']
  else if c = '\n' then ['\\', 'n']
  else if c = '\x0C' then ['\\', 'f']
  else if c = '\r' then ['\\', 'r']
  else if c.toNat < 0x20 then escapeCode c
  else [c]

/-- A string in quotes, followed by `rest`. -/
def writeText (s : String) (rest : List Char) : List Char :=
  '"' :: s.toList.foldr (fun c r => escapeChar c ++ r) ('"' :: rest)

mutual

def write : Json → List Char → List Char
  | null, rest => "null".toList ++ rest
  | bool b, rest => (if b then "true".toList else "false".toList) ++ rest
  | number n, rest => n.chars ++ rest
  | text s, rest => writeText s rest
  | array items, rest => '[' :: writeItems items (']' :: rest)
  | object members, rest => '\x7b' :: writeMembers members ('\x7d' :: rest)

/-- The items of an array with commas between them, followed by `rest`. -/
def writeItems : List Json → List Char → List Char
  | [], rest => rest
  | [j], rest => write j rest
  | j :: items, rest => write j (',' :: writeItems items rest)

/-- The members of an object with commas between them, followed by `rest`. -/
def writeMembers : List (String × Json) → List Char → List Char
  | [], rest => rest
  | [(k, j)], rest => writeText k (':' :: write j rest)
  | (k, j) :: members, rest => writeText k (':' :: write j (',' :: writeMembers members rest))

end

def render (j : Json) : String :=
  String.ofList (write j [])

end Json

end Criteria
