import Criteria.Json.Draft
import Criteria.Text.Hex

/-!
Reading JSON text, one character at a time. A `Reader` is the place reached in the text: which
containers are open and what may come next, or how much of a word, number or string has been seen.
`feed` moves it by one character, so reading a text is a fold over its characters and reading two
texts in a row is reading the first and then, from where that ended, the second.
-/

namespace Criteria

open Number

namespace Reader

/-- An open container with what it holds so far, the latest first. An object also has the latest key. -/
inductive Frame where
  | array (done : List Draft)
  | object (done : List (Option String × Draft)) (key : Option String)
  deriving Repr

inductive Digits where
  | sign
  | zero
  | whole
  | point
  | fraction
  | letter
  | exponentSign
  | exponent
  deriving DecidableEq, Repr

inductive Escape where
  | none
  | backslash
  /-- Inside a code of four digits, `left` of which are to come; `high` is the first half of a pair. -/
  | code (high : Option Nat) (left : Nat) (value : Nat)
  /-- After the first half of a surrogate pair. -/
  | high (unit : Nat)
  | highBackslash (unit : Nat)
  deriving DecidableEq, Repr

/-- What has been read at the current place, and so what may come next. -/
inductive Place where
  /-- A value; straight after an opening bracket the array may also be closed. -/
  | value (closable : Bool)
  /-- A key; straight after an opening brace the object may also be closed. -/
  | key (closable : Bool)
  | colon
  /-- After a value inside a container. -/
  | after
  /-- After the outermost value. -/
  | done (d : Draft)
  /-- After more than blanks behind the outermost value. -/
  | excess (d : Draft)
  /-- Inside one of the words `true`, `false` and `null`. -/
  | word (left : List Char) (meaning : Draft)
  /-- Inside a number; the digits read so far are in reverse order. -/
  | number (part : Digits) (n : Numeral)
  /-- Inside a string; the characters read so far are in reverse order. -/
  | text (isKey : Bool) (done : Option (List Char)) (escape : Escape)
  /-- After a character that cannot stand where it stands; `pending` says whether a value was due. -/
  | broken (pending : Bool)
  deriving Repr

end Reader

/-- The place reached in a JSON text and the containers open there, the innermost first. -/
structure Reader where
  stack : List Reader.Frame
  place : Reader.Place
  deriving Repr

namespace Reader

def start : Reader :=
  ⟨[], .value false⟩

def isSpace (c : Char) : Bool :=
  c == ' ' || c == '\t' || c == '\n' || c == '\r'

/-- Whether a value is due at the place, or partly read. -/
def Place.pending : Place → Bool
  | .value _ => true
  | .colon => true
  | .word _ _ => true
  | .number _ _ => true
  | .text isKey _ _ => !isKey
  | .broken pending => pending
  | _ => false

def fail (r : Reader) : Reader :=
  ⟨r.stack, .broken r.place.pending⟩

def finishValue (stack : List Frame) (d : Draft) : Reader :=
  match stack with
  | [] => ⟨[], .done d⟩
  | .array items :: rest => ⟨.array (d :: items) :: rest, .after⟩
  | .object members key :: rest => ⟨.object ((key, d) :: members) key :: rest, .after⟩

def finishKey (stack : List Frame) (key : Option String) : Reader :=
  match stack with
  | .object members _ :: rest => ⟨.object members key :: rest, .colon⟩
  | _ => ⟨stack, .broken false⟩

def openValue (stack : List Frame) (c : Char) : Option Reader :=
  match c with
  | '\x7b' => some ⟨.object [] none :: stack, .key true⟩
  | '[' => some ⟨.array [] :: stack, .value true⟩
  | '"' => some ⟨stack, .text false (some []) .none⟩
  | '-' => some ⟨stack, .number .sign ⟨true, [], [], none⟩⟩
  | 't' => some ⟨stack, .word ['r', 'u', 'e'] (.bool true)⟩
  | 'f' => some ⟨stack, .word ['a', 'l', 's', 'e'] (.bool false)⟩
  | 'n' => some ⟨stack, .word ['u', 'l', 'l'] .null⟩
  | c =>
    if c.isDigit then some ⟨stack, .number (if c = '0' then .zero else .whole) ⟨false, [c], [], none⟩⟩
    else none

/-- A character after a value: it goes on to the next one or closes the innermost container. -/
def feedAfter (stack : List Frame) (c : Char) : Option Reader :=
  match stack with
  | .array items :: rest =>
    if c = ',' then some ⟨stack, .value false⟩
    else if c = ']' then some (finishValue rest (.array items.reverse true))
    else none
  | .object members _ :: rest =>
    if c = ',' then some ⟨stack, .key false⟩
    else if c = '\x7d' then some (finishValue rest (.object members.reverse true))
    else none
  | [] => none

def Digits.ends : Digits → Bool
  | zero | whole | fraction | exponent => true
  | _ => false

/-- The number with its digits in the order of the text. -/
def inOrder (n : Numeral) : Numeral :=
  ⟨n.negative, n.whole.reverse, n.fraction.reverse, n.exponent.map fun (s, e) => (s, e.reverse)⟩

/-- One more character of a number, if it belongs to it. -/
def feedNumber (part : Digits) (n : Numeral) (c : Char) : Option (Digits × Numeral) :=
  let exponentDigit : Digits × Numeral :=
    (.exponent, { n with exponent := n.exponent.map fun (s, e) => (s, c :: e) })
  match part with
  | .sign =>
    if c.isDigit then some (if c = '0' then .zero else .whole, { n with whole := [c] }) else none
  | .zero | .whole =>
    if part = .whole && c.isDigit then some (.whole, { n with whole := c :: n.whole })
    else if c = '.' then some (.point, n)
    else if c = 'e' ∨ c = 'E' then some (.letter, { n with exponent := some (false, []) })
    else none
  | .point | .fraction =>
    if c.isDigit then some (.fraction, { n with fraction := c :: n.fraction })
    else if part = .fraction ∧ (c = 'e' ∨ c = 'E') then
      some (.letter, { n with exponent := some (false, []) })
    else none
  | .letter =>
    if c = '+' then some (.exponentSign, n)
    else if c = '-' then some (.exponentSign, { n with exponent := some (true, []) })
    else if c.isDigit then some exponentDigit
    else none
  | .exponentSign | .exponent => if c.isDigit then some exponentDigit else none

def isHighSurrogate (n : Nat) : Bool := 0xD800 ≤ n && n < 0xDC00

def isLowSurrogate (n : Nat) : Bool := 0xDC00 ≤ n && n < 0xE000

/-- The character that a backslash and a letter stand for. -/
def escaped? : Char → Option Char
  | '"' => some '"'
  | '\\' => some '\\'
  | '/' => some '/'
  | 'b' => some '\x08'
  | 'f' => some '\x0C'
  | 'n' => some '\n'
  | 'r' => some '\r'
  | 't' => some '\t'
  | _ => none

/-- The string after a code of four digits has been read. -/
def finishCode (done : Option (List Char)) (high : Option Nat) (unit : Nat) :
    Option (List Char) × Escape :=
  match high with
  | none =>
    if isHighSurrogate unit then (done, .high unit)
    else if isLowSurrogate unit then (none, .none)
    else (done.map (Char.ofNat unit :: ·), .none)
  | some h =>
    if isLowSurrogate unit then
      (done.map (Char.ofNat (0x10000 + (h - 0xD800) * 0x400 + (unit - 0xDC00)) :: ·), .none)
    else (none, .none)

def feedBackslash (done : Option (List Char)) (c : Char) : Option (Option (List Char) × Escape) :=
  if c = 'u' then some (done, .code none 4 0)
  else (escaped? c).map fun e => (done.map (e :: ·), .none)

/-- A character of a string outside an escape, other than its closing quote. -/
def feedPlain (done : Option (List Char)) (c : Char) : Option (Option (List Char) × Escape) :=
  if c = '\\' then some (done, .backslash)
  else if c.toNat < 0x20 then none
  else some (done.map (c :: ·), .none)

def feedEscape (done : Option (List Char)) (escape : Escape) (c : Char) :
    Option (Option (List Char) × Escape) :=
  match escape with
  | .none => feedPlain done c
  | .backslash => feedBackslash done c
  | .code high left value =>
    (Text.hexValue? c).map fun d =>
      if left ≤ 1 then finishCode done high (16 * value + d)
      else (done, .code high (left - 1) (16 * value + d))
  | .high unit => if c = '\\' then some (done, .highBackslash unit) else feedPlain none c
  | .highBackslash unit =>
    if c = 'u' then some (done, .code (some unit) 4 0) else feedBackslash none c

def Escape.closes : Escape → Bool
  | none | high _ => true
  | _ => false

/-- The string read so far; it has no value if it stops after half a surrogate pair. -/
def finishText (done : Option (List Char)) (escape : Escape) : Option String :=
  match escape with
  | .none => done.map fun cs => String.ofList cs.reverse
  | _ => none

/-- A character where no word, number or string is being read. -/
def feedBetween (r : Reader) (c : Char) : Reader :=
  if isSpace c then r
  else
    match r.place with
    | .value closable =>
      if closable ∧ c = ']' then (feedAfter r.stack c).getD r.fail
      else (openValue r.stack c).getD r.fail
    | .key closable =>
      if c = '"' then ⟨r.stack, .text true (some []) .none⟩
      else if closable ∧ c = '\x7d' then (feedAfter r.stack c).getD r.fail
      else r.fail
    | .colon => if c = ':' then ⟨r.stack, .value false⟩ else r.fail
    | .after => (feedAfter r.stack c).getD r.fail
    | .done d => ⟨r.stack, .excess d⟩
    | _ => r

def feed (r : Reader) (c : Char) : Reader :=
  match r.place with
  | .excess _ => r
  | .broken _ => r
  | .word left meaning =>
    match left with
    | [] => r.fail
    | x :: rest =>
      if c = x then
        if rest.isEmpty then finishValue r.stack meaning else ⟨r.stack, .word rest meaning⟩
      else r.fail
  | .number part n =>
    match feedNumber part n c with
    | some (part, n) => ⟨r.stack, .number part n⟩
    | none =>
      if part.ends && !(part = .zero && c.isDigit) then
        feedBetween (finishValue r.stack (.number (inOrder n))) c
      else r.fail
  | .text isKey done escape =>
    if c = '"' ∧ escape.closes then
      if isKey then finishKey r.stack (finishText done escape)
      else finishValue r.stack (.text (finishText done escape))
    else
      match feedEscape done escape c with
      | some (done, escape) => ⟨r.stack, .text isKey done escape⟩
      | none => r.fail
  | _ => feedBetween r c

def feedAll (r : Reader) (s : List Char) : Reader :=
  s.foldl feed r

/-- The outermost value when the text ends with containers open; `d` is the value that was due. -/
def unwind : List Frame → Option Draft → Draft
  | [], d => d.getD .broken
  | .array items :: rest, d => unwind rest (some (.array (d.toList ++ items).reverse false))
  | .object members key :: rest, d =>
    unwind rest (some (.object ((d.map (key, ·)).toList ++ members).reverse false))

end Reader

/-- A whole JSON text: its value, and whether nothing but blanks comes after it. -/
structure Document where
  value : Draft
  complete : Bool
  deriving Repr

namespace Document

def ofReader (r : Reader) : Document :=
  match r.place with
  | .done d => ⟨d, true⟩
  | .excess d => ⟨d, false⟩
  | p => ⟨Reader.unwind r.stack (if p.pending then some .broken else none), false⟩

/-- Reads a text; the blank added at its end does not change its meaning and ends a last number. -/
def ofText (s : String) : Document :=
  ofReader ((Reader.start.feedAll s.toList).feed ' ')

/-- Reads the value of the text as one of the wanted type; then nothing else may follow. -/
def read {α : Type} (readValue : Draft → Reading α) (doc : Document) : Reading α := do
  let a ← readValue doc.value
  if doc.complete then return a else throw .malformed

end Document

namespace Json

def parse (s : String) : Reading Json :=
  (Document.ofText s).read (Draft.readAny nestingLimit)

end Json

end Criteria
