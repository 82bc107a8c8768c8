import Criteria.Text.Blank
import Criteria.Text.Hex

/-!
The tokens of a TOML text. Comments are no tokens. A string in quotes is one token, with what is
written in it already understood; a number is a token for each of its parts between points.
-/

namespace Criteria.Settings.Toml

open Text

inductive Token where
  | blank (c : Char)
  | newline
  /-- A bare key, or a part of a value without quotes. -/
  | word (s : List Char)
  /-- A string; `long` if it is one between three quotes, which is no key. -/
  | text (s : List Char) (long : Bool)
  /-- A point, a comma, an equals sign, a bracket or a brace. -/
  | mark (c : Char)
  deriving DecidableEq, Repr

/-- White space inside a line. A carriage return is only ever found in front of a line feed. -/
def isBlankChar (c : Char) : Bool :=
  c == ' ' || c == '\t' || c == '\r'

def isSpace (c : Char) : Bool :=
  isBlankChar c || c == '\n'

def isQuote (c : Char) : Bool :=
  c == '"' || c == '\''

def isMark (c : Char) : Bool :=
  ['.', ',', '=', '[', ']', '\x7b', '\x7d'].contains c

def isWordChar (c : Char) : Bool :=
  !(isSpace c || isQuote c || isMark c || c == '#')

/-- Whether a text has no control characters but tabs and ends of lines. -/
def isPrintable : List Char → Bool
  | [] => true
  | '\r' :: '\n' :: rest => isPrintable rest
  | c :: rest => (c == '\t' || c == '\n' || (0x20 ≤ c.toNat && c.toNat != 0x7F)) && isPrintable rest

/-! ### Strings -/

/-- The quotes around a string: their character, and whether there are three on each side. -/
structure Quotes where
  mark : Char
  long : Bool
  deriving DecidableEq, Repr

namespace Quotes

def opening? : List Char → Option Quotes
  | a :: b :: c :: _ => if isQuote a then some ⟨a, b = a ∧ c = a⟩ else none
  | a :: _ => if isQuote a then some ⟨a, false⟩ else none
  | [] => none

/-- The quotes on one side. -/
def side (q : Quotes) : List Char :=
  List.replicate (if q.long then 3 else 1) q.mark

/-- Backslashes mean something between double quotes only. -/
def escapes (q : Quotes) : Bool :=
  q.mark == '"'

/-- The quotes in front of the closing ones, of which there may be two if these are three. -/
def spare (q : Quotes) (rest : List Char) : List Char :=
  if q.long then (rest.take 2).takeWhile (· == q.mark) else []

/-- Ends a string where its closing quotes may start: what still belongs to it, and what follows it. -/
def close (q : Quotes) (s : List Char) : List Char × List Char :=
  let rest := s.drop q.side.length
  (q.spare rest, rest.drop (q.spare rest).length)

/-- What is between the quotes of a string that is open, as it is written, and what follows it. -/
def body? (q : Quotes) : List Char → Option (List Char × List Char)
  | [] => none
  | c :: rest =>
    if q.side.isPrefixOf (c :: rest) then some (q.close (c :: rest))
    else if q.escapes && c == '\\' then
      match rest with
      | [] => none
      | d :: rest => (body? q rest).map fun (s, r) => (c :: d :: s, r)
    else (body? q rest).map fun (s, r) => (c :: s, r)

end Quotes

/-- The character that a letter after a backslash stands for. -/
def escaped? : Char → Option Char
  | 'b' => some '\x08'
  | 't' => some '\t'
  | 'n' => some '\n'
  | 'f' => some '\x0C'
  | 'r' => some '\r'
  | 'e' => some '\x1B'
  | '"' => some '"'
  | '\\' => some '\\'
  | _ => none

/-- How many digits the code of a character has that a letter after a backslash announces. -/
def codeLength? : Char → Option Nat
  | 'x' => some 2
  | 'u' => some 4
  | 'U' => some 8
  | _ => none

def charOfCode? (digits : List Char) : Option Char := do
  let n ← digits.foldlM (fun n c => return 16 * n + (← hexValue? c)) 0
  if n.isValidChar then some (Char.ofNat n) else none

/-- The text that is written with escapes. A backslash at the end of a line takes the white space after
it away, ends of lines included. -/
def unescape? (s : List Char) : Option (List Char) :=
  match s with
  | [] => some []
  | '\\' :: c :: rest =>
    match escaped? c, codeLength? c with
    | some d, _ => (unescape? rest).map (d :: ·)
    | none, some n =>
      if rest.length < n then none
      else (charOfCode? (rest.take n)).bind fun d => (unescape? (rest.drop n)).map (d :: ·)
    | none, none =>
      if isSpace c && ((c :: rest).takeWhile isSpace).contains '\n' then
        unescape? (rest.dropWhile isSpace)
      else none
  | c :: rest => (unescape? rest).map (c :: ·)
termination_by s.length
decreasing_by
  · simp only [List.length_cons]; omega
  · simp only [List.length_cons, List.length_drop]; omega
  · have := (List.dropWhile_sublist isSpace (l := rest)).length_le
    simp only [List.length_cons]; omega
  · simp only [List.length_cons]; omega

/-- The text of a string; the end of the line after three quotes is no part of it. -/
def Quotes.read? (q : Quotes) (body : List Char) : Option (List Char) :=
  let body :=
    match q.long, body with
    | true, '\n' :: rest => rest
    | true, '\r' :: '\n' :: rest => rest
    | _, body => body
  if !q.long && body.contains '\n' then none
  else if q.escapes then unescape? body
  else some body

theorem Quotes.body?_length_le {q : Quotes} {s t r : List Char} (h : q.body? s = some (t, r)) :
    r.length ≤ s.length := by
  fun_induction Quotes.body? q s generalizing t r with
  | case1 => simp at h
  | case2 c rest =>
    obtain rfl : (q.close (c :: rest)).2 = r := by rw [Option.some.inj h]
    simp only [Quotes.close, List.length_drop]
    omega
  | case3 => simp at h
  | case4 c _ _ d rest ih =>
    obtain ⟨⟨t, r⟩, hr, h⟩ := Option.map_eq_some_iff.1 h
    simp only [Prod.mk.injEq] at h
    have := ih hr
    simp only [← h.2, List.length_cons]
    omega
  | case5 c rest _ _ ih =>
    obtain ⟨⟨t, r⟩, hr, h⟩ := Option.map_eq_some_iff.1 h
    simp only [Prod.mk.injEq] at h
    have := ih hr
    simp only [← h.2, List.length_cons]
    omega

/-- The string that a text starts with, if it starts with quotes, and what follows it. -/
def takeText? (s : List Char) : Option (Token × List Char) := do
  let q ← Quotes.opening? s
  let (body, rest) ← q.body? (s.drop q.side.length)
  return (.text (← q.read? body) q.long, rest)

theorem takeText?_length_lt {s r : List Char} {t : Token} (h : takeText? s = some (t, r)) :
    r.length < s.length := by
  simp only [takeText?, Option.bind_eq_bind, Option.bind_eq_some_iff] at h
  obtain ⟨q, hq, ⟨body, rest⟩, hb, text, _, h⟩ := h
  simp only [Option.pure_def, Option.some.injEq, Prod.mk.injEq] at h
  have hb := Quotes.body?_length_le hb
  have hside : 0 < q.side.length := by
    simp only [Quotes.side, List.length_replicate]; split <;> omega
  have hs : 0 < s.length := by
    cases s with
    | nil => simp [Quotes.opening?] at hq
    | cons => simp
  simp only [← h.2]
  simp only [List.length_drop] at hb
  omega

/-! ### All tokens -/

def tokens? (s : List Char) : Option (List Token) :=
  match s with
  | [] => some []
  | c :: rest =>
    if isBlankChar c then (tokens? rest).map (.blank c :: ·)
    else if c = '\n' then (tokens? rest).map (.newline :: ·)
    else if c = '#' then tokens? (rest.dropWhile (· != '\n'))
    else if isMark c then (tokens? rest).map (.mark c :: ·)
    else if isQuote c then
      match _h : takeText? (c :: rest) with
      | none => none
      | some (t, rest') => (tokens? rest').map (t :: ·)
    else (tokens? (rest.dropWhile isWordChar)).map (.word (c :: rest.takeWhile isWordChar) :: ·)
termination_by s.length
decreasing_by
  · simp
  · simp
  · have := (List.dropWhile_sublist (· != '\n') (l := rest)).length_le
    simp only [List.length_cons]; omega
  · simp
  · exact takeText?_length_lt _h
  · have := (List.dropWhile_sublist isWordChar (l := rest)).length_le
    simp only [List.length_cons]; omega

end Criteria.Settings.Toml
