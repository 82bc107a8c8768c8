import Criteria.Settings.Environment
import Criteria.Text.Alphanumeric
import Criteria.Text.Blank

/-!
Files of variables. A file sets a variable a line, and a line goes on with the next one while a quote is
open. Inside double quotes and outside all quotes a dollar sign stands for the value of a variable
that is set already. What cannot be read ends the file: the variables before it stay set.
-/

namespace Criteria.Settings.VariableFile

open Text

/-! ### Lines -/

inductive Openness where
  | closed
  /-- After a blank, where a hash sign starts a comment. -/
  | blank
  | escaped
  | quoted (mark : Char)
  | quotedEscape (mark : Char)
  deriving DecidableEq, Repr

namespace Openness

/-- What a character opens outside quotes, blanks aside. -/
def opened (c : Char) : Openness :=
  if c = '\\' then escaped
  else if c = '"' ∨ c = '\'' then quoted c
  else closed

/-- What is open after one more character; `none` if it starts a comment. -/
def next? : Openness → Char → Option Openness
  | closed, c => some (if isBlank c && c != '\n' && c != '\r' then blank else opened c)
  | blank, c => if c = '#' then none else some (opened c)
  | escaped, _ => some closed
  | quoted m, c => some (if c = '\\' then quotedEscape m else if c = m then closed else quoted m)
  | quotedEscape m, _ => some (quoted m)

end Openness

/-- The characters of a line before a comment, after those read in reverse order, and what is open at
the end; a comment leaves nothing open. -/
def readOn (o : Openness) (done : List Char) : List Char → List Char × Openness
  | [] => (done.reverse, o)
  | c :: rest =>
    match o.next? c with
    | none => (done.reverse, .closed)
    | some o => readOn o (c :: done) rest

/-- Puts one more character in front of some lines, each of which ends in its line feed. -/
def consLine (c : Char) : List (List Char) → List (List Char)
  | [] => [[c]]
  | line :: rest => if c = '\n' then [c] :: line :: rest else (c :: line) :: rest

/-- The lines of a text. A byte order mark in front is no part of them. -/
def linesOf (text : List Char) : List (List Char) :=
  (if text.head? = some '\uFEFF' then text.drop 1 else text).foldr consLine []

/-! ### Values -/

/-- How the next character of a value is taken. A name that stands for a value is kept in reverse order;
`inQuotes` says that it stands inside double quotes. -/
inductive ValueState where
  | plain
  | inDouble
  | inSingle
  | escaped (inQuotes : Bool)
  | name (inQuotes : Bool) (letters : List Char)
  | bracedName (inQuotes : Bool) (letters : List Char)
  | ended
  | comment
  deriving DecidableEq, Repr

/-- Outside all names and escapes. -/
def ValueState.between (inQuotes : Bool) : ValueState :=
  if inQuotes then .inDouble else .plain

/-- The value of a name, given in reverse order, put in front of a value in reverse order. -/
def substitute (vars : Variables) (letters done : List Char) : List Char :=
  ((vars.lookup (String.ofList letters.reverse)).getD "").toList.reverse ++ done

/-- Takes one more character of a value, of which `done` is read, in reverse order. -/
def takeChar? (vars : Variables) : ValueState × List Char → Char → Option (ValueState × List Char)
  | (.plain, done), c =>
    some (if c = '$' then (.name false [], done)
      else if c = '\'' then (.inSingle, done)
      else if c = '"' then (.inDouble, done)
      else if c = '\\' then (.escaped false, done)
      else if c = ' ' ∨ c = '\t' then (.ended, done)
      else (.plain, c :: done))
  | (.inDouble, done), c =>
    some (if c = '$' then (.name true [], done)
      else if c = '"' then (.plain, done)
      else if c = '\\' then (.escaped true, done)
      else (.inDouble, c :: done))
  | (.inSingle, done), c => some (if c = '\'' then (.plain, done) else (.inSingle, c :: done))
  | (.escaped inQuotes, done), c =>
    if c = 'n' then some (.between inQuotes, '\n' :: done)
    else if ['\\', '\'', '"', '$', ' '].contains c then some (.between inQuotes, c :: done)
    else none
  | (.name inQuotes letters, done), c =>
    some (if isAlphanumeric c then (.name inQuotes (c :: letters), done)
      else if c = '\x7b' ∧ letters = [] then (.bracedName inQuotes [], done)
      else if c = '$' then (.name inQuotes [], substitute vars letters done)
      else (.between inQuotes, c :: substitute vars letters done))
  | (.bracedName inQuotes letters, done), c =>
    some (if c = '\x7d' then (.between inQuotes, substitute vars letters done)
      else (.bracedName inQuotes (c :: letters), done))
  | (.ended, done), c =>
    if c = ' ' ∨ c = '\t' then some (.ended, done)
    else if c = '#' then some (.comment, done)
    else none
  | (.comment, done), _ => some (.comment, done)

/-- The value that a text stands for; quotes and braces must be closed. -/
def value? (vars : Variables) (text : List Char) : Option String := do
  let (state, done) ← text.foldlM (takeChar? vars) (.plain, [])
  match state with
  | .plain | .escaped false | .ended | .comment => return String.ofList done.reverse
  | .name false letters => return String.ofList (substitute vars letters done).reverse
  | _ => none

/-! ### Assignments -/

def isNameStart (c : Char) : Bool :=
  c.isAlpha || c == '_'

def isNameChar (c : Char) : Bool :=
  c.isAlphanum || c == '_' || c == '.'

/-- The name that a text starts with, and what follows it and its blanks. -/
def takeName? (s : List Char) : Option (String × List Char) :=
  match s with
  | [] => none
  | c :: _ =>
    if isNameStart c then
      let (name, rest) := s.span isNameChar
      some (String.ofList name, trimStart rest)
    else none

def afterEquals? : List Char → Option (List Char)
  | '=' :: rest => some rest
  | _ => none

/-- The name and the value's text of an assignment. The word `export` may stand in front of it, and is
a name itself if an equals sign follows. -/
def assignment? (s : List Char) : Option (String × List Char) := do
  let (name, rest) ← takeName? s
  match afterEquals? rest with
  | some text => return (name, text)
  | none =>
    if name = "export" then
      let (name, rest) ← takeName? rest
      return (name, ← afterEquals? rest)
    else none

/-- The assignment of a line; `none` if it is no line of a file, `some none` if nothing is in it. -/
def readLine? (vars : Variables) (line : List Char) : Option (Option (String × String)) := do
  match trim line with
  | [] => return none
  | '#' :: _ => return none
  | s =>
    let (name, text) ← assignment? s
    match trimStart text with
    | [] => return some (name, "")
    | '#' :: _ => return some (name, "")
    | text => return some (name, ← value? vars text)

/-- Adds a variable unless there is one of that name. -/
def addVariable (vars : Variables) (v : String × String) : Variables :=
  if vars.any (·.1 == v.1) then vars else vars ++ [v]

/-- Adds the variables of some lines; `begun` is what an open line before them holds. -/
def addLines (vars : Variables) (begun : List Char) (o : Openness) : List (List Char) → Variables
  | [] => vars
  | line :: rest =>
    if begun.isEmpty && (trimStart line).head? = some '#' then addLines vars [] .closed rest
    else
      let (text, o) := readOn o begun.reverse line
      if o = .closed then
        match readLine? vars text with
        | none => vars
        | some none => addLines vars [] .closed rest
        | some (some v) => addLines (addVariable vars v) [] .closed rest
      else addLines vars text o rest

/-- The variables with those of a file added; none is replaced. -/
def addFile (vars : Variables) (text : String) : Variables :=
  addLines vars [] .closed (linesOf text.toList)

end Criteria.Settings.VariableFile
