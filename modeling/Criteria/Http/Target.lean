/-!
Request targets. A target is a path, an asterisk, an authority or an absolute address; what comes of it
for routing is the path, without query and fragment and with its escapes as they were sent. Characters
beyond ASCII stand for bytes that are let through as they are.
-/

namespace Criteria.Http.Target

/-- The greatest length of a target in bytes. -/
def maxLength : Nat := 65534

def isBetween (lo hi : Nat) (c : Char) : Bool :=
  lo ≤ c.toNat && c.toNat ≤ hi

def isPathChar (c : Char) : Bool :=
  c == '!' || isBetween 0x24 0x3B c || c == '=' || isBetween 0x40 0x5F c || isBetween 0x61 0x7A c
    || c == '|' || c == '~' || c == '"' || c == '\x7b' || c == '\x7d' || 0x7F ≤ c.toNat

def isQueryChar (c : Char) : Bool :=
  c == '!' || isBetween 0x24 0x3B c || c == '=' || 0x3F ≤ c.toNat

/-- Characters of a scheme, the colon aside. -/
def isSchemeChar (c : Char) : Bool :=
  c.isAlphanum || ['+', '-', '.', '~'].contains c

/-- Characters of an authority, the percent sign aside. -/
def isAuthorityChar (c : Char) : Bool :=
  c.isAlphanum
    || ['!', '$', '&', '\'', '(', ')', '*', '+', ',', '-', '.', ':', ';', '=', '@', '[', ']', '_',
      '~'].contains c

/-- Whether a text after the first question mark is a query and perhaps a fragment. -/
def isQuery (s : List Char) : Bool :=
  match s.dropWhile isQueryChar with
  | [] => true
  | c :: _ => c == '#'

/-- The path of a text that may go on with a query and a fragment. -/
def pathOf? (s : List Char) : Option (List Char) :=
  let (path, rest) := s.span isPathChar
  match rest with
  | [] => some path
  | '?' :: query => if isQuery query then some path else none
  | '#' :: _ => some path
  | _ => none

structure Authority where
  colons : Nat
  openBracket : Bool
  closeBracket : Bool
  percent : Bool
  /-- Whether the last character was an at sign. -/
  atLast : Bool
  deriving DecidableEq, Repr

/-- One more character of an authority. Colons and percent signs of the user's part and inside
brackets do not count against the host. -/
def Authority.push (a : Authority) (c : Char) : Option Authority :=
  let a := { a with atLast := c == '@' }
  if c = ':' then if 8 ≤ a.colons then none else some { a with colons := a.colons + 1 }
  else if c = '[' then
    if a.percent || a.openBracket then none else some { a with openBracket := true }
  else if c = ']' then
    if !a.openBracket || a.closeBracket then none
    else some { a with closeBracket := true, colons := 0, percent := false }
  else if c = '@' then some { a with colons := 0, percent := false }
  else if c = '%' then some { a with percent := true }
  else if isAuthorityChar c then some a
  else none

/-- Whether what has been seen is an authority: matching brackets, one port at most, a host after the
user's part and no percent sign in it. -/
def Authority.isValid (a : Authority) : Bool :=
  a.openBracket == a.closeBracket && a.colons ≤ 1 && !a.atLast && !a.percent

def isAuthority (s : List Char) : Bool :=
  match s.foldlM Authority.push ⟨0, false, false, false, false⟩ with
  | some a => a.isValid
  | none => false

def endsAuthority (c : Char) : Bool :=
  c == '/' || c == '?' || c == '#'

/-- What follows the scheme and its separator, if the text has a scheme. -/
def afterScheme? (s : List Char) : Option (List Char) :=
  let (scheme, rest) := s.span isSchemeChar
  match rest with
  | ':' :: '/' :: '/' :: r => if scheme.length ≤ 64 then some r else none
  | _ => none

/-- The path of an absolute address; an address without one has the root path. -/
def absolutePath? (s : List Char) : Option (List Char) :=
  let (authority, rest) := s.span (!endsAuthority ·)
  if authority.isEmpty || !isAuthority authority then none
  else (pathOf? rest).map fun path => if path.isEmpty then ['/'] else path

/-- The path that a target asks for, as it was sent; `none` if the text is no target. -/
def path? (target : String) : Option String :=
  let s := target.toList
  if s.isEmpty || maxLength < target.utf8ByteSize then none
  else if s.head? = some '/' then (pathOf? s).map String.ofList
  else if s = ['*'] then some "*"
  else
    match afterScheme? s with
    | some rest => (absolutePath? rest).map String.ofList
    | none => if isAuthority s then some "" else none

end Criteria.Http.Target
