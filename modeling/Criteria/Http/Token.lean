/-!
The characters of which methods, header names and the parts of media types are made.
-/

namespace Criteria.Http

def tokenPunctuation : List Char :=
  ['!', '#', '$', '%', '&', '\'', '*', '+', '-', '.', '^', '_', '\x60', '|', '~']

def isTokenChar (c : Char) : Bool :=
  c.isAlphanum || tokenPunctuation.contains c

/-- Whether a text is a token: not empty and made of token characters. -/
def isToken (s : String) : Bool :=
  !s.isEmpty && s.toList.all isTokenChar

end Criteria.Http
