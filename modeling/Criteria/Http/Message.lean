import Criteria.Http.MediaType
import Criteria.Http.Target
import Criteria.Json.Printer

/-!
Requests and responses.
-/

namespace Criteria.Http

/-- A request as it reaches the router. Header names are in small letters. -/
structure Request where
  method : String
  path : String
  headers : List (String × String)
  body : String
  deriving DecidableEq, Repr

/-- Whether a character may stand in the value of a header. -/
def isHeaderChar (c : Char) : Bool :=
  c == '\t' || (32 ≤ c.toNat && c.toNat != 127)

/-- Whether a character of a header's value can be shown: visible ASCII, a space or a tab. -/
def isVisible (c : Char) : Bool :=
  c == '\t' || (32 ≤ c.toNat && c.toNat < 127)

def isHeader (name value : String) : Bool :=
  isToken name && value.toList.all isHeaderChar

namespace Request

/-- The request of a method, a target, headers and a body, if these are what they should be. -/
def ofParts? (method target : String) (headers : List (String × String)) (body : String) :
    Option Request :=
  if isToken method && headers.all (fun (n, v) => isHeader n v) then
    (Target.path? target).map fun path =>
      ⟨method, path, headers.map fun (n, v) => (String.ofList (n.toList.map Char.toLower), v), body⟩
  else none

/-- The value of a header; the first one counts. -/
def header? (r : Request) (name : String) : Option String :=
  r.headers.lookup name

def declaresJson (r : Request) : Bool :=
  match r.header? "content-type" with
  | none => false
  | some value =>
    value.toList.all isVisible && ((MediaType.parse? value).map (·.isJson)).getD false

end Request

structure Response where
  status : Nat
  headers : List (String × String)
  body : String
  deriving DecidableEq, Repr

namespace Response

def header? (r : Response) (name : String) : Option String :=
  r.headers.lookup name

def bare (status : Nat) : Response :=
  ⟨status, [], ""⟩

def text (status : Nat) (body : String) : Response :=
  ⟨status, [("content-type", "text/plain; charset=utf-8")], body⟩

def json (status : Nat) (body : Json) : Response :=
  ⟨status, [("content-type", "application/json")], body.render⟩

def withHeader (r : Response) (name value : String) : Response :=
  { r with headers := r.headers ++ [(name, value)] }

/-- The response without its body, as it answers a request for the head alone. -/
def headOnly (r : Response) : Response :=
  { r with body := "" }

end Response

end Criteria.Http
