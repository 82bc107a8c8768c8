import Criteria.Context
import Criteria.Failure
import Criteria.Json.Reader

/-!
The bodies of requests and what is demanded of them beyond their shape.
-/

namespace Criteria.Api

/-- The greatest number of characters of a rule's text. -/
def maxTextLength : Nat := 4096

/-- The greatest number of texts that are combined at once. -/
def maxTexts : Nat := 100

def tooLong : String :=
  "规则文本不能超过 " ++ toString maxTextLength ++ " 个字符"

def isTooLong (text : String) : Bool :=
  maxTextLength < text.length

def invalid (field : String) (complaints : List String) : Failure :=
  .validation (field ++ ": " ++ ", ".intercalate complaints)

/-- A request to keep a rule; an empty text is a text. -/
structure CreateRequest where
  ruleString : Option String
  deriving DecidableEq, Repr

namespace CreateRequest

def read (d : Draft) : Reading CreateRequest :=
  d.readRecord [("ruleString", fun _ d => CreateRequest.mk <$> d.readOption Draft.readText)] ⟨none⟩

/-- The text of a valid request: it is present and not too long. -/
def validate (r : CreateRequest) : Except Failure String :=
  match r.ruleString with
  | none => .error (invalid "rule_string" ["ruleString 不能为空"])
  | some text => if isTooLong text then .error (invalid "rule_string" [tooLong]) else .ok text

end CreateRequest

structure CombineRequest where
  texts : List String
  deriving DecidableEq, Repr

namespace CombineRequest

def read (d : Draft) : Reading CombineRequest :=
  CombineRequest.mk <$> d.readItems Draft.readText

/-- What is wrong with a request: too many texts, or one that is too long. -/
def complaints (r : CombineRequest) : List String :=
  (if maxTexts < r.texts.length then ["一次最多合并 " ++ toString maxTexts ++ " 条规则"] else [])
    ++ if r.texts.any isTooLong then [tooLong] else []

def validate (r : CombineRequest) : Except Failure (List String) :=
  if r.complaints.isEmpty then .ok r.texts else .error (invalid "ruleStrings" r.complaints)

end CombineRequest

namespace EvaluateRequest

/-- Reads the context to decide rules on, an object of any values. -/
def read (d : Draft) : Reading Context :=
  match d with
  | .object members closed => do
    let onMember (done : List (String × Json)) (key : String) (d : Draft) :
        Reading (List (String × Json)) :=
      return (key, ← d.readAny (nestingLimit - 1)) :: done
    return Context.ofMembers (← Draft.foldMembers onMember [] members closed).reverse
  | d => .error d.refusal

end EvaluateRequest

structure EvaluateResponse where
  anyMatch : Bool
  deriving DecidableEq, Repr

namespace EvaluateResponse

def toJson (r : EvaluateResponse) : Json :=
  .object [("matches", .bool r.anyMatch)]

def read (d : Draft) : Reading EvaluateResponse := do
  let found ← d.readRecord [("matches", fun _ d => some <$> d.readBool)] none
  return ⟨← Draft.required found⟩

end EvaluateResponse

end Criteria.Api
