import Criteria.Json.Draft
import Criteria.Tree.Basic

/-!
Trees as JSON. A node is an object whose `type` says whether it is a condition or an operator; all its
fields are written, and a missing child is `null`. A reader takes fields in any order, skips unknown
ones, lets optional ones be left out and also takes a node as an array of its tag and its fields.
-/

namespace Criteria

open Json

def Json.ofText? (s : Option String) : Json :=
  .ofOption .text s

namespace Connective

def toJson (c : Connective) : Json :=
  .text c.word

/-- The connective that a value names: by its word, or as an object whose only member has that word as
key and a value without content. -/
def ofJson? (isUnit : Json → Bool) : Json → Option Connective
  | .text s => ofWord? s
  | .object [(key, j)] => if isUnit j then ofWord? key else none
  | _ => none

end Connective

namespace Condition

def toJson (c : Condition) : Json :=
  .object [("type", .text "condition"), ("value", .text c.value), ("field", .ofText? c.field),
    ("comparison", .ofText? c.comparison), ("targetValue", .ofText? c.target)]

end Condition

namespace Tree

def toJson : Tree → Json
  | empty => .null
  | leaf c => c.toJson
  | branch c left right =>
    .object [("type", .text "operator"), ("operator", c.toJson), ("left", left.toJson),
      ("right", right.toJson)]

inductive Kind where
  | condition
  | operator
  deriving DecidableEq, Repr

/-- The kind that a tag names. Below the outermost node a tag may also be a number. -/
def Kind.ofTag? (inner : Bool) : Json → Option Kind
  | .text s =>
    if s = "condition" then some condition
    else if s = "operator" then some operator
    else none
  | .number n =>
    if !inner then none
    else if n.toInt64? = some 0 then some condition
    else if n.toInt64? = some 1 then some operator
    else none
  | _ => none

/-- The value of a key that must not come twice; `null` if it does not come at all. -/
def member? (members : List (String × Json)) (key : String) : Option Json :=
  match members.filter (·.1 == key) with
  | [] => some .null
  | [(_, j)] => some j
  | _ => none

def text? : Json → Option String
  | .text s => some s
  | _ => none

def optionalText? : Json → Option (Option String)
  | .null => some none
  | .text s => some (some s)
  | _ => none

/-- A value without content, as the only member of a connective's object may have. -/
def isUnit : Json → Bool
  | .null => true
  | .object [] => true
  | _ => false

def fields? (inner : Bool) : Json → Option (Kind × List Json)
  | .object members => do
    let kind ← Kind.ofTag? inner (← member? members "type")
    let keys :=
      match kind with
      | .condition => ["value", "field", "comparison", "targetValue"]
      | .operator => ["operator", "left", "right"]
    return (kind, ← keys.mapM (member? members))
  | .array (tag :: values) => return (← Kind.ofTag? inner tag, values)
  | _ => none

/-- Reads a node whose branches nest at most as deep as the first argument says; where `inner`, also
`null` as a missing child. -/
def ofJsonWithin? : Nat → Bool → Json → Option Tree
  | 0, _, _ => none
  | limit + 1, inner, j => do
    match ← fields? inner j with
    | (.condition, [value, field, comparison, target]) =>
      return leaf ⟨← text? value, ← optionalText? field, ← optionalText? comparison,
        ← optionalText? target⟩
    | (.operator, [operator, left, right]) =>
      let child (j : Json) : Option Tree :=
        match j with
        | .null => some empty
        | j => ofJsonWithin? limit true j
      return branch (← Connective.ofJson? isUnit operator) (← child left) (← child right)
    | _ => none

def ofJson? (j : Json) : Option Tree :=
  ofJsonWithin? j.nesting false j

/-- Reads a node from a text, where arrays and objects may nest `limit` deep. -/
def read (limit : Nat) (d : Draft) : Reading Tree := do
  Draft.required (ofJson? (← d.readAny limit))

end Tree

end Criteria
