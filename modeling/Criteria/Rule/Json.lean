import Criteria.Rule.Combination
import Criteria.Tree.Json

/-!
Rules and groups as JSON.
-/

namespace Criteria

namespace Rule

def toJson (r : Rule) : Json :=
  .object [("id", .ofInt64 r.id), ("ruleString", .text r.text), ("rootNode", r.root.toJson)]

/-- A rule under construction. -/
structure Parts where
  id : Option Int64
  text : Option String
  root : Option Tree

def fields (limit : Nat) : Draft.Fields Parts :=
  [("id", fun p d => return { p with id := some (← d.readInt64) }),
    ("ruleString", fun p d => return { p with text := some (← d.readText) }),
    ("rootNode", fun p d => return { p with root := ← d.readOption (Tree.read limit) })]

def read (d : Draft) : Reading Rule := do
  let p ← d.readRecord (fields (nestingLimit - 1)) ⟨none, none, none⟩
  return ⟨← Draft.required p.id, ← Draft.required p.text, p.root.getD .empty⟩

end Rule

namespace Connective

/-- Reads a connective; as an object it has one member, whose value is `null`. -/
def read (limit : Nat) (d : Draft) : Reading Connective := do
  Draft.required (ofJson? (fun j => j == .null) (← d.readAny limit))

end Connective

namespace Group

def toJson (g : Group) : Json :=
  .object [("operator", g.connective.toJson), ("children", .array (g.children.map Tree.toJson))]

/-- A group under construction. -/
structure Parts where
  connective : Option Connective
  children : Option (List Tree)

def fields (limit : Nat) : Draft.Fields Parts :=
  [("operator", fun p d => return { p with connective := some (← Connective.read limit d) }),
    ("children", fun p d =>
      return { p with children := some (← d.readItems (Tree.read (limit - 1))) })]

def read (d : Draft) : Reading Group := do
  let p ← d.readRecord (fields (nestingLimit - 1)) ⟨none, none⟩
  return ⟨← Draft.required p.connective, ← Draft.required p.children⟩

end Group

end Criteria
