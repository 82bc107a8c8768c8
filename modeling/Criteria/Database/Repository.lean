import Criteria.Database.Assembly
import Criteria.Database.Layout
import Criteria.Database.Session
import Criteria.Repository

/-!
The repository that keeps its rules in the database. A rule is written in one transaction: its nodes in
the order of the layout, parents first, then the links of every node that has children, then the rule.
Listing reads the rules and the nodes in two statements.
-/

namespace Criteria.Database

open Session

def insertion (t : Tree) (parent : Option Int64) : Statement Int64 :=
  match t with
  | .branch c _ _ => .insertConnective c parent
  | .leaf c => .insertCondition c parent
  | .empty => .insertCondition (Condition.formless "") parent

/-- Inserts the nodes of some slots; `ids` are the numbers of the slots before. -/
def insertSlots (refusals : Refusals) : List Slot → Array Int64 → Action Session (Array Int64)
  | [], ids, s => (.ok ids, s)
  | slot :: rest, ids, s =>
    match query refusals (insertion slot.node (slot.parent.bind (ids[·]?))) s with
    | (.error f, s) => (.error f, s)
    | (.ok id, s) => insertSlots refusals rest (ids.push id) s

/-- Links the nodes of some slots to their children; `place` is the place of the first of them. -/
def linkSlots (refusals : Refusals) (ids : Array Int64) : List Slot → Nat → Action Session Unit
  | [], _, s => (.ok (), s)
  | slot :: rest, place, s =>
    if slot.left.isNone && slot.right.isNone then linkSlots refusals ids rest (place + 1) s
    else
      match query refusals (.linkChildren (ids.getD place 0) (slot.left.bind (ids[·]?))
          (slot.right.bind (ids[·]?))) s with
      | (.error f, s) => (.error f, s)
      | (.ok (), s) => linkSlots refusals ids rest (place + 1) s

/-- Inserts a tree and returns the number of its root; the empty tree has none. -/
def insertTree (refusals : Refusals) (t : Tree) : Action Session (Option Int64) := fun s =>
  if t.isEmpty then (.ok none, s)
  else
    let slots := layout t
    match insertSlots refusals slots #[] s with
    | (.error f, s) => (.error f, s)
    | (.ok ids, s) =>
      match linkSlots refusals ids slots 0 s with
      | (.error f, s) => (.error f, s)
      | (.ok (), s) => (.ok ids[0]?, s)

def writeRule (refusals : Refusals) (text : String) (root : Tree) : Action Session Rule := fun s =>
  match insertTree refusals root s with
  | (.error f, s) => (.error f, s)
  | (.ok rootId, s) =>
    match query refusals (.insertRule text rootId) s with
    | (.error f, s) => (.error f, s)
    | (.ok id, s) => (.ok ⟨id, text, root⟩, s)

/-- Deletes a rule and its tree; false if there is no such rule. -/
def eraseRule (refusals : Refusals) (id : Int64) : Action Session Bool := fun s =>
  match query refusals (.deleteRule id) s with
  | (.error f, s) => (.error f, s)
  | (.ok none, s) => (.ok false, s)
  | (.ok (some none), s) => (.ok true, s)
  | (.ok (some (some root)), s) =>
    match query refusals (.deleteSubtree root) s with
    | (.error f, s) => (.error f, s)
    | (.ok (), s) => (.ok true, s)

def readRules (refusals : Refusals) : Action Session (List Rule) := fun s =>
  match query refusals .selectRules s with
  | (.error f, s) => (.error f, s)
  | (.ok rules, s) =>
    match query refusals .selectTrees s with
    | (.error f, s) => (.error f, s)
    | (.ok nodes, s) => (assembleRules nodes rules, s)

/-- The repository over sessions in which the given statements are refused. -/
def repository (refusals : Refusals) : Repository Session where
  create text root := transaction refusals (fun _ => true) (writeRule refusals text root)
  listAll := readRules refusals
  contains id := query refusals (.ruleExists id)
  delete ruleId := transaction refusals id (eraseRule refusals ruleId)
  ping := query refusals .ping

end Criteria.Database
