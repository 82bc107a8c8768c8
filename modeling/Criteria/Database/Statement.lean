import Criteria.Database.Error
import Criteria.Database.Tables

/-!
The statements that the repository runs, each with its text and its meaning on the tables. Deleting a
row sets the references to it to null.
-/

namespace Criteria.Database

inductive Statement : Type → Type where
  | begin : Statement Unit
  | commit : Statement Unit
  | ping : Statement Unit
  | insertCondition (c : Condition) (parent : Option Int64) : Statement Int64
  | insertConnective (c : Connective) (parent : Option Int64) : Statement Int64
  | linkChildren (id : Int64) (left right : Option Int64) : Statement Unit
  | insertRule (text : String) (root : Option Int64) : Statement Int64
  | selectRules : Statement (List RuleRow)
  | selectTrees : Statement (List NodeRow)
  | ruleExists (id : Int64) : Statement Bool
  /-- The result is the root of the deleted rule, if there was one. -/
  | deleteRule (id : Int64) : Statement (Option (Option Int64))
  | deleteSubtree (root : Int64) : Statement Unit

namespace Statement

/-- The text of a statement, without its arguments. -/
def text : {α : Type} → Statement α → String
  | _, begin => "BEGIN"
  | _, commit => "COMMIT"
  | _, ping => "SELECT 1"
  | _, insertCondition _ _ =>
    "INSERT INTO nodes (type, value, field, comparison, target_value, parent_id)
VALUES ($1, $2, $3, $4, $5, $6)
RETURNING id"
  | _, insertConnective _ _ =>
    "INSERT INTO nodes (type, operator, parent_id)
VALUES ($1, $2, $3)
RETURNING id"
  | _, linkChildren _ _ _ => "UPDATE nodes SET left_id = $1, right_id = $2 WHERE id = $3"
  | _, insertRule _ _ =>
    "INSERT INTO rules (rule_string, root_node_id)
VALUES ($1, $2)
RETURNING id"
  | _, selectRules => "SELECT id, rule_string, root_node_id FROM rules ORDER BY id ASC"
  | _, selectTrees =>
    "WITH RECURSIVE tree AS (
    SELECT n.id, n.type, n.value, n.operator, n.field, n.comparison,
           n.target_value, n.left_id, n.right_id
    FROM rules r
    JOIN nodes n ON n.id = r.root_node_id
    UNION
    SELECT c.id, c.type, c.value, c.operator, c.field, c.comparison,
           c.target_value, c.left_id, c.right_id
    FROM nodes c
    JOIN tree t ON c.id = t.left_id OR c.id = t.right_id
)
SELECT id, type, value, operator, field, comparison, target_value, left_id, right_id
FROM tree"
  | _, ruleExists _ => "SELECT EXISTS(SELECT 1 FROM rules WHERE id = $1)"
  | _, deleteRule _ => "DELETE FROM rules WHERE id = $1 RETURNING root_node_id"
  | _, deleteSubtree _ =>
    "WITH RECURSIVE subtree AS (
    SELECT id, left_id, right_id FROM nodes WHERE id = $1
    UNION
    SELECT n.id, n.left_id, n.right_id
    FROM nodes n
    JOIN subtree s ON n.id = s.left_id OR n.id = s.right_id
)
DELETE FROM nodes WHERE id IN (SELECT id FROM subtree)"

end Statement

abbrev Effect (α : Type) := Except DatabaseError α × Store

namespace Store

/-- The refusal of an insertion whose sequence is used up. -/
def exhausted (sequence : String) : DatabaseError :=
  .refused ("nextval: reached maximum value of sequence \"" ++ sequence ++ "\" ("
    ++ toString Int64.maxValue.toInt ++ ")")

def insertNode (s : Store) (row : Int64 → NodeRow) : Effect Int64 :=
  match next? s.lastNode with
  | none => (.error (exhausted "nodes_id_seq"), s)
  | some id =>
    (.ok id, { s with
      lastNode := id
      tables := { s.tables with nodes := s.tables.nodes ++ [row id] } })

def insertRule (s : Store) (text : String) (root : Option Int64) : Effect Int64 :=
  match next? s.lastRule with
  | none => (.error (exhausted "rules_id_seq"), s)
  | some id =>
    (.ok id, { s with
      lastRule := id
      tables := { s.tables with rules := s.tables.rules ++ [⟨id, text, root⟩] } })

def linkChildren (t : Tables) (id : Int64) (left right : Option Int64) : Tables :=
  { t with nodes := t.nodes.map fun r => if r.id = id then { r with left := left, right := right } else r }

/-- A reference, unless it is to a deleted row. -/
def kept (deleted : List Int64) (reference : Option Int64) : Option Int64 :=
  reference.filter fun id => !deleted.contains id

/-- The tables without some nodes; references to them become null. -/
def deleteNodes (t : Tables) (deleted : List Int64) : Tables :=
  { rules := t.rules.map fun r => { r with root := kept deleted r.root }
    nodes := (t.nodes.filter fun r => !deleted.contains r.id).map fun r =>
      { r with left := kept deleted r.left, right := kept deleted r.right
               parent := kept deleted r.parent } }

def rulesInOrder (t : Tables) : List RuleRow :=
  t.rules.mergeSort fun a b => a.id ≤ b.id

def treesOf (t : Tables) : List NodeRow :=
  reachable t.nodes (t.rules.filterMap (·.root))

end Store

namespace Statement

def run {α : Type} (st : Statement α) (s : Store) : Effect α :=
  match st with
  | begin => (.ok (), s)
  | commit => (.ok (), s)
  | ping => (.ok (), s)
  | insertCondition c parent => s.insertNode fun id => .ofCondition id c parent
  | insertConnective c parent => s.insertNode fun id => .ofConnective id c parent
  | linkChildren id left right =>
    (.ok (), { s with tables := Store.linkChildren s.tables id left right })
  | insertRule text root => s.insertRule text root
  | selectRules => (.ok (Store.rulesInOrder s.tables), s)
  | selectTrees => (.ok (Store.treesOf s.tables), s)
  | ruleExists id => (.ok (s.tables.rules.any (·.id == id)), s)
  | deleteRule id =>
    (.ok ((s.tables.rules.find? (·.id == id)).map (·.root)),
      { s with tables := { s.tables with rules := s.tables.rules.filter (·.id != id) } })
  | deleteSubtree root =>
    (.ok (), { s with
      tables := Store.deleteNodes s.tables ((reachable s.tables.nodes [root]).map (·.id)) })

end Statement

end Criteria.Database
