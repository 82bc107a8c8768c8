import Criteria.Database.Tables
import Criteria.Failure
import Criteria.Rule.Basic

/-!
Rebuilding trees from rows. Rows may be anything: a link to a missing row is a missing child, a row of
an unknown type or operator is a condition that never holds, and rows that link back to one above them
make the tables corrupt.
-/

namespace Criteria.Database

namespace NodeRow

def condition (r : NodeRow) : Condition :=
  ⟨r.value.getD "", r.field, r.comparison, r.target⟩

def connective? (r : NodeRow) : Option Connective :=
  if r.type = operatorType then r.operator.bind Connective.ofAnyCase? else none

/-- What a row that is not a branch stands for. -/
def leaf (r : NodeRow) : Tree :=
  if r.type = conditionType then .leaf r.condition
  else .leaf (Condition.formless ((r.value.or r.operator).getD ""))

end NodeRow

/-- The failure of a node that stands below itself. -/
def cyclic (id : Int64) : Failure :=
  .corruptData ("节点 " ++ toString id.toInt ++ " 在规则树中出现环")

/-- Rebuilds the tree of a node; `free` are the rows that do not stand above it. -/
def assemble (rows free : List NodeRow) (id : Int64) : Except Failure Tree :=
  match rows.find? (·.id == id) with
  | none => .ok .empty
  | some row =>
    if _h : rowsOf id free = [] then .error (cyclic id)
    else
      match row.connective? with
      | none => .ok row.leaf
      | some c =>
        match row.left.elim (.ok .empty) (assemble rows (without id free)) with
        | .error f => .error f
        | .ok left =>
          match row.right.elim (.ok .empty) (assemble rows (without id free)) with
          | .error f => .error f
          | .ok right => .ok (.branch c left right)
termination_by free.length
decreasing_by
  all_goals exact without_length_lt _h

/-- Rebuilds the rules of some rows, up to the first corrupt one. -/
def assembleRules (nodes : List NodeRow) : List RuleRow → Except Failure (List Rule)
  | [] => .ok []
  | row :: rest =>
    match row.root.elim (.ok .empty) (assemble nodes nodes) with
    | .error f => .error f
    | .ok root =>
      match assembleRules nodes rest with
      | .error f => .error f
      | .ok rules => .ok (⟨row.id, row.text, root⟩ :: rules)

end Criteria.Database
