import Criteria.Tree.Walk

/-!
The two tables in which rules are kept. A rule is a row with the number of its root node; a node is a row
with the numbers of its children and of its parent. Numbers are handed out by sequences that do not
go back when a transaction does.
-/

namespace Criteria.Database

/-- A row of the table of nodes. Which columns are filled depends on the type. -/
structure NodeRow where
  id : Int64
  type : String
  value : Option String
  operator : Option String
  field : Option String
  comparison : Option String
  target : Option String
  left : Option Int64
  right : Option Int64
  parent : Option Int64
  deriving DecidableEq, Repr

structure RuleRow where
  id : Int64
  text : String
  root : Option Int64
  deriving DecidableEq, Repr

structure Tables where
  rules : List RuleRow
  nodes : List NodeRow
  deriving DecidableEq, Repr

/-- The tables and the last number that each sequence has handed out. -/
structure Store where
  tables : Tables
  lastRule : Int64
  lastNode : Int64
  deriving DecidableEq, Repr

/-- The largest of some numbers, at least zero. -/
def largest (ids : List Int64) : Int64 :=
  ids.foldl max 0

/-- A database with given rows; its sequences go on from the largest numbers. -/
def Store.ofTables (tables : Tables) : Store :=
  ⟨tables, largest (tables.rules.map (·.id)), largest (tables.nodes.map (·.id))⟩

/-- The number after the last one; `none` if the sequence is used up. -/
def next? (last : Int64) : Option Int64 :=
  if last = Int64.maxValue then none else some (last + 1)

namespace NodeRow

def conditionType : String := "condition"

def operatorType : String := "operator"

def ofCondition (id : Int64) (c : Condition) (parent : Option Int64) : NodeRow :=
  ⟨id, conditionType, some c.value, none, c.field, c.comparison, c.target, none, none, parent⟩

/-- The row of a branch before its children are known. -/
def ofConnective (id : Int64) (c : Connective) (parent : Option Int64) : NodeRow :=
  ⟨id, operatorType, none, some c.word, none, none, none, none, none, parent⟩

/-- The children's numbers, of a row of any type. -/
def links (r : NodeRow) : List Int64 :=
  r.left.toList ++ r.right.toList

end NodeRow

/-- The rows of a number; a table has at most one. -/
def rowsOf (id : Int64) (rows : List NodeRow) : List NodeRow :=
  rows.filter (·.id == id)

def without (id : Int64) (rows : List NodeRow) : List NodeRow :=
  rows.filter (·.id != id)

theorem without_length_lt {id : Int64} {rows : List NodeRow} (h : rowsOf id rows ≠ []) :
    (without id rows).length < rows.length := by
  obtain ⟨r, hr⟩ := List.exists_mem_of_ne_nil _ h
  have hr := List.mem_filter.1 hr
  exact List.length_filter_lt_length_iff_exists.2 ⟨r, hr.1, by simp [beq_iff_eq.1 hr.2]⟩

/-- The rows that can be reached from some numbers, each once; `rows` are those not met yet. -/
def reachable (rows : List NodeRow) (pending : List Int64) : List NodeRow :=
  match pending with
  | [] => []
  | id :: pending =>
    if _h : rowsOf id rows = [] then reachable rows pending
    else
      rowsOf id rows
        ++ reachable (without id rows) ((rowsOf id rows).flatMap NodeRow.links ++ pending)
termination_by (rows.length, pending.length)
decreasing_by
  · exact Prod.Lex.right _ (Nat.lt_succ_self _)
  · exact Prod.Lex.left _ _ (without_length_lt _h)

end Criteria.Database
