import Criteria.Settings.Value

/-!
What the names of a TOML text stand for while it is read. A name is given a value once, and a table has
one header; the tables on the way to a header may get theirs later. Keys with points make tables of
their own, which no header opens again and no key without points adds to.
-/

namespace Criteria.Settings.Toml

/-- A key: the names of the tables on the way, and the last name. -/
structure Key where
  way : List String
  name : String
  deriving DecidableEq, Repr

def Key.path (k : Key) : List String :=
  k.way ++ [k.name]

inductive Origin where
  /-- It is on the way to a table that has a header. -/
  | implied
  /-- It is on the way of a key with points. -/
  | dotted
  /-- It has a header, or is the outermost table. -/
  | header
  deriving DecidableEq, Repr

inductive Node where
  /-- A value, to which nothing can be added; arrays and tables in brackets are values. -/
  | value (v : Value)
  | table (origin : Origin) (entries : List (String × Node))
  /-- Tables that share a header. The last one is still open. -/
  | tables (closed : List Value) (last : List (String × Node))

namespace Node

mutual

def toValue : Node → Value
  | value v => v
  | table _ es => .table (toEntries es)
  | tables closed last => .array (closed ++ [.table (toEntries last)])

def toEntries : List (String × Node) → List (String × Value)
  | [] => []
  | (k, n) :: rest => (k, n.toValue) :: toEntries rest

end

/-- An outermost table with nothing in it. -/
def empty : Node :=
  table .header []

/-- Changes what a name stands for, if anything. -/
def change? (name : String) (f : Option Node → Option Node) :
    List (String × Node) → Option (List (String × Node))
  | [] => (f none).map fun n => [(name, n)]
  | (k, n) :: rest =>
    if k = name then (f (some n)).map fun n => (k, n) :: rest
    else (change? name f rest).map ((k, n) :: ·)

/-- Changes the table at the end of a way. Tables that are not there yet are made, with the given
origin; a key with points does not pass a table that has a header, but of tables that share one it
passes the last. -/
def within? (origin : Origin) (f : Node → Option Node) : List String → Node → Option Node
  | [], n => f n
  | name :: way, table o es =>
    let pass : Option Node → Option Node
      | none => within? origin f way (table origin [])
      | some (table o es) =>
        if origin = .dotted ∧ o = .header then none else within? origin f way (table o es)
      | some (tables closed last) =>
        match within? origin f way (table .header last) with
        | some (table _ es) => some (tables closed es)
        | _ => none
      | some (value _) => none
    (change? name pass es).map (table o)
  | _, _ => none

def inside? (name : String) (f : Option Node → Option Node) : Node → Option Node
  | table o es => (change? name f es).map (table o)
  | _ => none

/-- Whether a table takes the last name of a key that has points or not. -/
def takes (points : Bool) : Node → Bool
  | table o _ => (o == .dotted) == points
  | _ => false

def define? (key : Key) (v : Value) : Node → Option Node :=
  within? .dotted
    (fun n =>
      if n.takes (!key.way.isEmpty) then
        n.inside? key.name fun
          | none => some (value v)
          | some _ => none
      else none)
    key.way

def openTable? (key : Key) : Node → Option Node :=
  within? .implied
    (inside? key.name fun
      | none => some (table .header [])
      | some (table .implied es) => some (table .header es)
      | some _ => none)
    key.way

/-- Opens one more table of a header in double brackets. -/
def openNext? (key : Key) : Node → Option Node :=
  within? .implied
    (inside? key.name fun
      | none => some (tables [] [])
      | some (tables closed last) => some (tables (closed ++ [.table (toEntries last)]) [])
      | some _ => none)
    key.way

end Node

end Criteria.Settings.Toml
