import Criteria.Settings.Value

/-!
Paths to settings. A path is written as names with points between them, and places in an array follow
a name in brackets: `servers[0].port`. What stands in the way of a path gives way to it, so every
path leads somewhere; a place before the first one is counted from the end of its array.
-/

namespace Criteria.Settings

open Text

inductive Step where
  | name (s : String)
  | place (n : Int)
  deriving DecidableEq, Repr

abbrev Path := List Step

namespace Path

def isNameChar (c : Char) : Bool :=
  c.isAlphanum || c == '_' || c == '-'

def isBlankChar (c : Char) : Bool :=
  c == ' ' || c == '\t'

/-- The place that a text ending in a bracket writes. It has no plus sign and may stand between blanks. -/
def place? (s : List Char) : Option Step :=
  if s.getLast? = some ']' then
    let inner := (s.dropLast.dropWhile isBlankChar).reverse.dropWhile isBlankChar |>.reverse
    if inner.head? = some '+' then none
    else (readInt64? inner).map fun n => .place n.toInt
  else none

/-- The steps of a name and the places behind it. -/
def steps? (s : List Char) : Option Path :=
  match s.splitOn '[' with
  | [] => none
  | name :: places =>
    if !name.isEmpty && name.all isNameChar then
      (places.mapM place?).map (.name (String.ofList name) :: ·)
    else none

def read? (s : List Char) : Option Path :=
  ((s.splitOn '.').mapM steps?).map List.flatten

/-- The path of a key; a key that writes no path is a name as it is. -/
def ofKey (key : List Char) : Path :=
  (read? key).getD [.name (String.ofList key)]

end Path

namespace Value

/-- Changes the item at a place. The array is filled up to the place, or before its start for a place
that lies further from the end than the array is long. -/
def updateAt (place : Int) (f : Value → Value) (items : List Value) : List Value :=
  let index := if place < 0 then items.length + place else place
  let items := List.replicate (-index).toNat nil ++ items
  let filler := List.replicate (index.toNat + 1 - items.length) nil
  (items ++ filler).modify index.toNat f

/-- Lays a value over what is found at a path. -/
def setAt : Path → Value → Value → Value
  | [], v, base => layered v base
  | .name k :: path, v, base => table (update k (setAt path v) base.entries)
  | .place n :: path, v, base => array (updateAt n (setAt path v) base.items)

end Value

end Criteria.Settings
