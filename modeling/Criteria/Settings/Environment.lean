import Criteria.Settings.Path
import Criteria.Text.Blank

/-!
Settings in environment variables. A variable whose name starts with the common tag, in any case, is a
setting; two underscores in the rest of its name stand for a point, and the rest is a path. Values have no
types here, so what looks like a truth value or a number is one.
-/

namespace Criteria.Settings

open Number Text

abbrev Variables := List (String × String)

namespace Environment

/-- The tag in front of the names of settings, in small letters. -/
def tag : List Char := "rules_".toList

def valueOf (s : String) : Value :=
  let lowered := String.ofList (lower s.toList)
  if lowered = "true" then .bool true
  else if lowered = "false" then .bool false
  else
    match readInt64? s.toList with
    | some n => .integer n
    | none =>
      match readBinary64? s.toList with
      | some x => .float x
      | none => .text s

/-- Replaces two underscores by a point, from left to right. -/
def pointed : List Char → List Char
  | '_' :: '_' :: rest => '.' :: pointed rest
  | c :: rest => c :: pointed rest
  | [] => []

/-- The path and the value of a variable, if it is a setting. -/
def setting? (v : String × String) : Option (Path × Value) :=
  let name := lower v.1.toList
  if tag.isPrefixOf name then some (.ofKey (pointed (name.drop tag.length)), valueOf v.2)
  else none

def layOver (vars : Variables) (base : Value) : Value :=
  (vars.filterMap setting?).foldl (fun v (path, x) => Value.setAt path x v) base

end Environment

end Criteria.Settings
