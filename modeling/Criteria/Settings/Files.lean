import Criteria.Json.Reader
import Criteria.Settings.Path
import Criteria.Settings.Toml

/-!
Settings files: where they are looked for and what they hold. A file is asked for by its path with the
extension of TOML. If it is not there, a file whose name has one more extension takes its place,
and may be JSON as well. The outermost names of a file are paths.
-/

namespace Criteria.Settings

open Number

/-- The files that settings are read from; a path gives the text of a file. -/
abbrev Files := String → Option String

namespace Value

mutual

/-- The value that a JSON value writes; `none` if a number is out of range. Of members with the same key
the last one counts. -/
def ofJson? : Json → Option Value
  | .null => some nil
  | .bool b => some (bool b)
  | .number n =>
    match n.toInt64? with
    | some i => some (integer i)
    | none => n.scaled?.map float
  | .text s => some (text s)
  | .array items => (ofJsonItems? items).map array
  | .object members => (ofJsonMembers? members).map table

def ofJsonItems? : List Json → Option (List Value)
  | [] => some []
  | j :: rest => do
    let v ← ofJson? j
    return v :: (← ofJsonItems? rest)

def ofJsonMembers? : List (String × Json) → Option (List (String × Value))
  | [] => some []
  | (k, j) :: rest => do
    let v ← ofJson? j
    let rest ← ofJsonMembers? rest
    return if rest.any (·.1 == k) then rest else (k, v) :: rest

end

end Value

inductive Format where
  | toml
  | json
  deriving DecidableEq, Repr

namespace Format

def extension : Format → String
  | toml => ".toml"
  | json => ".json"

def read? : Format → String → Option Value
  | toml, s => Toml.parse? s
  | json, s => (Json.parse s).toOption.bind Value.ofJson?

end Format

namespace Files

/-- The path of a name in a directory. A name that starts at the root is a path of its own. -/
def pathTo (directory name : String) : String :=
  if name.startsWith "/" || directory.isEmpty then name
  else if directory.endsWith "/" then directory ++ name
  else directory ++ "/" ++ name

/-- Whether a path has a file name in front of the extension of TOML. -/
def isNamed (path : String) : Bool :=
  (path.splitOn "/").getLast? != some Format.toml.extension

/-- The settings file at a path; a file without a name in front of its extension is none. -/
def find? (files : Files) (path : String) : Option (Format × String) :=
  match files path with
  | some s => if isNamed path then some (.toml, s) else none
  | none =>
    [Format.toml, .json].findSome? fun f => (files (path ++ f.extension)).map (f, ·)

/-- The text of a file without a byte order mark in front. -/
def content (s : String) : String :=
  String.ofList (Toml.withoutMark s.toList)

/-- Lays a file over some settings; a file that is not there changes nothing. -/
def lay? (files : Files) (path : String) (base : Value) : Option Value :=
  match find? files path with
  | none => some base
  | some (format, s) =>
    match format.read? (content s) with
    | some (.table es) =>
      some (es.foldl (fun base (k, v) => Value.setAt (Path.ofKey k.toList) v base) base)
    | _ => none

end Files

end Criteria.Settings
