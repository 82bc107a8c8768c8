/-!
Files in directories, and the paths to them. A path goes down by names; `.` stays and `..` goes up. Each
directory on the way must be there, also one that the path leaves again.
-/

namespace Criteria.Settings

/-- The place of a file or a directory: the names on the way to it. -/
abbrev Place := List String

/-- The directories below a directory, and the texts of the files in them. -/
structure FileTree where
  directories : List Place
  files : List (Place × String)

namespace FileTree

/-- A tree with the directories that its files lie in. -/
def ofFiles (directories : List Place) (files : List (Place × String)) : FileTree :=
  ⟨directories ++ files.flatMap fun (place, _) => (List.range place.length).map place.take, files⟩

/-- Follows a path from a place. A path never leads out of the tree. -/
def follow? (t : FileTree) : Place → List String → Option Place
  | here, [] => some here
  | here, name :: rest =>
    if name = "" ∨ name = "." then t.follow? here rest
    else if name = ".." then
      if here.isEmpty then none else t.follow? here.dropLast rest
    else if rest.isEmpty || t.directories.contains (here ++ [name]) then
      t.follow? (here ++ [name]) rest
    else none

def read? (t : FileTree) (path : String) : Option String :=
  if path.startsWith "/" then none
  else (t.follow? [] (path.splitOn "/")).bind fun place => t.files.lookup place

end FileTree

end Criteria.Settings
