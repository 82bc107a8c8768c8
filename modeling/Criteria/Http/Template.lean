/-!
Path templates. A template is a list of segments, of which some are parameters. A path matches segment
by segment; a parameter at the end takes at least one character.
-/

namespace Criteria.Http

inductive Segment where
  | literal (text : String)
  | parameter (name : String)
  deriving DecidableEq, Repr

structure Template where
  segments : List Segment
  deriving DecidableEq, Repr

namespace Segment

def text : Segment → String
  | literal s => s
  | parameter name => "\x7b" ++ name ++ "\x7d"

end Segment

namespace Template

def text (t : Template) : String :=
  String.join (t.segments.map fun s => "/" ++ s.text)

/-- The values of the parameters, if the segments of a path match. -/
def matchSegments : List Segment → List String → Option (List String)
  | [], [] => some []
  | .literal s :: segments, p :: path => if s = p then matchSegments segments path else none
  | [.parameter _], [p] => if p.isEmpty then none else some [p]
  | .parameter _ :: segments, p :: path => (matchSegments segments path).map (p :: ·)
  | _, _ => none

/-- The segments of a path, which starts with a slash. -/
def segmentsOf? (path : String) : Option (List String) :=
  match path.toList with
  | '/' :: rest => some ((rest.splitOn '/').map String.ofList)
  | _ => none

/-- The values of the parameters, still escaped, if a path matches. -/
def match? (t : Template) (path : String) : Option (List String) :=
  (segmentsOf? path).bind (matchSegments t.segments)

end Template

end Criteria.Http
