import Criteria.Http.Message
import Criteria.Http.Template
import Criteria.Metrics

/-!
What every request goes through, whatever it asks for. A request has an identifier, its own or a fresh
one, which its response carries back; and each answered request is counted under the template of
its route, so that paths made up by clients do not make up series.
-/

namespace Criteria.Http

def requestIdHeader : String := "x-request-id"

/-- The label of requests that no route matches. -/
def unmatchedPath : String := "unmatched"

/-- The identifier of a request: the one that was sent, if it can be shown and is not empty. -/
def Request.id (r : Request) (fresh : String) : String :=
  match r.header? requestIdHeader with
  | some value => if value.isEmpty || !value.toList.all isVisible then fresh else value
  | none => fresh

def Response.withRequestId (r : Response) (id : String) : Response :=
  r.withHeader requestIdHeader id

def requestSeries (r : Request) (route : Option Template) (status : Nat) : Series :=
  .request r.method ((route.map Template.text).getD unmatchedPath) status

end Criteria.Http
