import Criteria.Api.Payload
import Criteria.Http.Layer
import Criteria.Http.Percent
import Criteria.Rule.Json
import Criteria.Service

/-!
The service as an HTTP application: its routes, what answers them and what every request goes through.
A body is looked at in a fixed order: its declared type, its size, its syntax, its shape and then
what is demanded of its values; the first objection is the answer.
-/

namespace Criteria.Api

open Http

inductive Endpoint where
  | createRule
  | listRules
  | combineRules
  | evaluateRules
  | deleteRule
  | health
  | readiness
  deriving DecidableEq, Repr

structure Route where
  template : Template
  methods : List (String × Endpoint)
  deriving DecidableEq, Repr

namespace Route

/-- A request for the head of a response goes where a request for the response goes. -/
def endpoint? (r : Route) (method : String) : Option Endpoint :=
  match r.methods.lookup method with
  | some e => some e
  | none => if method = "HEAD" then r.methods.lookup "GET" else none

/-- The methods that a route allows, as a refusal names them. -/
def allow (r : Route) : String :=
  ",".intercalate (r.methods.flatMap fun (m, _) => if m = "GET" then ["GET", "HEAD"] else [m])

end Route

def plainPath (segments : List String) : Template :=
  ⟨segments.map .literal⟩

def routes : List Route :=
  [⟨plainPath ["api", "rules"], [("POST", .createRule), ("GET", .listRules)]⟩,
    ⟨plainPath ["api", "rules", "combine"], [("POST", .combineRules)]⟩,
    ⟨plainPath ["api", "rules", "evaluate"], [("POST", .evaluateRules)]⟩,
    ⟨⟨[.literal "api", .literal "rules", .literal "rules", .parameter "id"]⟩,
      [("DELETE", .deleteRule)]⟩,
    ⟨plainPath ["health"], [("GET", .health)]⟩,
    ⟨plainPath ["ready"], [("GET", .readiness)]⟩]

/-- The route of a path and the values of its parameters. -/
def route? (path : String) : Option (Route × List String) :=
  routes.findSome? fun r => (r.template.match? path).map (r, ·)

/-- The greatest size of a body in bytes. -/
def maxBody : Nat := 2097152

def unreadableBody : ReadError → Response
  | .malformed => .text 400 "Failed to parse the request body as JSON"
  | .mismatch => .text 422 "Failed to deserialize the JSON body into the target type"

/-- Reads the body of a request, or answers why it cannot be. -/
def body {α : Type} (readValue : Draft → Reading α) (r : Request) : Except Response α :=
  if !r.declaresJson then
    .error (.text 415 "Expected request with `Content-Type: application/json`")
  else if maxBody < r.body.utf8ByteSize then
    .error (.text 413 "Failed to buffer the request body")
  else
    match (Document.ofText r.body).read readValue with
    | .ok a => .ok a
    | .error e => .error (unreadableBody e)

/-- Reads a rule's number from a path, or answers why it cannot be. -/
def ruleId (parameters : List String) : Except Response Int64 :=
  match Percent.decode? (parameters.headD "") with
  | none => .error (.text 400 "Invalid URL: Invalid UTF-8 in `id`")
  | some s =>
    match Text.readInt64? s.toList with
    | some id => .ok id
    | none => .error (.text 400 ("Invalid URL: Cannot parse `" ++ s ++ "` to a `i64`"))

def failed (f : Failure) : Response :=
  .json f.status f.toJson

def answer {α : Type} (respond : α → Response) : Except Failure α → Response
  | .ok a => respond a
  | .error f => failed f

def serviceName : String := "rule-service"

def okOr (word : String) (ok : Bool) : Json :=
  .text (if ok then "ok" else word)

def alive : Response :=
  .json 200 (.object [("status", .text "ok"), ("service", .text serviceName)])

def ready (storageOk : Bool) : Response :=
  .json (if storageOk then 200 else 503) (.object [("status", okOr "degraded" storageOk),
    ("service", .text serviceName), ("checks", .object [("storage", okOr "fail" storageOk)])])

variable {σ : Type}

/-- Runs an operation of the service on a valid body and answers with its result. -/
def onBody {α β γ : Type} (r : Request) (readValue : Draft → Reading α)
    (validate : α → Except Failure β) (act : β → Action (ServiceState σ) γ) (respond : γ → Response)
    (s : ServiceState σ) : Response × ServiceState σ :=
  match body readValue r with
  | .error response => (response, s)
  | .ok a =>
    match validate a with
    | .error f => (failed f, s)
    | .ok b =>
      let (result, s) := act b s
      (answer respond result, s)

def perform (svc : Service σ) (e : Endpoint) (parameters : List String) (r : Request)
    (s : ServiceState σ) : Response × ServiceState σ :=
  match e with
  | .createRule =>
    onBody r CreateRequest.read (·.validate) svc.create (fun rule => .json 200 rule.toJson) s
  | .combineRules =>
    onBody r CombineRequest.read (·.validate) svc.combine (fun rule => .json 200 rule.toJson) s
  | .evaluateRules =>
    onBody r EvaluateRequest.read .ok svc.evaluate
      (fun o => .json 200 (EvaluateResponse.mk o.isMatch).toJson) s
  | .listRules =>
    let (result, s) := svc.list s
    (answer (fun rules => .json 200 (.array (rules.map Rule.toJson))) result, s)
  | .deleteRule =>
    match ruleId parameters with
    | .error response => (response, s)
    | .ok id =>
      let (result, s) := svc.delete id s
      (answer (fun _ => .bare 204) result, s)
  | .health => (alive, s)
  | .readiness =>
    let (result, s) := svc.ping s
    (ready result.isOk, s)

def dispatch (svc : Service σ) (route : Route) (parameters : List String) (r : Request)
    (s : ServiceState σ) : Response × ServiceState σ :=
  match route.endpoint? r.method with
  | none => ((Response.bare 405).withHeader "allow" route.allow, s)
  | some e =>
    let (response, s) := perform svc e parameters r s
    (if r.method = "HEAD" then response.headOnly else response, s)

def countRequest (s : ServiceState σ) (series : Series) : ServiceState σ :=
  { s with metrics := s.metrics.count series }

/-- Answers a request; `fresh` is the identifier it gets if it has none of its own. -/
def handle (svc : Service σ) (fresh : String) (r : Request) (s : ServiceState σ) :
    Response × ServiceState σ :=
  let found := route? r.path
  let (response, s) :=
    match found with
    | none => (Response.bare 404, s)
    | some (route, parameters) => dispatch svc route parameters r s
  (response.withRequestId (r.id fresh),
    countRequest s (requestSeries r (found.map (·.1.template)) response.status))

end Criteria.Api
