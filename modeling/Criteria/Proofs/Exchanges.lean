import Criteria.Proofs.Rendering
import Criteria.Proofs.Routing
import Criteria.Proofs.Serving

/-!
# What a client knows of the rules

A client sees requests and responses only. From these it can keep a list of the
rules (`Exchange.shown`): it writes down the body of every rule that was created
or combined and crosses out the ones whose numbers were deleted. The list is what
the application answers when it is asked for the rules.

An endpoint reports what it has done (`perform_reports`). Since the endpoints that
change anything are each reached by paths and methods of their own, the whole
exchange tells of it (`handle_tells`), and an exchange that tells of nothing has
changed nothing. The induction over the exchanges carries `Exchange.Mirrors`: the
client's list is that of the store as long as numbers last.
-/

namespace Criteria.Api

open Http

/-! ## Reports of endpoints -/

/-- What the response of an endpoint reports of the rules. -/
inductive Reports (e : Endpoint) (values : List String) (a : Response) : List Change → Prop where
  | created (rule : Rule) : e = .createRule ∨ e = .combineRules → a.status = 200 →
      a.body = rule.toJson.render → Reports e values a [.created rule]
  | deleted (id : Int64) : e = .deleteRule → ruleId values = .ok id → a.status = 204 →
      Reports e values a [.deleted id]
  | refused : 400 ≤ a.status → Reports e values a []
  | read : e ∉ [.createRule, .combineRules, .deleteRule] → Reports e values a []

theorem failed_status_mem (f : Failure) : (failed f).status ∈ [400, 404, 500] := by
  cases f <;> simp [failed, Response.json, Failure.status]

theorem failed_status (f : Failure) : 400 ≤ (failed f).status :=
  (by decide : ∀ n ∈ [400, 404, 500], 400 ≤ n) _ (failed_status_mem f)

theorem body_error_status_mem {α : Type} {readValue : Draft → Reading α} {r : Request}
    {a : Response} (h : body readValue r = .error a) : a.status ∈ [400, 413, 415, 422] := by
  rw [body] at h
  split at h
  · cases h
    simp [Response.text]
  · split at h
    · cases h
      simp [Response.text]
    · split at h
      · cases h
      · next e _ =>
          cases h
          cases e <;> simp [unreadableBody, Response.text]

theorem body_error_status {α : Type} {readValue : Draft → Reading α} {r : Request} {a : Response}
    (h : body readValue r = .error a) : 400 ≤ a.status :=
  (by decide : ∀ n ∈ [400, 413, 415, 422], 400 ≤ n) _ (body_error_status_mem h)

theorem ruleId_error_status {values : List String} {a : Response} (h : ruleId values = .error a) :
    a.status = 400 := by
  rw [ruleId] at h
  split at h
  · cases h
    rfl
  · split at h
    · cases h
    · cases h
      rfl

theorem onBody_reports {α β : Type} {r : Request} {readValue : Draft → Reading α}
    {validate : α → Except Failure β} {act : β → Action (ServiceState Store) Rule}
    {s : ServiceState Store} {e : Endpoint} {values : List String}
    (he : e = .createRule ∨ e = .combineRules)
    (hact : ∀ b, s.storage.Becomes (Service.createdBy (act b s).1) (act b s).2.storage) :
    let answered := onBody r readValue validate act (fun rule => .json 200 rule.toJson) s
    ∃ new, s.storage.Becomes new answered.2.storage ∧ Reports e values answered.1 new := by
  intro answered
  simp only [answered, onBody]
  cases hbody : body readValue r with
  | error a => exact ⟨[], .same, .refused (body_error_status hbody)⟩
  | ok a =>
      simp only
      cases validate a with
      | error f => exact ⟨[], .same, .refused (failed_status f)⟩
      | ok b =>
          refine ⟨_, hact b, ?_⟩
          simp only
          cases (act b s).1 with
          | error f => exact .refused (failed_status f)
          | ok rule => exact .created rule he rfl rfl

section Memory

variable {svc : Service Store} (hmemory : svc.repository = Repository.memory)
include hmemory

theorem perform_reports (e : Endpoint) (values : List String) (r : Request)
    (s : ServiceState Store) : ∃ new, s.storage.Becomes new (perform svc e values r s).2.storage ∧
      Reports e values (perform svc e values r s).1 new := by
  cases e with
  | createRule =>
      exact onBody_reports (Or.inl rfl) fun text => Service.create_becomes hmemory text s
  | combineRules =>
      exact onBody_reports (Or.inr rfl) fun texts => Service.combine_becomes hmemory texts s
  | evaluateRules =>
      refine ⟨[], ?_, .read (by decide)⟩
      simp only [perform, onBody]
      cases body EvaluateRequest.read r with
      | error a => exact .same
      | ok ctx =>
          obtain ⟨metrics, heq⟩ := Service.evaluate_eq hmemory ctx s
          simp only [heq]
          exact .same
  | listRules =>
      refine ⟨[], ?_, .read (by decide)⟩
      simp only [perform, Service.list_eq hmemory]
      exact .same
  | deleteRule =>
      simp only [perform]
      cases hid : ruleId values with
      | error a => exact ⟨[], .same, .refused (Nat.le_of_eq (ruleId_error_status hid).symm)⟩
      | ok id =>
          refine ⟨_, Service.delete_becomes hmemory id s, ?_⟩
          simp only
          cases (svc.delete id s).1 with
          | error f => exact .refused (failed_status f)
          | ok _ => exact .deleted id rfl hid rfl
  | health => exact ⟨[], .same, .read (by decide)⟩
  | readiness =>
      refine ⟨[], ?_, .read (by decide)⟩
      simp only [perform, Service.ping, hmemory]
      exact .same

end Memory

/-! ## Exchanges -/

/-- A request and its response. -/
structure Exchange where
  request : Request
  response : Response

namespace Exchange

/-- Whether a rule has been created or combined. -/
def adds (x : Exchange) : Bool :=
  x.request.method == "POST"
    && (x.request.path == "/api/rules" || x.request.path == "/api/rules/combine")
    && x.response.status == 200

/-- The number in the path of a rule, which may be escaped. -/
def pathId? (path : String) : Option Int64 :=
  ("/api/rules/rules/".toList.isPrefixOf? path.toList).bind fun segment =>
    (Percent.decode? (String.ofList segment)).bind fun text => Text.readInt64? text.toList

/-- Whether a rule has been deleted. -/
def removes (x : Exchange) : Bool :=
  x.request.method == "DELETE" && x.response.status == 204

/-- What becomes of a list of rules, each of them the text that shows it. -/
def update (bodies : List String) (x : Exchange) : List String :=
  if x.adds then bodies ++ [x.response.body]
  else if x.removes then bodies.filter (Rule.shownId? · != pathId? x.request.path)
  else bodies

/-- The rules that some exchanges leave, each as the body that showed it. -/
def shown (xs : List Exchange) : List String :=
  xs.foldl update []

/-- What an exchange tells of the rules. -/
inductive Tells (x : Exchange) : List Change → Prop where
  | created (rule : Rule) : x.adds = true → x.response.body = rule.toJson.render →
      Tells x [.created rule]
  | deleted (id : Int64) : x.removes = true → pathId? x.request.path = some id →
      Tells x [.deleted id]
  | nothing : x.adds = false → x.removes = false → Tells x []

theorem adds_iff {x : Exchange} : x.adds = true ↔ x.request.method = "POST" ∧
    (x.request.path = "/api/rules" ∨ x.request.path = "/api/rules/combine") ∧
    x.response.status = 200 := by
  simp [adds, and_assoc]

theorem removes_iff {x : Exchange} : x.removes = true ↔
    x.request.method = "DELETE" ∧ x.response.status = 204 := by
  simp [removes]

theorem adds_eq_false {x : Exchange} (h : x.removes = true) : x.adds = false := by
  refine Bool.eq_false_iff.2 fun hadds => ?_
  have hstatus : (204 : Nat) = 200 := (removes_iff.1 h).2.symm.trans (adds_iff.1 hadds).2.2
  omega

theorem Tells.eq_created {x : Exchange} {new : List Change} (h : x.Tells new)
    (hadds : x.adds = true) :
    ∃ rule, new = [.created rule] ∧ x.response.body = rule.toJson.render := by
  cases h with
  | created rule _ hbody => exact ⟨rule, rfl, hbody⟩
  | deleted id hremoves _ => exact absurd hadds (ne_true_of_eq_false (adds_eq_false hremoves))
  | nothing hnot _ => exact absurd hadds (ne_true_of_eq_false hnot)

theorem Tells.eq_deleted {x : Exchange} {new : List Change} (h : x.Tells new)
    (hremoves : x.removes = true) :
    ∃ id, new = [.deleted id] ∧ pathId? x.request.path = some id := by
  cases h with
  | created rule hadds _ => exact absurd hadds (ne_true_of_eq_false (adds_eq_false hremoves))
  | deleted id _ hid => exact ⟨id, rfl, hid⟩
  | nothing _ hnot => exact absurd hremoves (ne_true_of_eq_false hnot)

theorem Tells.eq_nil {x : Exchange} {new : List Change} (h : x.Tells new) (hadds : x.adds = false)
    (hremoves : x.removes = false) : new = [] := by
  cases h with
  | created rule h _ => exact absurd h (ne_true_of_eq_false hadds)
  | deleted id h _ => exact absurd h (ne_true_of_eq_false hremoves)
  | nothing _ _ => rfl

theorem quiet_of_failed (x : Exchange) (h : x.response.status < 200 ∨ 300 ≤ x.response.status) :
    x.adds = false ∧ x.removes = false := by
  refine ⟨Bool.eq_false_iff.2 fun hadds => ?_, Bool.eq_false_iff.2 fun hremoves => ?_⟩
  · have hstatus := (adds_iff.1 hadds).2.2
    omega
  · have hstatus := (removes_iff.1 hremoves).2
    omega

theorem Tells.of_refused {x : Exchange} (h : 400 ≤ x.response.status) : x.Tells [] := by
  obtain ⟨hadds, hremoves⟩ := x.quiet_of_failed (Or.inr (Nat.le_trans (by decide) h))
  exact .nothing hadds hremoves

end Exchange

theorem adds_of_asked {r : Request} {route : Route} {values : List String} {e : Endpoint}
    (hroute : route? r.path = some (route, values)) (he : route.endpoint? r.method = some e)
    (hcreates : e = .createRule ∨ e = .combineRules) :
    r.method = "POST" ∧ (r.path = "/api/rules" ∨ r.path = "/api/rules/combine") := by
  obtain ⟨hmatch, hmethod⟩ := asked_for hroute he
  rcases hcreates with rfl | rfl
  · have hpost : r.method = "POST" := by simpa [Endpoint.method] using hmethod
    exact ⟨hpost, Or.inl (plainPath_match? hmatch)⟩
  · have hpost : r.method = "POST" := by simpa [Endpoint.method] using hmethod
    exact ⟨hpost, Or.inr (plainPath_match? hmatch)⟩

theorem asked_of_adds {r : Request} {route : Route} {values : List String} {e : Endpoint}
    (hroute : route? r.path = some (route, values)) (he : route.endpoint? r.method = some e)
    (hmethod : r.method = "POST") (hpath : r.path = "/api/rules" ∨ r.path = "/api/rules/combine") :
    e = .createRule ∨ e = .combineRules := by
  rw [hmethod] at he
  rcases hpath with hpath | hpath
  · rw [hpath] at hroute
    cases hroute
    exact Or.inl (Option.some.inj he).symm
  · rw [hpath] at hroute
    cases hroute
    exact Or.inr (Option.some.inj he).symm

theorem Exchange.pathId?_eq {segment : String} {id : Int64} (h : ruleId [segment] = .ok id) :
    pathId? ("/api/rules/rules/" ++ segment) = some id := by
  have hsegment : "/api/rules/rules/".toList.isPrefixOf? ("/api/rules/rules/" ++ segment).toList =
      some segment.toList :=
    List.isPrefixOf?_eq_some_iff_append_eq.2 String.toList_append.symm
  rw [pathId?, hsegment, Option.bind_some, String.ofList_toList]
  rw [ruleId, List.headD_cons] at h
  split at h
  · cases h
  · next text htext =>
      rw [htext, Option.bind_some]
      split at h
      · next n hn =>
          cases h
          exact hn
      · cases h

/-- The exchange tells what the endpoint reports. -/
theorem Reports.tells {r : Request} {route : Route} {values : List String} {e : Endpoint}
    (hroute : route? r.path = some (route, values)) (he : route.endpoint? r.method = some e)
    {a a' : Response} {new : List Change} (h : Reports e values a new)
    (hstatus : a'.status = a.status) (hbody : r.method ≠ "HEAD" → a'.body = a.body) :
    (Exchange.mk r a').Tells new := by
  obtain ⟨hmatch, hmethod⟩ := asked_for hroute he
  cases h with
  | created rule hcreates hok htext =>
      obtain ⟨hpost, hpath⟩ := adds_of_asked hroute he hcreates
      refine .created rule (Exchange.adds_iff.2 ⟨hpost, hpath, hstatus.trans hok⟩) ?_
      rw [← htext]
      exact hbody (by rw [hpost]; decide)
  | deleted id hdeletes hid hok =>
      subst hdeletes
      obtain ⟨segment, rfl, hpath⟩ := deleteRule_match? hmatch
      have hdelete : r.method = "DELETE" := by simpa [Endpoint.method] using hmethod
      refine .deleted id (Exchange.removes_iff.2 ⟨hdelete, hstatus.trans hok⟩) ?_
      show Exchange.pathId? r.path = some id
      rw [hpath]
      exact Exchange.pathId?_eq hid
  | refused hrefused => exact .of_refused (hstatus ▸ hrefused)
  | read hread =>
      refine .nothing (Bool.eq_false_iff.2 fun hadds => ?_) (Bool.eq_false_iff.2 fun hremoves => ?_)
      · obtain ⟨hpost, hpath, -⟩ := Exchange.adds_iff.1 hadds
        rcases asked_of_adds hroute he hpost hpath with rfl | rfl <;> simp at hread
      · have hasked : r.method = "DELETE" := (Exchange.removes_iff.1 hremoves).1
        rw [hasked] at hmethod
        cases e <;> simp [Endpoint.method] at hmethod hread

section Memory

variable {svc : Service Store} (hmemory : svc.repository = Repository.memory)
include hmemory

/-- A request makes the changes that its exchange tells of and no others. -/
theorem handle_tells (fresh : String) (r : Request) (s : ServiceState Store) :
    ∃ new, s.storage.Becomes new (handle svc fresh r s).2.storage ∧
      (Exchange.mk r (handle svc fresh r s).1).Tells new := by
  rcases handle_cases svc fresh r s with ⟨hrefused, hsame⟩ |
    ⟨route, values, e, hroute, he, hstatus, hbody, hstorage⟩
  · exact ⟨[], hsame ▸ .same, .of_refused hrefused⟩
  · obtain ⟨new, hnew, hreports⟩ := perform_reports hmemory e values r s
    exact ⟨new, hstorage ▸ hnew, hreports.tells hroute he hstatus hbody⟩

end Memory

/-! ## Sequences of requests -/

/-- Answers some requests one after the other, each with the identifier that it
gets if it has none of its own. -/
def serve {σ : Type} (svc : Service σ) :
    List (String × Request) → ServiceState σ → List Exchange × ServiceState σ
  | [], s => ([], s)
  | (fresh, r) :: rest, s =>
    let (response, s) := handle svc fresh r s
    let (xs, s) := serve svc rest s
    (⟨r, response⟩ :: xs, s)

/-- What a client knows from some exchanges is what the store holds. -/
structure Exchange.Mirrors (xs : List Exchange) (past : List Change) (s : Store) : Prop where
  reached : Store.Reached past s
  count : (created past).length = xs.countP (·.adds)
  shown : (created past).length < 2 ^ 63 → shown xs = s.rules.map (·.toJson.render)

namespace Exchange.Mirrors

variable {xs : List Exchange} {past : List Change} {s : Store}

theorem empty : Mirrors [] [] .empty :=
  ⟨.empty, rfl, fun _ => rfl⟩

theorem step (h : Mirrors xs past s) {x : Exchange} {new : List Change} {s' : Store}
    (hnew : s.Becomes new s') (htells : x.Tells new) : Mirrors (xs ++ [x]) (past ++ new) s' := by
  have hshown : Exchange.shown (xs ++ [x]) = update (Exchange.shown xs) x := List.foldl_concat ..
  refine ⟨h.reached.step hnew, ?_, fun hfew => ?_⟩
  · rw [created_append, List.length_append, List.countP_append, h.count]
    cases htells with
    | created rule hadds _ => simp [created, hadds]
    | deleted id hremoves _ => simp [created, adds_eq_false hremoves]
    | nothing hadds _ => simp [created, hadds]
  · have hpast := Nat.lt_of_le_of_lt (length_created_le past new) hfew
    rw [hshown, h.shown hpast, update]
    cases htells with
    | created rule hadds hbody =>
        rw [created_append, List.length_append] at hfew
        rw [if_pos hadds, hbody]
        obtain ⟨text, root, rfl, rfl⟩ := hnew.eq_create
        rw [(h.reached.tally hpast).rules_create hfew, List.map_append]
        rfl
    | deleted id hremoves hid =>
        rw [if_neg (ne_true_of_eq_false (adds_eq_false hremoves)), if_pos hremoves, hid]
        obtain ⟨-, rfl⟩ := Store.delete_eq_ok.1 hnew.eq_delete
        rw [List.filter_map]
        simp [Function.comp_def, Rule.shownId?_render, bne]
    | nothing hadds hremoves =>
        rw [if_neg (ne_true_of_eq_false hadds), if_neg (ne_true_of_eq_false hremoves),
          hnew.eq_of_nil]

theorem serve {svc : Service Store} (hmemory : svc.repository = Repository.memory)
    (requests : List (String × Request)) {s : ServiceState Store} (h : Mirrors xs past s.storage) :
    ∃ new, Mirrors (xs ++ (Api.serve svc requests s).1) (past ++ new)
      (Api.serve svc requests s).2.storage := by
  induction requests generalizing xs past s with
  | nil =>
      refine ⟨[], ?_⟩
      rw [Api.serve, List.append_nil, List.append_nil]
      exact h
  | cons request rest ih =>
      obtain ⟨fresh, r⟩ := request
      obtain ⟨first, hfirst, htells⟩ := handle_tells hmemory fresh r s
      obtain ⟨new, hnew⟩ := ih (h.step hfirst htells)
      refine ⟨first ++ new, ?_⟩
      rw [List.append_assoc, List.append_assoc] at hnew
      exact hnew

end Exchange.Mirrors

theorem handle_listRules {svc : Service Store} (hmemory : svc.repository = Repository.memory)
    (fresh : String) {r : Request} (s : ServiceState Store) (hmethod : r.method = "GET")
    (hpath : r.path = "/api/rules") :
    (handle svc fresh r s).1.status = 200 ∧
      (handle svc fresh r s).1.body =
        "[" ++ ",".intercalate (s.storage.rules.map (·.toJson.render)) ++ "]" := by
  have hroute : route? "/api/rules" = some (⟨plainPath ["api", "rules"],
      [("POST", .createRule), ("GET", .listRules)]⟩, []) := rfl
  have hbody : ((Json.array (s.storage.rules.map Rule.toJson)).render) =
      "[" ++ ",".intercalate (s.storage.rules.map (·.toJson.render)) ++ "]" := by
    rw [Json.render_array, List.map_map]
    rfl
  rw [← hbody, handle, hpath, hroute]
  simp only [dispatch, hmethod, perform, Service.list_eq hmemory]
  exact ⟨rfl, rfl⟩

/-- After any requests to the application in memory, what the next one does to the
rules can be told from its exchange. A response that is no success has changed
nothing, nor has any other than these: a rule that was created or combined is
shown in the body and, while numbers last, comes last, and a delete takes out the
rule whose number is in the path. Asked for the rules, the application answers with
the bodies that showed them, in the order of the answers and without those that
were deleted since. -/
theorem exchanges_tell_all_changes {mode : Mode} {metrics : Metrics}
    {requests : List (String × Request)} {xs : List Exchange} {s s' : ServiceState Store}
    {fresh : String} {r : Request} {a : Response}
    (hrun : serve ⟨.memory, mode⟩ requests ⟨.empty, metrics⟩ = (xs, s))
    (hnext : handle ⟨.memory, mode⟩ fresh r s = (a, s')) :
    let x : Exchange := ⟨r, a⟩
    (a.status < 200 ∨ 300 ≤ a.status → s'.storage = s.storage) ∧
    (x.adds = true → ∃ rule, a.body = rule.toJson.render ∧
      (xs.countP (·.adds) + 1 < 2 ^ 63 → s'.storage.rules = s.storage.rules ++ [rule])) ∧
    (x.removes = true → ∃ id, Exchange.pathId? r.path = some id ∧
      (∃ rule ∈ s.storage.rules, rule.id = id) ∧
      s'.storage = { s.storage with rules := s.storage.rules.filter (·.id != id) }) ∧
    (x.adds = false → x.removes = false → s'.storage = s.storage) ∧
    (r.method = "GET" → r.path = "/api/rules" → xs.countP (·.adds) < 2 ^ 63 →
      a.status = 200 ∧ a.body = "[" ++ ",".intercalate (Exchange.shown xs) ++ "]") := by
  intro x
  have hmemory : (Service.mk Repository.memory mode).repository = Repository.memory := rfl
  obtain ⟨past, hmirrors⟩ :=
    Exchange.Mirrors.empty.serve hmemory requests (s := ⟨Store.empty, metrics⟩)
  rw [hrun, List.nil_append, List.nil_append] at hmirrors
  obtain ⟨new, hnew, htells⟩ := handle_tells hmemory fresh r s
  rw [hnext] at hnew htells
  refine ⟨fun hfailed => ?_, fun hadds => ?_, fun hremoves => ?_, fun hadds hremoves => ?_,
    fun hmethod hpath hfew => ?_⟩
  · obtain ⟨hadds, hremoves⟩ := x.quiet_of_failed hfailed
    rw [htells.eq_nil hadds hremoves] at hnew
    exact hnew.eq_of_nil
  · obtain ⟨rule, rfl, hbody⟩ := htells.eq_created hadds
    refine ⟨rule, hbody, fun hfew => ?_⟩
    rw [← hmirrors.count] at hfew
    obtain ⟨text, root, rfl, heq⟩ := hnew.eq_create
    rw [heq]
    exact (hmirrors.reached.tally (Nat.lt_of_succ_lt hfew)).rules_create hfew text root
  · obtain ⟨id, rfl, hid⟩ := htells.eq_deleted hremoves
    obtain ⟨hthere, hgone⟩ := Store.delete_eq_ok.1 hnew.eq_delete
    exact ⟨id, hid, hthere, hgone⟩
  · rw [htells.eq_nil hadds hremoves] at hnew
    exact hnew.eq_of_nil
  · have hlist := handle_listRules hmemory fresh s hmethod hpath
    rw [hnext, ← hmirrors.shown (hmirrors.count ▸ hfew)] at hlist
    exact hlist

/-- Of two rules the first is deleted, by an escaped number, and a third is refused;
the second one is left. -/
theorem exchanges_tell_all_changes_one_left :
    let svc : Service Store := ⟨.memory, .strict⟩
    let json := [("content-type", "application/json")]
    let requests : List (String × Request) :=
      [("1", ⟨"POST", "/api/rules", json, "\x7b\"ruleString\":\"age > 30\"\x7d"⟩),
        ("2", ⟨"POST", "/api/rules/combine", json, "[\"age > 30\",\"salary > 100\"]"⟩),
        ("3", ⟨"DELETE", "/api/rules/rules/%31", [], ""⟩),
        ("4", ⟨"POST", "/api/rules", json, "\x7b\"ruleString\":\"age >\"\x7d"⟩)]
    let served := serve svc requests ⟨.empty, .empty⟩
    let left : Rule := ⟨2, "age > 30 OR salary > 100",
      .branch .or (.ofCondition "age > 30") (.ofCondition "salary > 100")⟩
    served.1.map (·.response.status) = [200, 200, 204, 400] ∧
      (handle svc "5" ⟨"GET", "/api/rules", [], ""⟩ served.2).1.body =
        "[" ++ left.toJson.render ++ "]" := by
  intro svc json requests served left
  have hstatus : served.1.map (·.response.status) = [200, 200, 204, 400] := by decide +kernel
  have hrun : serve svc requests ⟨.empty, .empty⟩ = (served.1, served.2) := rfl
  have hnext : handle svc "5" ⟨"GET", "/api/rules", [], ""⟩ served.2 =
      ((handle svc "5" ⟨"GET", "/api/rules", [], ""⟩ served.2).1,
        (handle svc "5" ⟨"GET", "/api/rules", [], ""⟩ served.2).2) := rfl
  obtain ⟨-, -, -, -, hlist⟩ := exchanges_tell_all_changes hrun hnext
  have hmemory : svc.repository = Repository.memory := rfl
  obtain ⟨past, hmirrors⟩ :=
    Exchange.Mirrors.empty.serve hmemory requests (s := ⟨Store.empty, .empty⟩)
  have hfew : served.1.countP (·.adds) < 2 ^ 63 := by decide +kernel
  have hrules : served.2.storage.rules = [left] := by decide +kernel
  have hshown : Exchange.shown served.1 = served.2.storage.rules.map (·.toJson.render) :=
    hmirrors.shown (hmirrors.count ▸ hfew)
  refine ⟨hstatus, ?_⟩
  rw [(hlist rfl rfl hfew).2, hshown, hrules]
  simp

end Criteria.Api
