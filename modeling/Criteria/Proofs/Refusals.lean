import Criteria.Proofs.Stored

/-!
# Which requests for new rules are refused

A request to create or to combine goes through three kinds of checks: what is
demanded of its values, strictness and depth. The values are looked at first, all of
them, and then the texts one after the other, so of a request to combine the first
text that would be refused by itself gives the failure (`Service.readAll_error_iff`).
`CreateRequest.Refused` and `CombineRequest.Refused` say for which requests there is a
failure, and which one.

That a repository is not asked for anything is not to be seen in its state, since
another repository might not show it. It is seen in a record that the repository
keeps of what it is asked for (`Repository.recording`). A refused request adds nothing
to the record and any other request one rule (`Api.Creates`), and the answers are
those of the repository without the record.
-/

namespace Criteria

/-! ## Refused texts -/

/-- A text is refused with a code and a failure: in strict mode for its first fault,
and in either mode for the depth of its tree. -/
inductive Mode.Refuses (mode : Mode) (text : String) : String → Failure → Prop where
  | unreadable {fault : ParseFault} (hstrict : mode = .strict)
      (hfault : Mode.strict.parse text = .error fault) :
      Refuses mode text "RULE_PARSE_ERROR" (.unreadable fault.message)
  | tooDeep (hread : mode = .strict → ∃ root, Mode.strict.parse text = .ok root)
      (hdeep : 512 < (Tree.parse text).depth) :
      Refuses mode text "VALIDATION_ERROR" (Service.tooDeep (Tree.parse text).depth)

namespace Mode

variable {mode : Mode} {text : String}

theorem Refuses.code_eq {code : String} {f : Failure} (h : mode.Refuses text code f) :
    f.code = code ∧ f.status = 400 := by
  cases h <;> exact ⟨rfl, rfl⟩

theorem parse_error_iff {fault : ParseFault} : mode.parse text = .error fault ↔
    mode = .strict ∧ Mode.strict.parse text = .error fault := by
  cases mode with
  | lenient => exact ⟨fun h => (by cases h), fun h => (by cases h.1)⟩
  | strict => exact ⟨fun h => ⟨rfl, h⟩, fun h => h.2⟩

end Mode

namespace Service

variable {σ : Type} {svc : Service σ}

theorem read_error_iff {text : String} {f : Failure} :
    svc.read text = .error f ↔ ∃ code, svc.mode.Refuses text code f := by
  rw [read]
  cases hparse : svc.mode.parse text with
  | error fault =>
      obtain ⟨hstrict, hfault⟩ := Mode.parse_error_iff.1 hparse
      constructor
      · intro h
        cases h
        exact ⟨_, .unreadable hstrict hfault⟩
      · rintro ⟨code, ⟨-, hfault'⟩ | ⟨hread, -⟩⟩
        · rw [hfault] at hfault'
          cases hfault'
          rfl
        · obtain ⟨root, hroot⟩ := hread hstrict
          rw [hfault] at hroot
          cases hroot
  | ok root =>
      obtain rfl := Mode.parse_ok hparse
      constructor
      · intro h
        simp only at h
        split at h
        · next hdeep =>
            cases h
            exact ⟨_, .tooDeep (fun hstrict => ⟨_, hstrict ▸ hparse⟩) hdeep⟩
        · cases h
      · rintro ⟨code, ⟨hstrict, hfault⟩ | ⟨-, hdeep⟩⟩
        · rw [hstrict, hfault] at hparse
          cases hparse
        · exact if_pos hdeep

theorem read_ok_iff {text : String} :
    (∃ root, svc.read text = .ok root) ↔ ∀ code f, ¬ svc.mode.Refuses text code f := by
  constructor
  · rintro ⟨root, hok⟩ code f h
    rw [read_error_iff.2 ⟨code, h⟩] at hok
    cases hok
  · intro h
    cases hread : svc.read text with
    | ok root => exact ⟨root, rfl⟩
    | error f =>
        obtain ⟨code, hrefuses⟩ := read_error_iff.1 hread
        exact absurd hrefuses (h code f)

/-- The failure of several texts is that of the first one that is refused. -/
theorem readAll_error_iff {texts : List String} {f : Failure} : svc.readAll texts = .error f ↔
    ∃ before text after, texts = before ++ text :: after ∧
      (∀ t ∈ before, ∃ root, svc.read t = .ok root) ∧ svc.read text = .error f := by
  induction texts with
  | nil =>
      constructor
      · exact fun h => by cases h
      · rintro ⟨before, text, after, h, -⟩
        exact absurd h.symm (List.append_ne_nil_of_right_ne_nil _ (List.cons_ne_nil _ _))
  | cons t rest ih =>
      rw [readAll]
      cases hread : svc.read t with
      | error g =>
          constructor
          · intro h
            cases h
            exact ⟨[], t, rest, rfl, fun _ h => (by cases h), hread⟩
          · rintro ⟨_ | ⟨t', before⟩, text, after, heq, hbefore, hrefused⟩
            · cases heq
              rw [hread] at hrefused
              cases hrefused
              rfl
            · cases heq
              obtain ⟨root, hroot⟩ := hbefore t List.mem_cons_self
              rw [hread] at hroot
              cases hroot
      | ok root =>
          have hskip : (∃ before text after, t :: rest = before ++ text :: after ∧
              (∀ t ∈ before, ∃ root, svc.read t = .ok root) ∧ svc.read text = .error f) ↔
              svc.readAll rest = .error f := by
            rw [ih]
            constructor
            · rintro ⟨_ | ⟨t', before⟩, text, after, heq, hbefore, hrefused⟩
              · cases heq
                rw [hread] at hrefused
                cases hrefused
              · cases heq
                exact ⟨before, text, after, rfl, (List.forall_mem_cons.1 hbefore).2, hrefused⟩
            · rintro ⟨before, text, after, rfl, hbefore, hrefused⟩
              exact ⟨t :: before, text, after, rfl,
                List.forall_mem_cons.2 ⟨⟨root, hread⟩, hbefore⟩, hrefused⟩
          rw [hskip]
          cases svc.readAll rest with
          | error g => exact Iff.rfl
          | ok roots => exact ⟨fun h => (by cases h), fun h => (by cases h)⟩

end Service

/-! ## Refused requests -/

namespace Api

open Http

/-- A request to create is refused with a code and a failure. -/
inductive CreateRequest.Refused (mode : Mode) (q : CreateRequest) : String → Failure → Prop where
  | missing (hmissing : q.ruleString = none) :
      Refused mode q "VALIDATION_ERROR" (invalid "rule_string" ["ruleString 不能为空"])
  | tooLong {text : String} (htext : q.ruleString = some text) (hlong : 4096 < text.length) :
      Refused mode q "VALIDATION_ERROR" (invalid "rule_string" [Api.tooLong])
  | text {text code : String} {f : Failure} (htext : q.ruleString = some text)
      (hshort : text.length ≤ 4096) (h : mode.Refuses text code f) : Refused mode q code f

/-- A request to combine is refused with a code and a failure. What is demanded of its
values is demanded of all texts, whichever of them can be read; else the first text
that is refused by itself gives the failure. -/
inductive CombineRequest.Refused (mode : Mode) (q : CombineRequest) : String → Failure → Prop where
  | invalid (hinvalid : 100 < q.texts.length ∨ ∃ text ∈ q.texts, 4096 < text.length) :
      Refused mode q "VALIDATION_ERROR" (Api.invalid "ruleStrings" q.complaints)
  | text {before after : List String} {text code : String} {f : Failure}
      (hfew : q.texts.length ≤ 100) (hshort : ∀ text ∈ q.texts, text.length ≤ 4096)
      (htexts : q.texts = before ++ text :: after)
      (hbefore : ∀ t ∈ before, ∀ code f, ¬ mode.Refuses t code f)
      (h : mode.Refuses text code f) : Refused mode q code f

theorem CreateRequest.Refused.code_eq {mode : Mode} {q : CreateRequest} {code : String}
    {f : Failure} (h : q.Refused mode code f) : f.code = code ∧ f.status = 400 := by
  cases h with
  | missing => exact ⟨rfl, rfl⟩
  | tooLong => exact ⟨rfl, rfl⟩
  | text _ _ h => exact h.code_eq

theorem CombineRequest.Refused.code_eq {mode : Mode} {q : CombineRequest} {code : String}
    {f : Failure} (h : q.Refused mode code f) : f.code = code ∧ f.status = 400 := by
  cases h with
  | invalid => exact ⟨rfl, rfl⟩
  | text _ _ _ _ h => exact h.code_eq

section Service

variable {σ : Type} {svc : Service σ}

theorem isTooLong_iff {text : String} : isTooLong text = true ↔ 4096 < text.length :=
  decide_eq_true_iff

theorem CreateRequest.refused_iff {q : CreateRequest} {f : Failure} :
    (∃ code, q.Refused svc.mode code f) ↔
      q.validate = .error f ∨ ∃ text, q.validate = .ok text ∧ svc.read text = .error f := by
  rw [validate]
  constructor
  · rintro ⟨code, hmissing | ⟨htext, hlong⟩ | ⟨htext, hshort, h⟩⟩
    · rw [hmissing]
      exact Or.inl rfl
    · rw [htext]
      exact Or.inl (if_pos (isTooLong_iff.2 hlong))
    · rw [htext]
      refine Or.inr ⟨_, if_neg fun hlong => ?_, Service.read_error_iff.2 ⟨_, h⟩⟩
      exact absurd (isTooLong_iff.1 hlong) (Nat.not_lt.2 hshort)
  · cases htext : q.ruleString with
    | none =>
        rintro (h | ⟨text, h, -⟩)
        · cases h
          exact ⟨_, .missing htext⟩
        · cases h
    | some text =>
        by_cases hlong : isTooLong text = true
        · simp only [if_pos hlong]
          rintro (h | ⟨text, h, -⟩)
          · cases h
            exact ⟨_, .tooLong htext (isTooLong_iff.1 hlong)⟩
          · cases h
        · simp only [if_neg hlong]
          rintro (h | ⟨text, h, hread⟩)
          · cases h
          · cases h
            obtain ⟨code, h⟩ := Service.read_error_iff.1 hread
            exact ⟨code, .text htext (Nat.not_lt.1 (mt isTooLong_iff.2 hlong)) h⟩

theorem CreateRequest.validate_ok {q : CreateRequest} {text : String}
    (h : q.validate = .ok text) : q.ruleString = some text := by
  rw [validate] at h
  split at h
  · cases h
  · next htext =>
      split at h
      · cases h
      · cases h
        exact htext

theorem CombineRequest.validate_ok {q : CombineRequest} {texts : List String}
    (h : q.validate = .ok texts) : texts = q.texts := by
  rw [validate] at h
  split at h
  · cases h
    rfl
  · cases h

theorem CombineRequest.complaints_iff {q : CombineRequest} : q.complaints.isEmpty = true ↔
    q.texts.length ≤ 100 ∧ ∀ text ∈ q.texts, text.length ≤ 4096 := by
  have hlength : ∀ text : String, isTooLong text = false ↔ text.length ≤ 4096 := fun text => by
    rw [← Nat.not_lt, ← isTooLong_iff, Bool.not_eq_true]
  simp [complaints, maxTexts, hlength]

theorem CombineRequest.refused_iff {q : CombineRequest} {f : Failure} :
    (∃ code, q.Refused svc.mode code f) ↔
      q.validate = .error f ∨ ∃ texts, q.validate = .ok texts ∧ svc.readAll texts = .error f := by
  rw [validate]
  by_cases hvalid : q.complaints.isEmpty = true
  · obtain ⟨hfew, hshort⟩ := complaints_iff.1 hvalid
    simp only [if_pos hvalid]
    constructor
    · rintro ⟨code, hinvalid | ⟨-, -, htexts, hbefore, h⟩⟩
      · rcases hinvalid with hmany | ⟨text, htext, hlong⟩
        · exact absurd hmany (Nat.not_lt.2 hfew)
        · exact absurd hlong (Nat.not_lt.2 (hshort text htext))
      · refine Or.inr ⟨_, rfl, Service.readAll_error_iff.2 ⟨_, _, _, htexts, ?_, ?_⟩⟩
        · exact fun t ht => Service.read_ok_iff.2 (hbefore t ht)
        · exact Service.read_error_iff.2 ⟨code, h⟩
    · rintro (h | ⟨texts, h, hread⟩)
      · cases h
      · cases h
        obtain ⟨before, text, after, htexts, hbefore, hread⟩ := Service.readAll_error_iff.1 hread
        obtain ⟨code, h⟩ := Service.read_error_iff.1 hread
        exact ⟨code, .text hfew hshort htexts
          (fun t ht => Service.read_ok_iff.1 (hbefore t ht)) h⟩
  · simp only [if_neg hvalid]
    constructor
    · rintro ⟨code, hinvalid | ⟨hfew, hshort, -⟩⟩
      · exact Or.inl rfl
      · exact absurd (complaints_iff.2 ⟨hfew, hshort⟩) hvalid
    · rintro (h | ⟨texts, h, -⟩)
      · cases h
        refine ⟨_, .invalid ?_⟩
        by_contra hnone
        push Not at hnone
        exact hvalid (complaints_iff.2 hnone)
      · cases h

end Service

end Api

/-! ## What a repository is asked for -/

namespace Repository

/-- The repository with a record of the rules that it is asked to keep. -/
def recording {σ : Type} (r : Repository σ) : Repository (σ × List (String × Tree)) :=
  let beside {α : Type} (act : Action σ α) : Action (σ × List (String × Tree)) α := fun s =>
    let (result, storage) := act s.1
    (result, storage, s.2)
  { create := fun text root s =>
      let (result, storage) := r.create text root s.1
      (result, storage, s.2 ++ [(text, root)])
    listAll := beside r.listAll
    contains := fun id => beside (r.contains id)
    delete := fun id => beside (r.delete id)
    ping := beside r.ping }

end Repository

namespace Service

def recording {σ : Type} (svc : Service σ) : Service (σ × List (String × Tree)) :=
  ⟨svc.repository.recording, svc.mode⟩

theorem keep_recording {σ : Type} (svc : Service σ) (m : Mutation) (text : String) (root : Tree)
    (s : ServiceState σ) (past : List (String × Tree)) :
    svc.recording.keep m text root ⟨(s.storage, past), s.metrics⟩ =
      ((svc.keep m text root s).1, ⟨((svc.keep m text root s).2.storage, past ++ [(text, root)]),
        (svc.keep m text root s).2.metrics⟩) := by
  simp only [keep, recording, Repository.recording]
  cases (svc.repository.create text root s.storage).1 <;> rfl

end Service

namespace Api

open Http

section Requests

variable {σ : Type}

/-- While a request is answered the repository is asked to keep these texts and trees
and no others, and the record of it is without effect. -/
def Creates (svc : Service σ) (fresh : String) (r : Request) (s : ServiceState σ)
    (asked : List (String × Tree)) : Prop :=
  ∀ past, handle svc.recording fresh r ⟨(s.storage, past), s.metrics⟩ =
    ((handle svc fresh r s).1, ⟨((handle svc fresh r s).2.storage, past ++ asked),
      (handle svc fresh r s).2.metrics⟩)

/-- The answer is a failure of the client's, and the repository was not asked. -/
structure Refuses (svc : Service σ) (fresh : String) (r : Request) (s : ServiceState σ)
    (code : String) (f : Failure) : Prop where
  response : (handle svc fresh r s).1 = (failed f).withRequestId (r.id fresh)
  status : (handle svc fresh r s).1.status = 400
  code : f.code = code
  storage : (handle svc fresh r s).2.storage = s.storage
  creates : Creates svc fresh r s []

/-- The answer is the rule that the repository was asked for once. -/
structure Accepts (svc : Service σ) (fresh : String) (r : Request) (s : ServiceState σ)
    (text : String) (root : Tree) (rule : Rule) : Prop where
  response : (handle svc fresh r s).1 = (Response.json 200 rule.toJson).withRequestId (r.id fresh)
  status : (handle svc fresh r s).1.status = 200
  storage : svc.repository.create text root s.storage = (.ok rule, (handle svc fresh r s).2.storage)
  creates : Creates svc fresh r s [(text, root)]

variable {fresh : String} {r : Request} {route : Route} {values : List String} {e : Endpoint}
  {svc : Service σ} {s : ServiceState σ}

theorem handle_post (fresh : String) (hroute : route? r.path = some (route, values))
    (hpost : r.method = "POST") (he : route.endpoint? "POST" = some e) (svc : Service σ)
    (s : ServiceState σ) : handle svc fresh r s =
    ((perform svc e values r s).1.withRequestId (r.id fresh),
      countRequest (perform svc e values r s).2
        (requestSeries r (some route.template) (perform svc e values r s).1.status)) := by
  have hhead : ("POST" : String) ≠ "HEAD" := by decide
  simp only [handle, hroute, dispatch, hpost, he, if_neg hhead]
  rfl

/-- An endpoint checks what it is given and reads what it is to keep, whatever the
repository: it fails where one of the two fails, and else has the rule kept. -/
def Writes {β : Type} (mode : Mode) (e : Endpoint) (values : List String) (r : Request)
    (m : Mutation) (checked : Except Failure β) (wanted : β → Except Failure (String × Tree)) :
    Prop :=
  ∀ (τ : Type) (svc : Service τ) (s : ServiceState τ), svc.mode = mode →
    perform svc e values r s =
      match checked with
      | .error f => (failed f, s)
      | .ok b =>
        match wanted b with
        | .error f => (failed f, Service.counted s m .rejected)
        | .ok (text, root) =>
          (answer (fun rule => .json 200 rule.toJson) (svc.keep m text root s).1,
            (svc.keep m text root s).2)

section Writes

variable {β : Type} {m : Mutation} {checked : Except Failure β}
  {wanted : β → Except Failure (String × Tree)}
  (hroute : route? r.path = some (route, values)) (hpost : r.method = "POST")
  (he : route.endpoint? "POST" = some e) (h : Writes svc.mode e values r m checked wanted)
include hroute hpost he h

theorem Writes.refuses {code : String} {f : Failure} (hcode : f.code = code ∧ f.status = 400)
    (hf : checked = .error f ∨ ∃ b, checked = .ok b ∧ wanted b = .error f) :
    Refuses svc fresh r s code f := by
  -- A failed check and a failed reading differ in what is counted only.
  obtain ⟨count, hperform⟩ : ∃ count : Metrics → Metrics, ∀ {τ : Type} (svc' : Service τ)
      (s' : ServiceState τ), svc'.mode = svc.mode →
        perform svc' e values r s' = (failed f, ⟨s'.storage, count s'.metrics⟩) := by
    rcases hf with rfl | ⟨b, rfl, hb⟩
    · exact ⟨id, h _⟩
    · refine ⟨(·.count (.mutation m .rejected)), fun svc' s' hmode => ?_⟩
      rw [h _ svc' s' hmode]
      simp only [hb]
      rfl
  have hhandle := handle_post fresh hroute hpost he svc s
  rw [hperform svc s rfl] at hhandle
  refine ⟨?_, ?_, hcode.1, ?_, fun past => ?_⟩
  · rw [hhandle]
  · rw [hhandle]
    exact hcode.2
  · rw [hhandle]
    rfl
  · rw [hhandle, handle_post fresh hroute hpost he, hperform svc.recording _ rfl, List.append_nil]
    rfl

theorem Writes.accepts {b : β} {text : String} {root : Tree} {rule : Rule} {storage : σ}
    (hchecked : checked = .ok b) (hwanted : wanted b = .ok (text, root))
    (hcreate : svc.repository.create text root s.storage = (.ok rule, storage)) :
    Accepts svc fresh r s text root rule := by
  have hperform : ∀ {τ : Type} (svc' : Service τ) (s' : ServiceState τ), svc'.mode = svc.mode →
      perform svc' e values r s' =
        (answer (fun rule => .json 200 rule.toJson) (svc'.keep m text root s').1,
          (svc'.keep m text root s').2) := fun svc' s' hmode => by
    rw [h _ svc' s' hmode, hchecked]
    simp only [hwanted]
  have hkeep : svc.keep m text root s =
      (.ok rule, Service.counted ⟨storage, s.metrics⟩ m .success) := by
    simp only [Service.keep, hcreate]
  have hhandle := handle_post fresh hroute hpost he svc s
  rw [hperform svc s rfl, hkeep] at hhandle
  refine ⟨?_, ?_, ?_, fun past => ?_⟩
  · rw [hhandle]
    rfl
  · rw [hhandle]
    rfl
  · rw [hhandle, hcreate]
    rfl
  · rw [hhandle, handle_post fresh hroute hpost he, hperform svc.recording _ rfl,
      Service.keep_recording, hkeep]
    rfl

end Writes

theorem writes_createRule (svc : Service σ) (values : List String) {q : CreateRequest}
    (hbody : body CreateRequest.read r = .ok q) :
    Writes svc.mode .createRule values r .create q.validate
      fun text => (svc.read text).map (text, ·) := by
  intro τ svc' s' hmode
  simp only [perform, onBody, hbody]
  cases q.validate with
  | error f => rfl
  | ok text =>
      simp only [Service.create, Service.read_congr hmode]
      cases svc.read text <;> rfl

theorem writes_combineRules (svc : Service σ) (values : List String) {q : CombineRequest}
    (hbody : body CombineRequest.read r = .ok q) :
    Writes svc.mode .combineRules values r .combine q.validate
      fun texts => (svc.readAll texts).map fun roots =>
        (Rule.joinTexts texts, Tree.orChain roots) := by
  intro τ svc' s' hmode
  simp only [perform, onBody, hbody]
  cases q.validate with
  | error f => rfl
  | ok texts =>
      simp only [Service.combine, Service.readAll_congr hmode]
      cases svc.readAll texts <;> rfl

end Requests

theorem map_error_iff {α β : Type} {x : Except Failure α} {g : α → β} {f : Failure} :
    x.map g = .error f ↔ x = .error f := by
  cases x with
  | error f' =>
      rw [Except.map, Except.error.injEq, Except.error.injEq]
  | ok a => exact ⟨fun h => (by cases h), fun h => (by cases h)⟩

theorem exists_ok {β γ : Type} {checked : Except Failure β} (next : β → Except Failure γ)
    (h : ∀ f, ¬ (checked = .error f ∨ ∃ b, checked = .ok b ∧ next b = .error f)) :
    ∃ b c, checked = .ok b ∧ next b = .ok c := by
  cases checked with
  | error f => exact absurd (Or.inl rfl) (h f)
  | ok b =>
      cases hnext : next b with
      | error f => exact absurd (Or.inr ⟨b, rfl, hnext⟩) (h f)
      | ok c => exact ⟨b, c, rfl, hnext⟩

/-- For which requests to create or to combine a rule there is which failure, and that
the repository is asked to keep a rule for the others alone. -/
theorem new_rules_refused_or_kept (mode : Mode) (fresh : String) {r : Request}
    (hpost : r.method = "POST") (s : ServiceState Store) :
    let svc : Service Store := ⟨.memory, mode⟩
    (∀ q, r.path = "/api/rules" → body CreateRequest.read r = .ok q →
      (∀ code f, q.Refused mode code f → Refuses svc fresh r s code f) ∧
      ((∀ code f, ¬ q.Refused mode code f) → ∃ text, q.ruleString = some text ∧
        Accepts svc fresh r s text (Tree.parse text)
          (s.storage.create text (Tree.parse text)).1)) ∧
    ∀ q, r.path = "/api/rules/combine" → body CombineRequest.read r = .ok q →
      (∀ code f, q.Refused mode code f → Refuses svc fresh r s code f) ∧
      ((∀ code f, ¬ q.Refused mode code f) →
        Accepts svc fresh r s (Rule.joinTexts q.texts) (Tree.orChain (q.texts.map Tree.parse))
          (s.storage.create (Rule.joinTexts q.texts)
            (Tree.orChain (q.texts.map Tree.parse))).1) := by
  intro svc
  constructor
  · intro q hpath hbody
    have hroute : route? r.path = some (⟨plainPath ["api", "rules"],
        [("POST", .createRule), ("GET", .listRules)]⟩, []) := by
      rw [hpath]
      rfl
    have hwrites := writes_createRule svc [] hbody
    refine ⟨fun code f h => ?_, fun hnone => ?_⟩
    · refine hwrites.refuses hroute hpost rfl h.code_eq ?_
      simp only [map_error_iff]
      exact CreateRequest.refused_iff.1 ⟨code, h⟩
    · obtain ⟨text, root, hvalid, hread⟩ := exists_ok svc.read fun f h => by
        obtain ⟨code, h⟩ := CreateRequest.refused_iff.2 h
        exact hnone code f h
      obtain rfl := Service.read_ok hread
      refine ⟨text, CreateRequest.validate_ok hvalid,
        hwrites.accepts hroute hpost rfl hvalid ?_ rfl⟩
      rw [hread]
      rfl
  · intro q hpath hbody
    have hroute : route? r.path = some (⟨plainPath ["api", "rules", "combine"],
        [("POST", .combineRules)]⟩, []) := by
      rw [hpath]
      rfl
    have hwrites := writes_combineRules svc [] hbody
    refine ⟨fun code f h => ?_, fun hnone => ?_⟩
    · refine hwrites.refuses hroute hpost rfl h.code_eq ?_
      simp only [map_error_iff]
      exact CombineRequest.refused_iff.1 ⟨code, h⟩
    · obtain ⟨texts, roots, hvalid, hread⟩ := exists_ok svc.readAll fun f h => by
        obtain ⟨code, h⟩ := CombineRequest.refused_iff.2 h
        exact hnone code f h
      obtain ⟨-, rfl⟩ := Service.readAll_ok_iff.1 hread
      obtain rfl := CombineRequest.validate_ok hvalid
      refine hwrites.accepts hroute hpost rfl hvalid ?_ rfl
      rw [hread]
      rfl

/-- Of three texts the second and the third are faulty; the first one alone is kept. -/
theorem new_rules_refused_or_kept_second_text :
    let svc : Service Store := ⟨.memory, .strict⟩
    let json := [("content-type", "application/json")]
    let combine : Request := ⟨"POST", "/api/rules/combine", json,
      "[\"age > 30\",\"age >\",\"(salary\"]"⟩
    let create : Request := ⟨"POST", "/api/rules", json, "\x7b\"ruleString\":\"age > 30\"\x7d"⟩
    let s : ServiceState Store := ⟨.empty, .empty⟩
    Refuses svc "1" combine s "RULE_PARSE_ERROR"
        (.unreadable (ParseFault.malformedCondition "age >").message) ∧
      Accepts svc "2" create s "age > 30" (.ofCondition "age > 30")
        ⟨1, "age > 30", .ofCondition "age > 30"⟩ := by
  intro svc json combine create s
  have hread : svc.read "age > 30" = .ok (.ofCondition "age > 30") := by decide +kernel
  have hfault : Mode.strict.parse "age >" = .error (.malformedCondition "age >") := by
    decide +kernel
  constructor
  · have hbody : body CombineRequest.read combine = .ok ⟨["age > 30", "age >", "(salary"]⟩ := by
      decide +kernel
    have htexts : ["age > 30", "age >", "(salary"] = ["age > 30"] ++ "age >" :: ["(salary"] := rfl
    obtain ⟨-, hcombine⟩ := new_rules_refused_or_kept .strict "1" (r := combine) rfl s
    refine (hcombine _ rfl hbody).1 _ _
      (.text (by decide) (by decide) htexts ?_ (.unreadable rfl hfault))
    intro t ht
    rw [List.mem_singleton.1 ht]
    exact Service.read_ok_iff.1 ⟨_, hread⟩
  · have hbody : body CreateRequest.read create = .ok ⟨some "age > 30"⟩ := by decide +kernel
    obtain ⟨hcreate, -⟩ := new_rules_refused_or_kept .strict "2" (r := create) rfl s
    have hnone : ∀ code f, ¬ CreateRequest.Refused .strict ⟨some "age > 30"⟩ code f := by
      intro code f h
      have hrefused : ∃ code, CreateRequest.Refused svc.mode ⟨some "age > 30"⟩ code f := ⟨code, h⟩
      rcases CreateRequest.refused_iff.1 hrefused with hvalid | ⟨text, hvalid, hrefused⟩
      · cases hvalid
      · cases hvalid
        rw [hread] at hrefused
        cases hrefused
    obtain ⟨text, htext, haccepts⟩ := (hcreate _ rfl hbody).2 hnone
    cases htext
    rw [← Service.read_ok hread] at haccepts
    exact haccepts

end Api

end Criteria
