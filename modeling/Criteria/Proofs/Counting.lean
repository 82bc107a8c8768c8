import Criteria.Proofs.Stored
import Mathlib.Algebra.GroupWithZero.Nat

/-!
# What is counted

Every call of a service that changes rules is counted once, in the series that says
what became of it (`Call.series?`): it was refused by the reader, or the repository
answered, and how. An evaluation is counted if it came out. This holds whatever the
repository is (`Call.get_run`).

For a store in memory the counters are tied to the rules, even if its operations are
refused now and then. A call that succeeds is one that changes the rules, so what
carries through a run is `Accounts`: the rules there are, and the deletes that
succeeded, make up the creations that succeeded. That a creation adds a rule and does
not replace one needs numbers that differ, and they have 64 bits.
-/

namespace Criteria

/-! ## Counters -/

namespace Metrics

theorem lookup_bump (s t : Series) (counts : List (Series × Nat)) :
    ((bump s counts).lookup t).getD 0 = (counts.lookup t).getD 0 + if s = t then 1 else 0 := by
  induction counts with
  | nil =>
      by_cases h : s = t
      · simp [bump, h]
      · simp [bump, h, List.lookup_cons, beq_eq_false_iff_ne.2 (Ne.symm h)]
  | cons entry counts ih =>
      obtain ⟨u, n⟩ := entry
      rw [bump]
      by_cases hu : u = s
      · rw [if_pos hu, hu]
        by_cases h : s = t
        · simp [h]
        · simp [h, List.lookup_cons, beq_eq_false_iff_ne.2 (Ne.symm h)]
      · rw [if_neg hu]
        by_cases ht : t = u
        · rw [ht, List.lookup_cons_self, List.lookup_cons_self, if_neg (Ne.symm hu)]
          rfl
        · rw [List.lookup_cons, List.lookup_cons, beq_eq_false_iff_ne.2 ht]
          exact ih

theorem get_count (m : Metrics) (s t : Series) :
    (m.count s).get t = m.get t + if s = t then 1 else 0 :=
  lookup_bump s t m.counts

/-- What some series have counted together. -/
def sumOf (p : Series → Bool) (m : Metrics) : Nat :=
  ((m.counts.filter (p ·.1)).map (·.2)).sum

theorem sumOf_count (p : Series → Bool) (m : Metrics) (s : Series) :
    sumOf p (m.count s) = sumOf p m + if p s then 1 else 0 := by
  have hbump : ∀ counts : List (Series × Nat),
      (((bump s counts).filter (p ·.1)).map (·.2)).sum =
        ((counts.filter (p ·.1)).map (·.2)).sum + if p s then 1 else 0 := by
    intro counts
    induction counts with
    | nil => cases h : p s <;> simp [bump, h]
    | cons entry counts ih =>
        obtain ⟨u, n⟩ := entry
        rw [bump]
        by_cases hu : u = s
        · rw [if_pos hu, hu]
          cases h : p s
          · simp [h]
          · simp only [List.filter_cons, h, if_true, List.map_cons, List.sum_cons]
            omega
        · rw [if_neg hu]
          cases h : p u
          · simpa only [List.filter_cons, h, Bool.false_eq_true, if_false] using ih
          · simp only [List.filter_cons, h, if_true, List.map_cons, List.sum_cons, ih]
            omega
  exact hbump m.counts

end Metrics

/-! ## Calls -/

/-- The results with which an operation is counted. -/
def Mutation.results : Mutation → List MutationResult
  | create => [.success, .rejected, .error]
  | combine => [.success, .rejected, .error]
  | delete => [.success, .notFound, .error]

theorem Mutation.nodup_results (op : Mutation) : op.results.Nodup := by
  cases op <;> decide

theorem sum_map_add_one {α : Type} [DecidableEq α] {l : List α} (hl : l.Nodup) {a : α} (ha : a ∈ l)
    (f : α → Nat) : (l.map fun b => f b + if a = b then 1 else 0).sum = (l.map f).sum + 1 := by
  induction l with
  | nil => cases ha
  | cons b l ih =>
      obtain ⟨hb, hl⟩ := List.nodup_cons.1 hl
      rw [List.map_cons, List.map_cons, List.sum_cons, List.sum_cons]
      rcases List.mem_cons.1 ha with rfl | ha
      · have hrest : (l.map fun b => f b + if a = b then 1 else 0) = l.map f :=
          List.map_congr_left fun b hmem => by
            rw [if_neg (ne_of_mem_of_not_mem hmem hb).symm, Nat.add_zero]
        rw [hrest, if_pos rfl]
        omega
      · rw [ih hl ha, if_neg (ne_of_mem_of_not_mem ha hb)]
        omega

def MutationResult.ofAnswer {α : Type} : Except Failure α → MutationResult
  | .ok _ => success
  | .error _ => error

theorem MutationResult.ofAnswer_eq_success {α : Type} {answer : Except Failure α} :
    MutationResult.ofAnswer answer = .success ↔ ∃ a, answer = .ok a := by
  cases answer with
  | ok a => exact iff_of_true rfl ⟨a, rfl⟩
  | error f =>
      refine iff_of_false (fun h => by cases h) ?_
      rintro ⟨_, h⟩
      cases h

theorem MutationResult.ofAnswer_mem {α : Type} (answer : Except Failure α) :
    MutationResult.ofAnswer answer ∈ [.success, .rejected, .error] := by
  cases answer <;> simp [MutationResult.ofAnswer]

namespace Service

namespace Call

def operation? {α : Type} : Call α → Option Mutation
  | create _ => some .create
  | combine _ => some .combine
  | delete _ => some .delete
  | _ => none

/-- The series in which a call is counted, by what the reader makes of its texts and
the repository answers. -/
def series? {σ α : Type} (svc : Service σ) (storage : σ) : Call α → Option Series
  | create text =>
    some (.mutation .create
      (match svc.read text with
      | .error _ => .rejected
      | .ok root => .ofAnswer (svc.repository.create text root storage).1))
  | combine texts =>
    some (.mutation .combine
      (match svc.readAll texts with
      | .error _ => .rejected
      | .ok roots => .ofAnswer
        (svc.repository.create (Rule.joinTexts texts) (Tree.orChain roots) storage).1))
  | delete id =>
    some (.mutation .delete
      (match (svc.repository.delete id storage).1 with
      | .ok true => .success
      | .ok false => .notFound
      | .error _ => .error))
  | evaluate ctx =>
    match (svc.repository.listAll storage).1 with
    | .ok rules => some (.evaluation (Rule.anyMatch rules ctx))
    | .error _ => none
  | _ => none

/-- How an evaluation came out, if it did. -/
def outcome? {α : Type} : Call α → Except Failure α → Option Outcome
  | evaluate _, .ok o => some o
  | _, _ => none

end Call

section Calls

variable {σ α : Type} (svc : Service σ)

theorem keep_counted (m : Mutation) (text : String) (root : Tree) (s : ServiceState σ) :
    svc.keep m text root s = ((svc.repository.create text root s.storage).1,
      counted ⟨(svc.repository.create text root s.storage).2, s.metrics⟩ m
        (.ofAnswer (svc.repository.create text root s.storage).1)) := by
  simp only [keep]
  cases (svc.repository.create text root s.storage).1 <;> rfl

theorem evaluate_counted (ctx : Context) (s : ServiceState σ) :
    svc.evaluate ctx s =
      match svc.repository.listAll s.storage with
      | (.error f, storage) => (.error f, ⟨storage, s.metrics⟩)
      | (.ok rules, storage) =>
        (.ok (Rule.firstMatch rules ctx), ⟨storage, s.metrics.countEvaluation
          (Rule.firstMatch rules ctx).isMatch (Rule.firstMatch rules ctx).evaluated⟩) := by
  rw [evaluate, list]
  rcases svc.repository.listAll s.storage with ⟨_ | rules, storage⟩ <;> rfl

/-- A call is counted once in its series, and nowhere else; an evaluation that came
out adds the number of rules that it looked at. -/
theorem Call.metrics_run (c : Call α) (s : ServiceState σ) :
    (c.run svc s).2.metrics =
      ⟨((c.series? svc s.storage).elim s.metrics s.metrics.count).counts,
        s.metrics.rulesEvaluated ++
          ((c.outcome? (c.run svc s).1).map (·.evaluated)).toList⟩ := by
  have hnothing : ∀ m : Metrics, m = ⟨m.counts, m.rulesEvaluated ++ []⟩ := fun m => by
    rw [List.append_nil]
  cases c with
  | create text =>
      simp only [run, Service.create, series?, Option.elim_some]
      cases svc.read text with
      | error f => exact hnothing _
      | ok root =>
          simp only [keep_counted]
          exact hnothing _
  | combine texts =>
      simp only [run, Service.combine, series?, Option.elim_some]
      cases svc.readAll texts with
      | error f => exact hnothing _
      | ok roots =>
          simp only [keep_counted]
          exact hnothing _
  | delete id =>
      simp only [run, Service.delete, series?, Option.elim_some]
      cases (svc.repository.delete id s.storage).1 with
      | ok gone => cases gone <;> exact hnothing _
      | error f => exact hnothing _
  | evaluate ctx =>
      rw [run, evaluate_counted, series?]
      rcases svc.repository.listAll s.storage with ⟨f | rules, storage⟩
      · exact hnothing _
      · rfl
  | list => exact hnothing _
  | ping => exact hnothing _

theorem Call.get_run (c : Call α) (s : ServiceState σ) (t : Series) :
    (c.run svc s).2.metrics.get t =
      s.metrics.get t + if c.series? svc s.storage = some t then 1 else 0 := by
  rw [metrics_run]
  cases hseries : c.series? svc s.storage with
  | none => rfl
  | some u =>
      simp only [Option.some.injEq]
      exact Metrics.get_count _ _ _

/-- The series of a call that asks for a change is one of those of its operation, and
it is that of a success just if the call succeeds. -/
theorem Call.series?_of_operation? (c : Call α) (s : ServiceState σ) {op : Mutation}
    (h : c.operation? = some op) : ∃ result ∈ op.results,
      c.series? svc s.storage = some (.mutation op result) ∧
      (result = .success ↔ ∃ a, (c.run svc s).1 = .ok a) := by
  -- A result that is no success is that of a failure.
  have hfailed : ∀ {β : Type} {result : MutationResult} (f : Failure), result ≠ .success →
      (result = .success ↔ ∃ a : β, Except.error f = .ok a) := by
    intro β result f hresult
    refine iff_of_false hresult ?_
    rintro ⟨_, h⟩
    cases h
  cases c with
  | create text =>
      cases h
      simp only [run, Service.create, series?]
      cases svc.read text with
      | error f => exact ⟨.rejected, by decide, rfl, hfailed f (by decide)⟩
      | ok root =>
          simp only [keep_counted]
          exact ⟨_, MutationResult.ofAnswer_mem _, rfl, MutationResult.ofAnswer_eq_success⟩
  | combine texts =>
      cases h
      simp only [run, Service.combine, series?]
      cases svc.readAll texts with
      | error f => exact ⟨.rejected, by decide, rfl, hfailed f (by decide)⟩
      | ok roots =>
          simp only [keep_counted]
          exact ⟨_, MutationResult.ofAnswer_mem _, rfl, MutationResult.ofAnswer_eq_success⟩
  | delete id =>
      cases h
      simp only [run, Service.delete, series?]
      cases (svc.repository.delete id s.storage).1 with
      | error f => exact ⟨.error, by decide, rfl, hfailed f (by decide)⟩
      | ok gone =>
          cases gone with
          | false => exact ⟨.notFound, by decide, rfl, hfailed _ (by decide)⟩
          | true => exact ⟨.success, by decide, rfl, iff_of_true rfl ⟨(), rfl⟩⟩
  | evaluate ctx => cases h
  | list => cases h
  | ping => cases h

theorem Call.series?_of_no_operation (c : Call α) (s : ServiceState σ)
    (h : c.operation? = none) (op : Mutation) (result : MutationResult) :
    c.series? svc s.storage ≠ some (.mutation op result) := by
  cases c with
  | create text => cases h
  | combine texts => cases h
  | delete id => cases h
  | evaluate ctx =>
      rw [series?]
      split
      · exact fun h => by cases h
      · exact fun h => by cases h
  | list => exact fun h => by cases h
  | ping => exact fun h => by cases h

theorem Call.get_success (c : Call α) (s : ServiceState σ) (op : Mutation) :
    (c.run svc s).2.metrics.get (.mutation op .success) =
      s.metrics.get (.mutation op .success) +
        if c.operation? = some op ∧ (c.run svc s).1.isOk = true then 1 else 0 := by
  have hok : ∀ {β : Type} (answer : Except Failure β),
      answer.isOk = true ↔ ∃ a, answer = .ok a := by
    intro β answer
    cases answer with
    | ok a => exact iff_of_true rfl ⟨a, rfl⟩
    | error f => exact iff_of_false (fun h => by cases h) fun ⟨_, h⟩ => by cases h
  rw [get_run]
  congr 1
  refine if_congr ?_ rfl rfl
  cases hop : c.operation? with
  | none =>
      refine iff_of_false (c.series?_of_no_operation svc s hop op _) fun h => by cases h.1
  | some op' =>
      obtain ⟨result, -, hseries, hsuccess⟩ := c.series?_of_operation? svc s hop
      rw [hseries, hok, ← hsuccess]
      simp

/-- An operation is counted with one of its results each time that it is asked for. -/
theorem Call.sum_results (c : Call α) (s : ServiceState σ) (op : Mutation) :
    (op.results.map fun result => (c.run svc s).2.metrics.get (.mutation op result)).sum =
      (op.results.map fun result => s.metrics.get (.mutation op result)).sum +
        if c.operation? = some op then 1 else 0 := by
  simp only [get_run]
  cases hop : c.operation? with
  | none =>
      have hnone := c.series?_of_no_operation svc s hop op
      simp [hnone]
  | some op' =>
      obtain ⟨result, hresult, hseries, -⟩ := c.series?_of_operation? svc s hop
      rw [hseries]
      by_cases h : op' = op
      · subst h
        simpa using sum_map_add_one op'.nodup_results hresult fun result =>
          s.metrics.get (.mutation op' result)
      · simp [h]

theorem Call.get_evaluation (c : Call α) (s : ServiceState σ) (isMatch : Bool) :
    (c.run svc s).2.metrics.get (.evaluation isMatch) = s.metrics.get (.evaluation isMatch) +
      ((c.outcome? (c.run svc s).1).toList.countP (·.isMatch == isMatch)) := by
  rw [get_run]
  congr 1
  cases c with
  | evaluate ctx =>
      rw [run, evaluate_counted, series?]
      rcases svc.repository.listAll s.storage with ⟨f | rules, storage⟩
      · rfl
      · show (if some (Series.evaluation (Rule.firstMatch rules ctx).isMatch) = _ then 1 else 0) =
          [Rule.firstMatch rules ctx].countP _
        rw [List.countP_singleton]
        simp
  | create text => rfl
  | combine texts => rfl
  | delete id => rfl
  | list => rfl
  | ping => rfl

end Calls

/-! ## Operations that are refused -/

def refusing {σ : Type} (svc : Service σ) (refusal : Repository.Method → Option Failure) :
    Service σ :=
  { svc with repository := svc.repository.refusing refusal }

/-- A call, and the operations of the repository that are refused while it is made. -/
structure Attempt where
  refusal : Repository.Method → Option Failure
  Answer : Type
  call : Call Answer

structure Answered where
  Answer : Type
  call : Call Answer
  answer : Except Failure Answer

def attemptAll {σ : Type} (svc : Service σ) :
    List Attempt → ServiceState σ → List Answered × ServiceState σ
  | [], s => ([], s)
  | a :: rest, s =>
    let (answer, s) := a.call.run (svc.refusing a.refusal) s
    let (more, s) := svc.attemptAll rest s
    (⟨a.Answer, a.call, answer⟩ :: more, s)

section Refusing

variable {σ α : Type} {svc : Service σ}

theorem keep_refusing (refusal : Repository.Method → Option Failure) (m : Mutation) (text : String)
    (root : Tree) (s : ServiceState σ) :
    (svc.refusing refusal).keep m text root s = svc.keep m text root s ∨
      (∃ f, ((svc.refusing refusal).keep m text root s).1 = .error f) ∧
        ((svc.refusing refusal).keep m text root s).2.storage = s.storage := by
  rw [keep_counted, keep_counted]
  simp only [refusing, Repository.refusing]
  cases refusal .create with
  | none => exact Or.inl rfl
  | some f => exact Or.inr ⟨⟨f, rfl⟩, rfl⟩

/-- A call of which an operation is refused fails and leaves the rules alone; else it
is made as if nothing were refused. -/
theorem Call.run_refusing (refusal : Repository.Method → Option Failure) (c : Call α)
    (s : ServiceState σ) :
    c.run (svc.refusing refusal) s = c.run svc s ∨
      (∃ f, (c.run (svc.refusing refusal) s).1 = .error f) ∧
        (c.run (svc.refusing refusal) s).2.storage = s.storage := by
  have hmode : (svc.refusing refusal).mode = svc.mode := rfl
  cases c with
  | create text =>
      simp only [run, Service.create, read_congr hmode]
      cases svc.read text with
      | error f => exact Or.inl rfl
      | ok root => exact keep_refusing refusal _ _ _ _
  | combine texts =>
      simp only [run, Service.combine, readAll_congr hmode]
      cases svc.readAll texts with
      | error f => exact Or.inl rfl
      | ok roots => exact keep_refusing refusal _ _ _ _
  | delete id =>
      simp only [run, Service.delete, refusing, Repository.refusing]
      cases refusal .delete with
      | none => exact Or.inl rfl
      | some f => exact Or.inr ⟨⟨f, rfl⟩, rfl⟩
  | evaluate ctx =>
      rw [run, run, evaluate_counted, evaluate_counted]
      simp only [refusing, Repository.refusing]
      cases refusal .listAll with
      | none => exact Or.inl rfl
      | some f => exact Or.inr ⟨⟨f, rfl⟩, rfl⟩
  | list =>
      simp only [run, Service.list, refusing, Repository.refusing]
      cases refusal .listAll with
      | none => exact Or.inl rfl
      | some f => exact Or.inr ⟨⟨f, rfl⟩, rfl⟩
  | ping =>
      simp only [run, Service.ping, refusing, Repository.refusing]
      cases refusal .ping with
      | none => exact Or.inl rfl
      | some f => exact Or.inr ⟨⟨f, rfl⟩, rfl⟩

theorem Call.changes_error (c : Call α) (f : Failure) : c.changes (.error f) = [] := by
  cases c <;> rfl

theorem Call.run_refusing_becomes {svc : Service Store}
    (hmemory : svc.repository = Repository.memory)
    (refusal : Repository.Method → Option Failure) (c : Call α) (s : ServiceState Store) :
    s.storage.Becomes (c.changes (c.run (svc.refusing refusal) s).1)
      (c.run (svc.refusing refusal) s).2.storage := by
  rcases c.run_refusing refusal s with heq | ⟨⟨f, hf⟩, hsame⟩
  · rw [heq]
    exact c.run_becomes hmemory s
  · rw [hf, hsame, c.changes_error]
    exact .same

end Refusing

/-! ## The rules there are -/

/-- The calls that have made a rule. -/
def made (m : Metrics) : Nat :=
  m.get (.mutation .create .success) + m.get (.mutation .combine .success)

/-- What a call tells of is told by its operation, if it succeeds. -/
theorem Call.length_changes {α : Type} (c : Call α) (answer : Except Failure α) :
    (created (c.changes answer)).length =
        (if c.operation? = some .create ∧ answer.isOk = true then 1 else 0) +
          (if c.operation? = some .combine ∧ answer.isOk = true then 1 else 0) ∧
      (deleted (c.changes answer)).length =
        if c.operation? = some .delete ∧ answer.isOk = true then 1 else 0 := by
  cases c <;> cases answer <;> exact ⟨rfl, rfl⟩

theorem made_run {σ α : Type} (svc : Service σ) (c : Call α) (s : ServiceState σ) :
    made (c.run svc s).2.metrics = made s.metrics + (created (c.changes (c.run svc s).1)).length ∧
      (c.run svc s).2.metrics.get (.mutation .delete .success) =
        s.metrics.get (.mutation .delete .success) +
          (deleted (c.changes (c.run svc s).1)).length := by
  obtain ⟨hcreated, hdeleted⟩ := c.length_changes (c.run svc s).1
  refine ⟨?_, ?_⟩
  · rw [made, made, c.get_success, c.get_success, hcreated]
    omega
  · rw [c.get_success, hdeleted]

end Service

namespace Store

theorem length_filter_id {rules : List Rule} (h : rules.Pairwise (·.id < ·.id)) {id : Int64}
    (hid : ∃ r ∈ rules, r.id = id) : (rules.filter (·.id != id)).length + 1 = rules.length := by
  induction rules with
  | nil =>
      obtain ⟨r, hr, -⟩ := hid
      cases hr
  | cons x rest ih =>
      obtain ⟨hx, hrest⟩ := List.pairwise_cons.1 h
      by_cases hxid : x.id = id
      · have hkept : rest.filter (·.id != id) = rest := by
          refine List.filter_eq_self.2 fun y hy => ?_
          have := Int64.ne_of_lt (hx y hy)
          simpa [← hxid] using this.symm
        rw [List.filter_cons_of_neg (by simpa using hxid), hkept, List.length_cons]
      · have hthere : ∃ r ∈ rest, r.id = id := by
          obtain ⟨r, hr, hrid⟩ := hid
          rcases List.mem_cons.1 hr with rfl | hr
          · exact absurd hrid hxid
          · exact ⟨r, hr, hrid⟩
        rw [List.filter_cons_of_pos (by simpa using hxid), List.length_cons, ih hrest hthere,
          List.length_cons]

theorem length_place_le (r : Rule) (rules : List Rule) :
    (place r rules).length ≤ rules.length + 1 := by
  induction rules with
  | nil => exact Nat.le_refl 1
  | cons x rest ih =>
      rw [place]
      split
      · exact Nat.le_refl _
      · split
        · exact Nat.le_succ _
        · exact Nat.succ_le_succ ih

/-- A rule is added for each that is created, unless one of the same number was there,
and one goes for each that is deleted. -/
theorem Becomes.length_le {s s' : Store} {new : List Change} (h : s.Becomes new s')
    (hs : s.rules.Pairwise (·.id < ·.id)) :
    s'.rules.length + (deleted new).length ≤ s.rules.length + (created new).length := by
  cases h with
  | same => exact Nat.le_refl _
  | create text root => exact length_place_le _ _
  | delete hdelete =>
      obtain ⟨hthere, rfl⟩ := delete_eq_ok.1 hdelete
      exact Nat.le_of_eq (length_filter_id hs hthere)

/-- As long as numbers last, a rule that is created replaces none. -/
theorem Becomes.numbered {s s' : Store} {new : List Change} (h : s.Becomes new s')
    (hs : s.rules.Pairwise (·.id < ·.id)) {n : Nat} (hn : s.Numbered n)
    (hfew : n + (created new).length ≤ UInt64.size) :
    s'.Numbered (n + (created new).length) ∧
      s'.rules.length + (deleted new).length = s.rules.length + (created new).length := by
  cases h with
  | same => exact ⟨hn, rfl⟩
  | create text root =>
      obtain ⟨hnumbered, hperm⟩ := hn.create hfew text root
      exact ⟨hnumbered, hperm.length_eq⟩
  | delete hdelete =>
      obtain ⟨hthere, rfl⟩ := delete_eq_ok.1 hdelete
      exact ⟨⟨hn.next, fun r hr => hn.ids r (List.mem_filter.1 hr).1⟩, length_filter_id hs hthere⟩

end Store

namespace Service

/-- The counters account for the rules, as long as numbers last; there are never more
rules than they say. -/
structure Accounts (s : ServiceState Store) : Prop where
  ascending : s.storage.rules.Pairwise (·.id < ·.id)
  atMost : s.storage.rules.length + s.metrics.get (.mutation .delete .success) ≤ made s.metrics
  numbered : made s.metrics ≤ UInt64.size → s.storage.Numbered (made s.metrics)
  balance : made s.metrics ≤ UInt64.size →
    s.storage.rules.length + s.metrics.get (.mutation .delete .success) = made s.metrics

theorem Accounts.empty : Accounts ⟨.empty, .empty⟩ :=
  ⟨.nil, Nat.le_refl 0, fun _ => ⟨rfl, fun _ hr => (List.not_mem_nil hr).elim⟩, fun _ => rfl⟩

theorem Accounts.step {s s' : ServiceState Store} {new : List Change} (h : Accounts s)
    (hnew : s.storage.Becomes new s'.storage)
    (hmade : made s'.metrics = made s.metrics + (created new).length)
    (hgone : s'.metrics.get (.mutation .delete .success) =
      s.metrics.get (.mutation .delete .success) + (deleted new).length) : Accounts s' := by
  have hnumbered := fun hfew : made s'.metrics ≤ UInt64.size =>
    hnew.numbered h.ascending (h.numbered (by omega)) (hmade ▸ hfew)
  refine ⟨hnew.ascending h.ascending, ?_, fun hfew => ?_, fun hfew => ?_⟩
  · have hlength := hnew.length_le h.ascending
    have hatMost := h.atMost
    omega
  · rw [hmade]
    exact (hnumbered hfew).1
  · have hlength := (hnumbered hfew).2
    have hbalance := h.balance (by omega)
    omega

section Attempts

variable {svc : Service Store}

theorem Accounts.attemptAll (hmemory : svc.repository = Repository.memory)
    (attempts : List Attempt) {s : ServiceState Store} (h : Accounts s) :
    Accounts (svc.attemptAll attempts s).2 := by
  induction attempts generalizing s with
  | nil => exact h
  | cons a rest ih =>
      obtain ⟨hmade, hgone⟩ := made_run (svc.refusing a.refusal) a.call s
      exact ih (h.step (a.call.run_refusing_becomes hmemory a.refusal s) hmade hgone)

end Attempts

section Totals

variable {σ : Type} (svc : Service σ)

theorem sum_results_attemptAll (op : Mutation) (attempts : List Attempt) (s : ServiceState σ) :
    (op.results.map fun result =>
        (svc.attemptAll attempts s).2.metrics.get (.mutation op result)).sum =
      (op.results.map fun result => s.metrics.get (.mutation op result)).sum +
        (svc.attemptAll attempts s).1.countP (·.call.operation? == some op) := by
  induction attempts generalizing s with
  | nil => rfl
  | cons a rest ih =>
      rw [attemptAll, List.countP_cons]
      simp only [ih, Call.sum_results, beq_iff_eq]
      omega

/-- How the evaluations among some calls came out. -/
def outcomes (answered : List Answered) : List Outcome :=
  answered.filterMap fun a => a.call.outcome? a.answer

theorem evaluations_attemptAll (attempts : List Attempt) (s : ServiceState σ) :
    (∀ isMatch, (svc.attemptAll attempts s).2.metrics.get (.evaluation isMatch) =
      s.metrics.get (.evaluation isMatch) +
        (outcomes (svc.attemptAll attempts s).1).countP (·.isMatch == isMatch)) ∧
    (svc.attemptAll attempts s).2.metrics.rulesEvaluated =
      s.metrics.rulesEvaluated ++ (outcomes (svc.attemptAll attempts s).1).map (·.evaluated) := by
  have hcons : ∀ (a : Answered) (rest : List Answered),
      outcomes (a :: rest) = (a.call.outcome? a.answer).toList ++ outcomes rest := by
    intro a rest
    rw [outcomes, List.filterMap_cons]
    cases a.call.outcome? a.answer <;> rfl
  induction attempts generalizing s with
  | nil => exact ⟨fun _ => rfl, (List.append_nil _).symm⟩
  | cons a rest ih =>
      obtain ⟨hget, hevaluated⟩ := ih (a.call.run (svc.refusing a.refusal) s).2
      simp only [attemptAll, hcons]
      refine ⟨fun isMatch => ?_, ?_⟩
      · rw [hget, Call.get_evaluation, List.countP_append, Nat.add_assoc]
      · rw [hevaluated, Call.metrics_run, List.map_append, List.append_assoc]
        cases a.call.outcome? (a.call.run (svc.refusing a.refusal) s).1 <;> rfl

theorem length_outcomes (outcomes : List Outcome) :
    outcomes.countP (·.isMatch == true) + outcomes.countP (·.isMatch == false) =
      outcomes.length := by
  have hfalse : (fun o : Outcome => o.isMatch == false) =
      fun o => decide ¬ (o.isMatch == true) = true := by
    funext o
    cases o.isMatch <;> rfl
  rw [hfalse]
  exact (List.length_eq_countP_add_countP fun o : Outcome => o.isMatch == true).symm

end Totals

end Service

/-! ## Requests -/

namespace Api

open Http

def isRequest : Series → Bool
  | .request _ _ _ => true
  | _ => false

/-- The series of an exchange. -/
def Exchange.series (x : Exchange) : Series :=
  requestSeries x.request ((route? x.request.path).map (·.1.template)) x.response.status

section Requests

variable {σ : Type} (svc : Service σ)

theorem series?_not_request {α : Type} (c : Service.Call α) (storage : σ) {t : Series}
    (ht : isRequest t = true) : c.series? svc storage ≠ some t := by
  cases t with
  | mutation op result => cases ht
  | evaluation isMatch => cases ht
  | request method path status =>
      cases c with
      | evaluate ctx =>
          rw [Service.Call.series?]
          split
          · exact fun h => by cases h
          · exact fun h => by cases h
      | create text | combine texts | delete id | list | ping => exact fun h => by cases h

/-- A call counts no request. -/
theorem requests_run {α : Type} (c : Service.Call α) (s : ServiceState σ) :
    Metrics.sumOf isRequest (c.run svc s).2.metrics = Metrics.sumOf isRequest s.metrics ∧
      ∀ t, isRequest t = true → (c.run svc s).2.metrics.get t = s.metrics.get t := by
  refine ⟨?_, fun t ht => ?_⟩
  · rw [Service.Call.metrics_run]
    cases hseries : c.series? svc s.storage with
    | none => rfl
    | some t =>
        have ht : isRequest t = false :=
          Bool.eq_false_iff.2 fun ht => series?_not_request svc c s.storage ht hseries
        show Metrics.sumOf isRequest (s.metrics.count t) = _
        rw [Metrics.sumOf_count, ht]
        rfl
  · rw [Service.Call.get_run, if_neg (series?_not_request svc c s.storage ht), Nat.add_zero]

theorem requests_handle (fresh : String) (r : Request) (s : ServiceState σ) :
    Metrics.sumOf isRequest (handle svc fresh r s).2.metrics =
        Metrics.sumOf isRequest s.metrics + 1 ∧
      ∀ t, isRequest t = true → (handle svc fresh r s).2.metrics.get t = s.metrics.get t +
        if (Exchange.mk r (handle svc fresh r s).1).series = t then 1 else 0 := by
  obtain ⟨s', hs', hcalls⟩ := handle_calls svc fresh r s
  have hsame : Metrics.sumOf isRequest s'.metrics = Metrics.sumOf isRequest s.metrics ∧
      ∀ t, isRequest t = true → s'.metrics.get t = s.metrics.get t := by
    rcases hcalls with rfl | ⟨α, c, -, rfl⟩
    · exact ⟨rfl, fun _ _ => rfl⟩
    · exact requests_run svc c s
  rw [hs']
  refine ⟨?_, fun t ht => ?_⟩
  · rw [← hsame.1]
    exact Metrics.sumOf_count isRequest _ _
  · rw [← hsame.2 t ht]
    exact Metrics.get_count _ _ _

theorem requests_serve (requests : List (String × Request)) (s : ServiceState σ) :
    Metrics.sumOf isRequest (serve svc requests s).2.metrics =
        Metrics.sumOf isRequest s.metrics + requests.length ∧
      ∀ t, isRequest t = true → (serve svc requests s).2.metrics.get t =
        s.metrics.get t + (serve svc requests s).1.countP (·.series == t) := by
  induction requests generalizing s with
  | nil => exact ⟨rfl, fun _ _ => rfl⟩
  | cons request rest ih =>
      obtain ⟨fresh, r⟩ := request
      obtain ⟨hsum, hget⟩ := requests_handle svc fresh r s
      obtain ⟨hsums, hgets⟩ := ih (handle svc fresh r s).2
      refine ⟨?_, fun t ht => ?_⟩
      · rw [serve, hsums, hsum, List.length_cons]
        omega
      · rw [serve, hgets t ht, hget t ht, List.countP_cons]
        simp only [beq_iff_eq]
        omega

end Requests

end Api

/-- Each call that asks for a change is counted once, in one of the series of its
operation, and an evaluation once if it came out. Over any calls that a service in
memory has answered, with operations of the repository refused now and then, the
series of an operation add up to the calls that asked for it, and the evaluations are
those that came out, with what they looked at. The creations that succeeded are never
fewer than the rules there are and the deletes that succeeded, and as many as long as
the numbers of rules last. And every request is counted once, in the series of its
response. -/
theorem metrics_account_for_calls (mode : Mode) (attempts : List Service.Attempt) :
    let served := Service.attemptAll ⟨.memory, mode⟩ attempts ⟨.empty, .empty⟩
    let metrics := served.2.metrics
    let outcomes := Service.outcomes served.1
    (∀ {σ α : Type} (svc : Service σ) (c : Service.Call α) (s : ServiceState σ),
      (∀ t, (c.run svc s).2.metrics.get t =
        s.metrics.get t + if c.series? svc s.storage = some t then 1 else 0) ∧
      ∀ op, c.operation? = some op → ∃ result ∈ op.results,
        c.series? svc s.storage = some (.mutation op result) ∧
          (result = .success ↔ ∃ a, (c.run svc s).1 = .ok a)) ∧
    (∀ op : Mutation, (op.results.map fun result => metrics.get (.mutation op result)).sum =
      served.1.countP (·.call.operation? == some op)) ∧
    (served.2.storage.rules.length + metrics.get (.mutation .delete .success) ≤
        metrics.get (.mutation .create .success) + metrics.get (.mutation .combine .success) ∧
      (metrics.get (.mutation .create .success) + metrics.get (.mutation .combine .success) ≤
          UInt64.size →
        metrics.get (.mutation .create .success) + metrics.get (.mutation .combine .success) =
          served.2.storage.rules.length + metrics.get (.mutation .delete .success))) ∧
    (metrics.get (.evaluation true) + metrics.get (.evaluation false) = outcomes.length ∧
      metrics.rulesEvaluated.length = outcomes.length ∧
      metrics.rulesEvaluated.sum = (outcomes.map (·.evaluated)).sum) ∧
    ∀ {σ : Type} (svc : Service σ) (storage : σ) (requests : List (String × Http.Request)),
      let exchanged := Api.serve svc requests ⟨storage, .empty⟩
      Metrics.sumOf Api.isRequest exchanged.2.metrics = requests.length ∧
        ∀ method path status, exchanged.2.metrics.get (.request method path status) =
          exchanged.1.countP (·.series == .request method path status) := by
  intro served metrics outcomes
  obtain ⟨hevaluations, hevaluated⟩ :=
    Service.evaluations_attemptAll ⟨.memory, mode⟩ attempts ⟨.empty, .empty⟩
  have hrulesEvaluated : metrics.rulesEvaluated = outcomes.map (·.evaluated) := hevaluated
  refine ⟨fun svc c s => ⟨c.get_run svc s, fun op h => c.series?_of_operation? svc s h⟩,
    fun op => ?_, ?_, ⟨?_, ?_, ?_⟩, fun svc storage requests => ?_⟩
  · have hnone :
        (op.results.map fun result => Metrics.empty.get (.mutation op result)).sum = 0 := by
      cases op <;> rfl
    have htotal := Service.sum_results_attemptAll ⟨.memory, mode⟩ op attempts ⟨.empty, .empty⟩
    rw [hnone, Nat.zero_add] at htotal
    exact htotal
  · have haccounts := Service.Accounts.empty.attemptAll
      (rfl : (Service.mk .memory mode).repository = .memory) attempts
    exact ⟨haccounts.atMost, fun hfew => (haccounts.balance hfew).symm⟩
  · have hcame (isMatch : Bool) : metrics.get (.evaluation isMatch) =
        outcomes.countP (·.isMatch == isMatch) := (hevaluations isMatch).trans (Nat.zero_add _)
    rw [hcame, hcame, Service.length_outcomes]
  · rw [hrulesEvaluated, List.length_map]
  · rw [hrulesEvaluated]
  · obtain ⟨hsum, hget⟩ := Api.requests_serve svc requests ⟨storage, .empty⟩
    refine ⟨hsum.trans (Nat.zero_add _), fun method path status => ?_⟩
    exact (hget _ rfl).trans (Nat.zero_add _)

theorem metrics_account_for_calls_refusals :
    let granted : Repository.Method → Option Failure := fun _ => none
    let refused : Repository.Method → Option Failure := fun _ => some (.internal "lost")
    let attempts : List Service.Attempt :=
      [⟨granted, _, .create "age > 30"⟩, ⟨granted, _, .create "age >"⟩,
        ⟨granted, _, .combine ["age > 30", "(age", "salary > 100"]⟩,
        ⟨granted, _, .combine ["age > 30", "salary > 100"]⟩, ⟨refused, _, .delete 1⟩,
        ⟨granted, _, .delete 7⟩, ⟨granted, _, .delete 1⟩, ⟨refused, _, .evaluate .empty⟩,
        ⟨granted, _, .evaluate .empty⟩]
    let served := Service.attemptAll ⟨.memory, .strict⟩ attempts ⟨.empty, .empty⟩
    let metrics := served.2.metrics
    [MutationResult.success, .notFound, .error].map (metrics.get <| .mutation .delete ·) =
        [1, 1, 1] ∧
      (metrics.get (.mutation .create .success) + metrics.get (.mutation .combine .success) =
        served.2.storage.rules.length + metrics.get (.mutation .delete .success)) ∧
      ∃ result ∈ Mutation.delete.results,
        (Service.Call.delete 7).series? ⟨.memory, .strict⟩ served.2.storage =
          some (.mutation .delete result) := by
  intro granted refused attempts served metrics
  obtain ⟨hcounted, -, hbalance, -⟩ := metrics_account_for_calls .strict attempts
  obtain ⟨-, hseries⟩ := hcounted ⟨.memory, .strict⟩ (.delete 7) served.2
  obtain ⟨result, hresult, hseries, -⟩ := hseries .delete rfl
  exact ⟨by decide +kernel, hbalance.2 (by decide +kernel), result, hresult, hseries⟩

end Criteria
