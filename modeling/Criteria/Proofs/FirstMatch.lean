import Criteria.Proofs.Deciding
import Criteria.Proofs.Serving

/-!
# The first match is the oldest one

Rules are decided in the order of their numbers, so the first match is the one
with the least number, and the rules that were looked at are those with a number
up to it (`Rule.firstMatch_decides`).

That it is also the oldest one is a matter of the numbers' history. A rule that
is created later has a greater number (`Store.Tally.lt_of_created_later`) and so
comes behind, and a deleted rule takes itself out and no other. A match that has
been found is therefore found again until its own rule is deleted. Only this
second part needs that the numbers have not run out.
-/

namespace Criteria

/-! ## The least number among the matches -/

namespace Rule

/-- In a list in ascending order the first rule of a kind has the least number
of that kind. -/
theorem find?_eq_some_iff_least {rules : List Rule} (h : rules.Pairwise (·.id < ·.id))
    {p : Rule → Bool} {r : Rule} :
    rules.find? p = some r ↔ r ∈ rules ∧ p r = true ∧ ∀ x ∈ rules, p x = true → r.id ≤ x.id := by
  have hleast : ∀ {r}, rules.find? p = some r → ∀ x ∈ rules, p x = true → r.id ≤ x.id := by
    intro r hfind x hx hpx
    obtain ⟨-, before, after, rfl, hbefore⟩ := List.find?_eq_some_iff_append.1 hfind
    have hafter := (List.pairwise_cons.1 (List.pairwise_append.1 h).2.1).1
    rcases List.mem_append.1 hx with hx | hx
    · have hnot := hbefore x hx
      rw [hpx] at hnot
      cases hnot
    · rcases List.mem_cons.1 hx with rfl | hx
      · exact Int64.le_refl _
      · exact Int64.le_of_lt (hafter x hx)
  constructor
  · intro hfind
    exact ⟨List.mem_of_find?_eq_some hfind, List.find?_some hfind, hleast hfind⟩
  · rintro ⟨hr, hp, hmin⟩
    have hsome : (rules.find? p).isSome = true := List.find?_isSome.2 ⟨r, hr, hp⟩
    obtain ⟨x, hfind⟩ := Option.isSome_iff_exists.1 hsome
    have hx := List.mem_of_find?_eq_some hfind
    have hid : x.id = r.id :=
      Int64.le_antisymm (hleast hfind r hr hp) (hmin x hx (List.find?_some hfind))
    rw [hfind, Store.eq_of_id h hx hr hid]

theorem matchedId_firstMatchFrom (ctx : Context) (seen : Nat) (rules : List Rule) :
    (firstMatchFrom ctx seen rules).matchedId = (rules.find? (·.evaluate ctx)).map (·.id) := by
  induction rules generalizing seen with
  | nil => rfl
  | cons r rest ih =>
      rw [firstMatchFrom, List.find?_cons]
      cases r.evaluate ctx with
      | true => rfl
      | false => exact ih (seen + 1)

theorem evaluated_of_none {ctx : Context} {seen : Nat} {rules : List Rule}
    (hnone : (firstMatchFrom ctx seen rules).matchedId = none) :
    (firstMatchFrom ctx seen rules).evaluated = seen + rules.length := by
  induction rules generalizing seen with
  | nil => rfl
  | cons r rest ih =>
      rw [firstMatchFrom] at hnone ⊢
      split at hnone
      · cases hnone
      · next hr =>
          rw [if_neg hr, ih hnone, List.length_cons]
          omega

theorem evaluated_of_some {ctx : Context} {seen : Nat} {rules : List Rule} {m : Int64}
    (h : rules.Pairwise (·.id < ·.id))
    (hsome : (firstMatchFrom ctx seen rules).matchedId = some m) :
    (firstMatchFrom ctx seen rules).evaluated = seen + rules.countP (·.id ≤ m) := by
  induction rules generalizing seen with
  | nil => cases hsome
  | cons r rest ih =>
      obtain ⟨hfirst, hrest⟩ := List.pairwise_cons.1 h
      rw [firstMatchFrom] at hsome ⊢
      split at hsome
      · next hr =>
          cases hsome
          have hnone : rest.countP (·.id ≤ r.id) = 0 := by
            refine List.countP_eq_zero.2 fun x hx hle => ?_
            exact Int64.lt_irrefl (Int64.lt_of_lt_of_le (hfirst x hx) (of_decide_eq_true hle))
          have hself : decide (r.id ≤ r.id) = true := decide_eq_true (Int64.le_refl _)
          rw [if_pos hr, List.countP_cons, hnone, if_pos hself]
      · next hr =>
          -- The match is further on, so the number of this rule is below it.
          have hle : decide (r.id ≤ m) = true := by
            rw [matchedId_firstMatchFrom] at hsome
            obtain ⟨x, hx, rfl⟩ := Option.map_eq_some_iff.1 hsome
            exact decide_eq_true (Int64.le_of_lt (hfirst x (List.mem_of_find?_eq_some hx)))
          rw [if_neg hr, ih hrest hsome, List.countP_cons, if_pos hle]
          omega

end Rule

/-- What it means that rules are decided by the match with the least number. -/
structure Outcome.Decides (o : Outcome) (rules : List Rule) (ctx : Context) : Prop where
  isMatch : o.isMatch = true ↔ ∃ r ∈ rules, r.root.evaluate ctx = true
  least : ∀ m, o.matchedId = some m →
    (∃ r ∈ rules, r.id = m ∧ r.root.evaluate ctx = true) ∧
      ∀ r ∈ rules, r.root.evaluate ctx = true → m ≤ r.id
  evaluated_match : ∀ m, o.matchedId = some m →
    o.evaluated = rules.countP (·.id ≤ m)
  evaluated_all : o.isMatch = false → o.evaluated = rules.length

theorem Rule.evaluate_eq_root (r : Rule) (ctx : Context) : r.evaluate ctx = r.root.evaluate ctx := by
  rw [r.evaluate_eq, Tree.evaluate_eq]

theorem Rule.firstMatch_decides {rules : List Rule} (h : rules.Pairwise (·.id < ·.id))
    (ctx : Context) : (firstMatch rules ctx).Decides rules ctx where
  isMatch := by
    rw [Outcome.isMatch, firstMatch, matchedId_firstMatchFrom, Option.isSome_map, List.find?_isSome]
    simp only [evaluate_eq_root]
  least m hm := by
    rw [firstMatch, matchedId_firstMatchFrom] at hm
    obtain ⟨r, hfind, rfl⟩ := Option.map_eq_some_iff.1 hm
    obtain ⟨hr, hmatch, hmin⟩ := (find?_eq_some_iff_least h).1 hfind
    simp only [evaluate_eq_root] at hmatch hmin
    exact ⟨⟨r, hr, rfl, hmatch⟩, hmin⟩
  evaluated_match m hm := by
    rw [firstMatch, evaluated_of_some h hm, Nat.zero_add]
  evaluated_all hnone := by
    rw [firstMatch, evaluated_of_none (Option.not_isSome_iff_eq_none.1 (ne_true_of_eq_false hnone)),
      Nat.zero_add]

/-! ## The oldest of the matches -/

namespace Store.Tally

variable {past new : List Change} {s s' : Store}

theorem lt_of_created_later (h : Tally (past ++ new) s')
    (hfew : (created (past ++ new)).length < 2 ^ 63) {r x : Rule} (hr : r ∈ created past)
    (hx : x ∈ created new) : r.id < x.id := by
  have hasc := h.issued.pairwise hfew
  rw [created_append] at hasc
  exact (List.pairwise_append.1 hasc).2.2 r hr x hx

theorem ascending (h : Tally past s) (hfew : (created past).length < 2 ^ 63) :
    s.rules.Pairwise (·.id < ·.id) := by
  rw [h.rules]
  exact (h.issued.pairwise hfew).filter _

/-- The first rule of a kind stays the first one while it is there. -/
theorem find?_later (h : Tally past s) (h' : Tally (past ++ new) s')
    (hfew : (created (past ++ new)).length < 2 ^ 63) {p : Rule → Bool} {r : Rule}
    (hfind : s.rules.find? p = some r) (hkept : r.id ∉ Criteria.deleted new) :
    s'.rules.find? p = some r := by
  have hasc := h.ascending (Nat.lt_of_le_of_lt (length_created_le past new) hfew)
  have hasc' := h'.ascending hfew
  obtain ⟨hr, hp, hmin⟩ := (Rule.find?_eq_some_iff_least hasc).1 hfind
  rw [h.rules, mem_live] at hr
  refine (Rule.find?_eq_some_iff_least hasc').2 ⟨?_, hp, fun x hx hpx => ?_⟩
  · rw [h'.rules, mem_live, created_append, deleted_append]
    refine ⟨List.mem_append_left _ hr.1, fun hgone => ?_⟩
    rcases List.mem_append.1 hgone with hgone | hgone
    · exact hr.2 hgone
    · exact hkept hgone
  · rw [h'.rules, mem_live, created_append, deleted_append] at hx
    rcases List.mem_append.1 hx.1 with hold | hnew
    · refine hmin x ?_ hpx
      rw [h.rules, mem_live]
      exact ⟨hold, fun hgone => hx.2 (List.mem_append_left _ hgone)⟩
    · exact Int64.le_of_lt (h'.lt_of_created_later hfew hr.1 hnew)

end Store.Tally

namespace Service

theorem matchedId_evaluate {svc : Service Store} (hmemory : svc.repository = Repository.memory)
    (ctx : Context) (s : ServiceState Store) : ∃ o, (svc.evaluate ctx s).1 = .ok o ∧
      o.matchedId = (s.storage.rules.find? (·.evaluate ctx)).map (·.id) := by
  obtain ⟨metrics, heq⟩ := evaluate_eq hmemory ctx s
  rw [heq]
  exact ⟨_, rfl, Rule.matchedId_firstMatchFrom ctx 0 _⟩

/-- A match is found again while its rule has not been deleted. -/
theorem matchedId_later {svc : Service Store} (hmemory : svc.repository = Repository.memory)
    {past new : List Change} {s s' : ServiceState Store} (h : Store.Tally past s.storage)
    (h' : Store.Tally (past ++ new) s'.storage) (hfew : (created (past ++ new)).length < 2 ^ 63)
    {ctx : Context} {m : Int64}
    (hmatch : (s.storage.rules.find? (·.evaluate ctx)).map (·.id) = some m)
    (hkept : Change.deleted m ∉ new) :
    ∃ o, (svc.evaluate ctx s').1 = .ok o ∧ o.matchedId = some m := by
  obtain ⟨r, hfind, rfl⟩ := Option.map_eq_some_iff.1 hmatch
  have hfind' := h.find?_later h' hfew hfind fun hgone => hkept (mem_deleted.1 hgone)
  obtain ⟨o, ho, hid⟩ := matchedId_evaluate hmemory ctx s'
  refine ⟨o, ho, ?_⟩
  rw [hid, hfind']
  rfl

end Service

/-- Whatever calls of a service in memory came before, its rules are decided by
the match with the least number. While numbers last the rules are those that were
created and not deleted, and a match that was found is found again after any more
calls if these have not deleted its rule, which nothing but a delete of its number
does. -/
theorem Service.evaluate_oldest_match {mode : Mode} {metrics : Metrics}
    {calls more : List ((α : Type) × Call α)} {past new : List Change}
    {s s' : ServiceState Store}
    (hrun : runAll ⟨.memory, mode⟩ calls ⟨.empty, metrics⟩ = (past, s))
    (hmore : runAll ⟨.memory, mode⟩ more s = (new, s')) (ctx : Context) :
    let svc : Service Store := ⟨.memory, mode⟩
    ∃ o, (svc.evaluate ctx s).1 = .ok o ∧ (svc.evaluate ctx s).2.storage = s.storage ∧
      o.Decides s.storage.rules ctx ∧
      ((created past).length < 2 ^ 63 → s.storage.rules = live past) ∧
      ((created (past ++ new)).length < 2 ^ 63 → ∀ m, o.matchedId = some m →
        Change.deleted m ∉ new →
          ∃ o', (svc.evaluate ctx s').1 = .ok o' ∧ o'.matchedId = some m) ∧
      ∀ m, Change.deleted m ∈ new → ∃ c ∈ more, c.2.deletes? = some m := by
  intro svc
  have hmemory : svc.repository = Repository.memory := rfl
  have hempty : Store.Reached [] (ServiceState.mk Store.empty metrics).storage := .empty
  have hreached := runAll_reached hmemory calls hempty
  rw [hrun, List.nil_append] at hreached
  have hlater := runAll_reached hmemory more hreached
  rw [hmore] at hlater
  obtain ⟨metrics', heq⟩ := evaluate_eq hmemory ctx s
  have hid : (Rule.firstMatch s.storage.rules ctx).matchedId =
      (s.storage.rules.find? (·.evaluate ctx)).map (·.id) := Rule.matchedId_firstMatchFrom ctx 0 _
  rw [heq]
  refine ⟨_, rfl, rfl, Rule.firstMatch_decides hreached.ascending ctx,
    fun hfew => (hreached.tally hfew).rules, fun hfew m hm hkept => ?_, fun m hgone => ?_⟩
  · have htally := hreached.tally (Nat.lt_of_le_of_lt (length_created_le past new) hfew)
    exact matchedId_later hmemory htally (hlater.tally hfew) hfew (hid ▸ hm) hkept
  · have hnew : new = (svc.runAll more s).1 := congrArg Prod.fst hmore.symm
    exact runAll_deletes (hnew ▸ hgone)

/-- The first rule is deleted, so the match is the second one; rules that come and
go after it and a text that is refused make no difference. -/
theorem Service.evaluate_oldest_match_after_deletes :
    let svc : Service Store := ⟨.memory, .strict⟩
    let calls : List ((α : Type) × Call α) := [⟨_, .create "department = 'HR'"⟩,
      ⟨_, .combine ["salary > 100", "department = 'HR'"]⟩, ⟨_, .create "department = 'HR'"⟩,
      ⟨_, .delete 1⟩]
    let more : List ((α : Type) × Call α) := [⟨_, .create "department = 'HR'"⟩, ⟨_, .delete 3⟩,
      ⟨_, .combine ["age > 30", "(age"]⟩, ⟨_, .delete 1⟩]
    let s := (svc.runAll calls ⟨.empty, .empty⟩).2
    let ctx := Context.empty.insert "department" (.text "hr")
    (∃ o, (svc.evaluate ctx s).1 = .ok o ∧ o.matchedId = some 2 ∧ o.evaluated = 1) ∧
      ∃ o, (svc.evaluate ctx (svc.runAll more s).2).1 = .ok o ∧ o.matchedId = some 2 := by
  intro svc calls more s ctx
  have hrun : svc.runAll calls ⟨.empty, .empty⟩ = ((svc.runAll calls ⟨.empty, .empty⟩).1, s) := rfl
  have hmore : svc.runAll more s = ((svc.runAll more s).1, (svc.runAll more s).2) := rfl
  obtain ⟨o, ho, -, hdecides, -, hstays, -⟩ := evaluate_oldest_match hrun hmore ctx
  have hid : o.matchedId = some 2 := by
    have hvalue : (svc.evaluate ctx s).1.toOption.map (·.matchedId) = some (some 2) := by
      decide +kernel
    rw [ho] at hvalue
    exact Option.some.inj hvalue
  refine ⟨⟨o, ho, hid, ?_⟩, ?_⟩
  · rw [hdecides.evaluated_match 2 hid]
    decide +kernel
  · exact hstays (by decide +kernel) 2 hid (by decide +kernel)

end Criteria
