import Criteria.Proofs.Deciding

/-!
# Knowing more never loses a match

A condition sees its context through `Context.resolve` only, and that reads no
more than the value under the key of a known field. Where it finds nothing the
condition does not hold, whatever the comparator, and connectives are monotone;
so what matches still matches once more is known (`Context.Within`), and the
first match among some rules can only come earlier.

The values of a context that was read from JSON are those of the last members
with the four keys (`resolve_ofJson`). All other members are without effect, and
so is the difference between a member that is no scalar and none at all.
-/

namespace Criteria

theorem Field.ofName?_key (f : Field) : ofName? f.key = some f := by
  cases f <;> decide +kernel

namespace Context

/-- What is known of the four fields in one context is the same in the other. -/
def Within (ctx ctx' : Context) : Prop :=
  ∀ f : Field, ctx.resolve f.key = none ∨ ctx.resolve f.key = ctx'.resolve f.key

theorem resolve_key (ctx : Context) (f : Field) :
    ctx.resolve f.key = (ctx.get? f.key).bind f.coerce? := by
  rw [resolve, f.ofName?_key]
  rfl

theorem resolve_eq (ctx : Context) (name : String) :
    ctx.resolve name = (Field.ofName? name).bind fun f => ctx.resolve f.key := by
  cases h : Field.ofName? name with
  | none =>
      rw [resolve, h]
      rfl
  | some f =>
      rw [Option.bind_some, resolve_key, resolve, h]
      rfl

theorem Within.resolve {ctx ctx' : Context} (h : ctx.Within ctx') {name : String} {v : FieldValue}
    (hv : ctx.resolve name = some v) : ctx'.resolve name = some v := by
  rw [resolve_eq] at hv ⊢
  obtain ⟨f, hf, hv⟩ := Option.bind_eq_some_iff.1 hv
  rw [hf, Option.bind_some]
  rcases h f with hnone | heq
  · rw [hnone] at hv
    cases hv
  · rw [← heq, hv]

theorem Within.of_eq {ctx ctx' : Context}
    (h : ∀ f : Field, ctx.resolve f.key = ctx'.resolve f.key) : ctx.Within ctx' :=
  fun f => Or.inr (h f)

theorem get?_insert (ctx : Context) (name key : String) (v : FieldValue) :
    (ctx.insert name v).get? key = if key = name then some v else ctx.get? key := by
  rw [get?, get?, insert]
  induction ctx.entries with
  | nil =>
      rw [List.filter_nil, List.nil_append, List.lookup_cons]
      by_cases h : key = name
      · rw [if_pos h, beq_iff_eq.2 h]
      · rw [if_neg h, beq_false_of_ne h]
  | cons e rest ih =>
      rw [List.filter_cons]
      by_cases he : e.1 = name
      · rw [if_neg (by simpa using he), ih, List.lookup_cons]
        by_cases h : key = name
        · rw [if_pos h, if_pos h]
        · rw [if_neg h, if_neg h, beq_false_of_ne (he ▸ h)]
      · rw [if_pos (by simpa using he), List.cons_append, List.lookup_cons, List.lookup_cons, ih]
        by_cases h : key = name
        · rw [if_pos h, if_pos h, beq_false_of_ne (h ▸ Ne.symm he)]
        · rw [if_neg h, if_neg h]

/-- A value that is supplied for a field of which nothing was known. -/
theorem Within.insert {ctx : Context} {f : Field} (hnone : ctx.resolve f.key = none)
    (v : FieldValue) : ctx.Within (ctx.insert f.key v) := by
  intro g
  by_cases hkey : g.key = f.key
  · rw [hkey]
    exact Or.inl hnone
  · right
    rw [resolve_key, resolve_key, get?_insert, if_neg hkey]

end Context

/-! ## Contexts read from JSON -/

namespace Json

theorem lastOfEach_cons (m : String × Json) (rest : List (String × Json)) :
    lastOfEach (m :: rest) =
      if (lastOfEach rest).any (·.1 == m.1) then lastOfEach rest else m :: lastOfEach rest :=
  rfl

theorem any_lastOfEach (members : List (String × Json)) (key : String) :
    (lastOfEach members).any (·.1 == key) = members.any (·.1 == key) := by
  induction members with
  | nil => rfl
  | cons m rest ih =>
      rw [lastOfEach_cons, List.any_cons, ← ih]
      split
      · next hlater =>
          by_cases hkey : m.1 = key
          · rw [hkey] at hlater
            rw [hlater, Bool.or_true]
          · rw [beq_false_of_ne hkey, Bool.false_or]
      · rw [List.any_cons]

theorem field?_eq_none {members : List (String × Json)} {key : String}
    (h : ¬ members.any (·.1 == key) = true) : field? key (object members) = none := by
  rw [field?, Option.map_eq_none_iff, List.find?_eq_none]
  intro m hm hkey
  exact h (List.any_eq_true.2 ⟨m, List.mem_reverse.1 hm, hkey⟩)

/-- A later member with the key goes before. -/
theorem field?_cons (m : String × Json) (rest : List (String × Json)) (key : String) :
    field? key (object (m :: rest)) =
      if rest.any (·.1 == key) then field? key (object rest)
      else if m.1 = key then some m.2 else none := by
  split
  · next hany =>
      obtain ⟨m', hm', hkey⟩ := List.any_eq_true.1 hany
      have hsome : (rest.reverse.find? (·.1 == key)).isSome = true :=
        List.find?_isSome.2 ⟨m', List.mem_reverse.2 hm', hkey⟩
      rw [field?, field?, List.reverse_cons, List.find?_append, Option.or_of_isSome hsome]
  · next hany =>
      have hnone := Option.map_eq_none_iff.1 (field?_eq_none hany)
      rw [field?, List.reverse_cons, List.find?_append, hnone, Option.none_or]
      by_cases hkey : m.1 = key
      · rw [if_pos hkey, List.find?_cons_of_pos (by simpa using hkey)]
        rfl
      · rw [if_neg hkey, List.find?_cons_of_neg (by simpa using hkey)]
        rfl

end Json

namespace Context

/-- The entries of a context are the members that are scalars. -/
theorem get?_scalars (k : String) (j : Json) (rest : List (String × Json)) (key : String) :
    get? ⟨((k, j) :: rest).filterMap fun (k, j) => (FieldValue.ofJson? j).map (k, ·)⟩ key =
      (if k = key then FieldValue.ofJson? j else none).or
        (get? ⟨rest.filterMap fun (k, j) => (FieldValue.ofJson? j).map (k, ·)⟩ key) := by
  rw [get?, get?]
  cases hv : FieldValue.ofJson? j with
  | none => simp only [List.filterMap_cons, hv, Option.map_none, ite_self, Option.none_or]
  | some v =>
      simp only [List.filterMap_cons, hv, Option.map_some, List.lookup_cons]
      by_cases hkey : k = key
      · rw [if_pos hkey, hkey, beq_self_eq_true, Option.some_or]
      · rw [if_neg hkey, beq_false_of_ne (Ne.symm hkey), Option.none_or]

theorem get?_ofMembers (members : List (String × Json)) (key : String) :
    (ofMembers members).get? key = (Json.field? key (.object members)).bind FieldValue.ofJson? := by
  rw [ofMembers]
  induction members with
  | nil => rfl
  | cons m rest ih =>
      obtain ⟨k, j⟩ := m
      rw [Json.lastOfEach_cons, Json.any_lastOfEach]
      by_cases hkey : k = key
      · subst hkey
        rw [Json.field?_cons]
        split
        · exact ih
        · next hlast =>
            rw [get?_scalars, ih, Json.field?_eq_none hlast, if_pos rfl, if_pos rfl]
            exact Option.or_none
      · have hrest :
            Json.field? key (.object ((k, j) :: rest)) = Json.field? key (.object rest) := by
          rw [Json.field?_cons, if_neg hkey]
          split
          · rfl
          · next hlast => rw [Json.field?_eq_none hlast]
        rw [hrest, ← ih]
        split
        · rfl
        · rw [get?_scalars, if_neg hkey, Option.none_or]

theorem resolve_ofJson (j : Json) (f : Field) : (ofJson j).resolve f.key =
    ((j.field? f.key).bind FieldValue.ofJson?).bind f.coerce? := by
  rw [resolve_key]
  congr 1
  cases j with
  | object members => exact get?_ofMembers members f.key
  | _ => rfl

end Context

/-! ## What matches -/

section Within

variable {ctx ctx' : Context}

theorem Condition.holds_mono (h : ctx.Within ctx') {c : Condition} (hc : c.holds ctx = true) :
    c.holds ctx' = true := by
  rw [holds] at hc ⊢
  split at hc
  · next hfield htarget =>
      split at hc
      · next hv hcomparator =>
          rw [h.resolve hv, hcomparator]
          exact hc
      · cases hc
  · cases hc

theorem Connective.apply_mono {c : Connective} {a a' b b' : Bool} (ha : a = true → a' = true)
    (hb : b = true → b' = true) (h : c.apply a b = true) : c.apply a' b' = true := by
  cases c with
  | and =>
      obtain ⟨h₁, h₂⟩ := Bool.and_eq_true_iff.1 h
      exact Bool.and_eq_true_iff.2 ⟨ha h₁, hb h₂⟩
  | or => exact Bool.or_eq_true_iff.2 ((Bool.or_eq_true_iff.1 h).imp ha hb)

theorem Tree.meaning_mono (h : ctx.Within ctx') {t : Tree} (ht : t.meaning ctx = true) :
    t.meaning ctx' = true := by
  induction t with
  | empty => cases ht
  | leaf c => exact Condition.holds_mono h ht
  | branch c left right ihl ihr => exact Connective.apply_mono ihl ihr ht

theorem Tree.evaluate_mono (h : ctx.Within ctx') {t : Tree} (ht : t.evaluate ctx = true) :
    t.evaluate ctx' = true := by
  rw [evaluate_eq] at ht ⊢
  exact meaning_mono h ht

theorem Rule.evaluate_mono (h : ctx.Within ctx') {r : Rule} (hr : r.evaluate ctx = true) :
    r.evaluate ctx' = true := by
  rw [evaluate_eq] at hr ⊢
  exact Tree.meaning_mono h hr

theorem Rule.lt_evaluated (ctx : Context) (seen : Nat) (r : Rule) (rules : List Rule) :
    seen < (firstMatchFrom ctx seen (r :: rules)).evaluated := by
  induction rules generalizing seen r with
  | nil =>
      rw [firstMatchFrom]
      split <;> exact Nat.lt_succ_self seen
  | cons r' rest ih =>
      rw [firstMatchFrom]
      split
      · exact Nat.lt_succ_self seen
      · exact Nat.lt_of_succ_lt (ih (seen + 1) r')

/-- The first match is still there or has been overtaken by an earlier one. -/
theorem Rule.firstMatchFrom_mono (h : ctx.Within ctx') (seen : Nat) (rules : List Rule) :
    ((firstMatchFrom ctx seen rules).isMatch = true →
      (firstMatchFrom ctx' seen rules).isMatch = true) ∧
    (firstMatchFrom ctx' seen rules).evaluated ≤ (firstMatchFrom ctx seen rules).evaluated := by
  induction rules generalizing seen with
  | nil => exact ⟨fun hmatch => hmatch, Nat.le_refl _⟩
  | cons r rest ih =>
      by_cases hr' : r.evaluate ctx' = true
      · have hfirst : firstMatchFrom ctx' seen (r :: rest) = ⟨some r.id, seen + 1⟩ := if_pos hr'
        rw [hfirst]
        exact ⟨fun _ => rfl, lt_evaluated ctx seen r rest⟩
      · have hr : ¬ r.evaluate ctx = true := fun hr => hr' (evaluate_mono h hr)
        rw [firstMatchFrom, firstMatchFrom, if_neg hr, if_neg hr']
        exact ih (seen + 1)

theorem Rule.firstMatchFrom_congr (h : ∀ r : Rule, r.evaluate ctx = r.evaluate ctx') (seen : Nat)
    (rules : List Rule) : firstMatchFrom ctx seen rules = firstMatchFrom ctx' seen rules := by
  induction rules generalizing seen with
  | nil => rfl
  | cons r rest ih => rw [firstMatchFrom, firstMatchFrom, h, ih]

theorem Tree.evaluate_congr (h : ∀ f : Field, ctx.resolve f.key = ctx'.resolve f.key) (t : Tree) :
    t.evaluate ctx = t.evaluate ctx' :=
  Bool.eq_iff_iff.2 ⟨evaluate_mono (.of_eq h), evaluate_mono (.of_eq fun f => (h f).symm)⟩

theorem Rule.firstMatch_congr (h : ∀ f : Field, ctx.resolve f.key = ctx'.resolve f.key)
    (rules : List Rule) : firstMatch rules ctx = firstMatch rules ctx' :=
  firstMatchFrom_congr (fun r => by rw [evaluate, evaluate, r.root.evaluate_congr h]) 0 rules

end Within

/-- Knowing more never loses a match, and finds the first one no later. So it is
with a value for a field of which nothing was known. Contexts that know the same
of the four fields are not told apart, nor are JSON values with the same scalars
under the four keys. -/
theorem matches_mono :
    (∀ ctx ctx' : Context, ctx.Within ctx' →
      (∀ t : Tree, t.evaluate ctx = true → t.evaluate ctx' = true) ∧
      ∀ rules, ((Rule.firstMatch rules ctx).isMatch = true →
          (Rule.firstMatch rules ctx').isMatch = true) ∧
        (Rule.firstMatch rules ctx').evaluated ≤ (Rule.firstMatch rules ctx).evaluated) ∧
    (∀ (ctx : Context) (f : Field) (v : FieldValue), ctx.resolve f.key = none →
      ∀ t : Tree, t.evaluate ctx = true → t.evaluate (ctx.insert f.key v) = true) ∧
    (∀ ctx ctx' : Context, (∀ f : Field, ctx.resolve f.key = ctx'.resolve f.key) →
      (∀ t : Tree, t.evaluate ctx = t.evaluate ctx') ∧
      ∀ rules, Rule.firstMatch rules ctx = Rule.firstMatch rules ctx') ∧
    ∀ j j' : Json, (∀ f : Field, (j.field? f.key).bind FieldValue.ofJson? =
        (j'.field? f.key).bind FieldValue.ofJson?) →
      (∀ t : Tree, t.evaluate (.ofJson j) = t.evaluate (.ofJson j')) ∧
      ∀ rules, Rule.firstMatch rules (.ofJson j) = Rule.firstMatch rules (.ofJson j') := by
  refine ⟨fun ctx ctx' h => ?_, fun ctx f v hnone t => ?_, fun ctx ctx' h => ?_, fun j j' h => ?_⟩
  · exact ⟨fun t => Tree.evaluate_mono h, Rule.firstMatchFrom_mono h 0⟩
  · exact Tree.evaluate_mono (.insert hnone v)
  · exact ⟨Tree.evaluate_congr h, Rule.firstMatch_congr h⟩
  · have hresolve : ∀ f : Field, (Context.ofJson j).resolve f.key =
        (Context.ofJson j').resolve f.key := fun f => by
      rw [Context.resolve_ofJson, Context.resolve_ofJson, h]
    exact ⟨Tree.evaluate_congr hresolve, Rule.firstMatch_congr hresolve⟩

/-- An age that is no number is replaced by one that the first condition rules
out; a null and an unknown member make no difference. -/
theorem matches_mono_age_supplied :
    let t : Tree := .branch .or (.ofCondition "age != 40") (.ofCondition "department != 'Sales'")
    let ctx := (Context.empty.insert "department" (.text "HR")).insert "age" (.text "old")
    ctx.resolve "age" = none ∧ t.evaluate ctx = true ∧
      t.evaluate (ctx.insert "age" (.integer 40)) = true ∧
      t.evaluate
          (.ofJson (.object [("department", .text "HR"), ("age", .null), ("tags", .array [])])) =
        t.evaluate (.ofJson (.object [("department", .text "HR")])) := by
  intro t ctx
  have hnone : ctx.resolve Field.age.key = none := by decide +kernel
  have hmatch : t.evaluate ctx = true := by decide +kernel
  refine ⟨hnone, hmatch, matches_mono.2.1 ctx .age (.integer 40) hnone t hmatch, ?_⟩
  exact (matches_mono.2.2.2 _ _ fun f => by cases f <;> rfl).1 t

end Criteria
