import Criteria.Proofs.Balance
import Criteria.Tree.Strict

/-!
# What strict mode accepts

Texts whose parentheses match and whose conditions have three parts, the second of
them a comparator (`strict_parse_ok_iff`). The check counts parentheses from left to
right, so what it finds behind a beginning is whether the rest closes what is open
there.
-/

namespace Criteria

open Split

/-! ## The check -/

/-- The check finds nothing where the text closes what is open. -/
theorem checkParentheses_eq_none_iff {s : List Char} {offset depth : Nat} :
    Tree.checkParentheses offset depth s = none ↔ Closes depth s := by
  induction s generalizing offset depth with
  | nil =>
      rw [Tree.checkParentheses]
      constructor
      · intro h
        split at h
        · next hdepth =>
            rw [hdepth]
            exact ⟨rfl, fun i => by rw [List.take_nil]; decide⟩
        · cases h
      · intro h
        have htotal := h.total
        rw [nesting_nil] at htotal
        rw [if_pos (by omega)]
  | cons c rest ih =>
      rw [Tree.checkParentheses, closes_cons, and_iff_right (Int.natCast_nonneg depth)]
      split
      · next hopen =>
          rw [ih, hopen, nesting_open]
          rfl
      · next hopen =>
          split
          · next hclose =>
              rw [hclose, nesting_close]
              cases depth with
              | zero =>
                  rw [if_pos rfl]
                  exact ⟨fun h => (by cases h), fun h => absurd h.nonneg (by decide)⟩
              | succ depth =>
                  rw [if_neg (Nat.succ_ne_zero depth), ih, Nat.add_sub_cancel, Int.natCast_succ,
                    Int.add_neg_cancel_right]
          · next hclose => rw [ih, nesting_plain hopen hclose, Int.add_zero]

instance : DecidablePred Balanced :=
  fun s => decidable_of_iff (Tree.checkParentheses 0 0 s = none)
    (checkParentheses_eq_none_iff.trans balanced_iff_closes.symm)

/-! ## Conditions in three parts -/

/-- A condition in three parts, with one of the six comparators. -/
def Condition.IsFormed (c : Condition) : Prop :=
  ∃ field op target,
    c.field = some field ∧ c.comparison = some (Comparator.symbol op) ∧ c.target = some target

theorem symbol_of_ofSymbol? {s : String} {c : Comparator} (h : Comparator.ofSymbol? s = some c) :
    c.symbol = s := by
  simpa using List.find?_some h

theorem Tree.isFormed_of_checkCondition {c : Condition} (h : checkCondition c = none) :
    c.IsFormed := by
  obtain ⟨value, field, comparison, target⟩ := c
  rw [checkCondition] at h
  split at h
  · cases h
  · next hparts =>
      split at h
      · cases h
      · next hcomparator =>
          cases field with
          | none => exact absurd rfl hparts
          | some field =>
              cases target with
              | none => simp [Condition.isMalformed] at hparts
              | some target =>
                  cases comparison with
                  | none => simp [Condition.isMalformed] at hparts
                  | some comparison =>
                      cases hop : Comparator.ofSymbol? comparison with
                      | none => simp [Condition.comparator?, hop] at hcomparator
                      | some op =>
                          exact ⟨field, op, target, rfl, by rw [symbol_of_ofSymbol? hop], rfl⟩

theorem Tree.checkCondition_eq_none_iff {c : Condition} : checkCondition c = none ↔ c.IsFormed := by
  refine ⟨isFormed_of_checkCondition, ?_⟩
  rintro ⟨field, op, target, hfield, hcomparison, htarget⟩
  have hparts : c.isMalformed = false := by
    rw [Condition.isMalformed, hfield, hcomparison, htarget]
    rfl
  have hcomparator : c.comparator? = some op := by
    rw [Condition.comparator?, hcomparison]
    exact op.ofSymbol?_symbol
  rw [checkCondition, hparts, hcomparator]
  rfl

/-! ## Reading -/

theorem Tree.fault?_eq_none_iff {text : String} :
    fault? text = none ↔
      Balanced text.toList ∧ ∀ c ∈ (parse text).leaves, c.IsFormed := by
  rw [fault?, Option.or_eq_none_iff, checkParentheses_eq_none_iff, List.findSome?_eq_none_iff]
  exact and_congr balanced_iff_closes.symm
    (forall₂_congr fun c _ => checkCondition_eq_none_iff)

/-- What strict mode reads is what it would read anyway. -/
theorem strict_parse_ok_iff {text : String} {t : Tree} :
    Mode.strict.parse text = .ok t ↔
      t = Tree.parse text ∧ Balanced text.toList ∧ ∀ c ∈ t.leaves, c.IsFormed := by
  constructor
  · intro h
    rw [Mode.parse] at h
    split at h
    · cases h
    · next hfault =>
        cases h
        exact ⟨rfl, Tree.fault?_eq_none_iff.1 hfault⟩
  · rintro ⟨rfl, hsound⟩
    rw [Mode.parse, Tree.fault?_eq_none_iff.2 hsound]

theorem exists_strict_parse_iff {text : String} :
    (∃ t, Mode.strict.parse text = .ok t) ↔
      Balanced text.toList ∧ ∀ c ∈ (Tree.parse text).leaves, c.IsFormed := by
  constructor
  · rintro ⟨t, h⟩
    obtain ⟨rfl, hsound⟩ := strict_parse_ok_iff.1 h
    exact hsound
  · exact fun hsound => ⟨_, strict_parse_ok_iff.2 ⟨rfl, hsound⟩⟩

end Criteria
