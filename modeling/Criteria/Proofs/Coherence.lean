import Criteria.Proofs.Comparing
import Mathlib.Data.EReal.Basic

/-!
# The comparators that hold at once

What holds between a value and a target is settled by one fact: which of the two
numbers is the greater, or whether two texts are the same. The six comparators are
six questions about that fact, so the ones that hold belong together: three of them
for numbers, one for texts, only `!=` where something is not a number, and none
where a number is compared with a target that writes none (`comparators_coherent`).

Doubles have their order from the extended reals (`Binary64.value?`), in which the
infinities stand at the ends and the two zeros are one. That `Binary64.compare?`
goes by this order (`compare?_eq`) is all there is to show; changing the sides of a
comparator is changing the two numbers in it.
-/

namespace Criteria

open Number Binary64 Text

/-! ## The order of doubles -/

namespace Number.Binary64

/-- The extended real that a double is; not-a-number is none. -/
noncomputable def value? : Binary64 → Option EReal
  | nan => none
  | infinite negative => some (if negative then ⊥ else ⊤)
  | finite negative units => some ((signed negative units / 2 ^ 1074 : ℝ) : EReal)

theorem compare_units (u v : Int) :
    compare ((u / 2 ^ 1074 : ℝ) : EReal) ((v / 2 ^ 1074 : ℝ) : EReal) = compare u v := by
  have hmono : StrictMono fun n : Int => ((n / 2 ^ 1074 : ℝ) : EReal) := fun m n h =>
    EReal.coe_lt_coe_iff.2 (div_lt_div_of_pos_right (Int.cast_lt.2 h) (by positivity))
  rw [← cmp_eq_compare, ← cmp_eq_compare]
  exact hmono.cmp_map_eq u v

/-- Doubles compare as the extended reals that they are. -/
theorem compare?_eq (x y : Binary64) :
    x.compare? y = x.value?.bind fun u => y.value?.map fun v => compare u v := by
  rcases x with _ | s | ⟨s, u⟩ <;> rcases y with _ | t | ⟨t, v⟩
  case infinite.infinite =>
    refine congrArg some ?_
    cases s <;> cases t
    · exact (compare_eq_iff_eq.2 rfl).symm
    · exact (compare_gt_iff_gt.2 bot_lt_top).symm
    · exact (compare_lt_iff_lt.2 bot_lt_top).symm
    · exact (compare_eq_iff_eq.2 rfl).symm
  case infinite.finite =>
    refine congrArg some ?_
    cases s
    · exact (compare_gt_iff_gt.2 (EReal.coe_lt_top _)).symm
    · exact (compare_lt_iff_lt.2 (EReal.bot_lt_coe _)).symm
  case finite.infinite =>
    refine congrArg some ?_
    cases t
    · exact (compare_lt_iff_lt.2 (EReal.coe_lt_top _)).symm
    · exact (compare_gt_iff_gt.2 (EReal.bot_lt_coe _)).symm
  case finite.finite => exact congrArg some (compare_units _ _).symm
  all_goals rfl

theorem compare?_swap (x y : Binary64) : y.compare? x = (x.compare? y).map Ordering.swap := by
  rw [compare?_eq, compare?_eq]
  cases x.value? with
  | none => cases y.value? <;> rfl
  | some u =>
      cases y.value? with
      | none => rfl
      | some v =>
          have hswap : (compare u v).swap = compare v u := by
            rw [← cmp_eq_compare, ← cmp_eq_compare, cmp_swap]
          exact congrArg some hswap.symm

theorem exists_value? {x : Binary64} (h : x ≠ nan) : ∃ u, x.value? = some u := by
  cases x with
  | nan => exact absurd rfl h
  | infinite negative => exact ⟨_, rfl⟩
  | finite negative units => exact ⟨_, rfl⟩

theorem ofInt64_ne_nan (n : Int64) : ofInt64 n ≠ nan := by
  obtain ⟨x, -, hplace⟩ := place?_ofInt64 n
  intro hnan
  rw [hnan] at hplace
  cases hplace

end Number.Binary64

/-! ## Sets of comparators -/

namespace Comparator

/-- The comparators that hold of a number on another one that it stands to as given. -/
def fitting : Ordering → Set Comparator
  | .lt => {lt, le, ne}
  | .eq => {eq, ge, le}
  | .gt => {gt, ge, ne}

theorem holds_some (o : Ordering) : {c : Comparator | c.holds (some o) = true} = fitting o := by
  ext c
  cases o <;> cases c <;> simp [fitting, holds]

theorem holds_none : {c : Comparator | c.holds none = true} = {ne} := by
  ext c
  cases c <;> simp [holds]

theorem compareNumbers_of_value? {x y : Binary64} {u v : EReal} (hx : x.value? = some u)
    (hy : y.value? = some v) :
    {c : Comparator | c.compareNumbers x y = true} = fitting (compare u v) := by
  simp only [compareNumbers, compare?_eq, hx, hy, Option.bind_some, Option.map_some]
  exact holds_some _

theorem compareNumbers_of_nan {x y : Binary64} (h : x = .nan ∨ y = .nan) :
    {c : Comparator | c.compareNumbers x y = true} = {ne} := by
  have hnone : x.compare? y = none := by
    rcases h with rfl | rfl
    · rfl
    · cases x <;> rfl
  simp only [compareNumbers, hnone]
  exact holds_none

/-- The comparator that says the same with the sides changed. -/
def mirror : Comparator → Comparator
  | gt => lt
  | ge => le
  | lt => gt
  | le => ge
  | eq => eq
  | ne => ne

theorem compareNumbers_swap (c : Comparator) (x y : Binary64) :
    c.compareNumbers x y = c.mirror.compareNumbers y x := by
  rw [compareNumbers, compareNumbers, compare?_swap x y]
  cases x.compare? y with
  | none => cases c <;> rfl
  | some o => cases c <;> cases o <;> rfl

end Comparator

namespace FieldValue

/-- The comparators that hold between a value and a target. -/
def holding (actual : FieldValue) (target : String) : Set Comparator :=
  {c | actual.compare target c = true}

variable {target : String}

theorem holding_integer {m : Int64} (hm : readInt64? target.toList = some m) (n : Int64) :
    (integer n).holding target =
      {c | c.compareNumbers (ofInt64 n) (ofInt64 m) = true} := by
  simp only [holding, compare_integer hm]

theorem holding_float {y : Binary64} (hy : readBinary64? target.toList = some y) (x : Binary64) :
    (float x).holding target = {c | c.compareNumbers x y = true} := by
  simp only [holding, compare_float hy]

theorem holding_text (s target : String) : (text s).holding target =
    if sameText s target = true then {.eq} else {.ne} := by
  ext c
  split
  · next h => cases c <;> simp [holding, compare, h]
  · next h => cases c <;> simp [holding, compare, h]

end FieldValue

/-- Which comparators hold between a value and a target. Between numbers it is three
of the six, by the order of the two as doubles, or `!=` alone if one of them is not
a number; a target that writes no number of the value's kind has none. Between texts
it is `=` or `!=`, by their lower case and without the quotation marks of the
target. Two numbers that change places change the comparator with its mirror. -/
theorem comparators_coherent (target : String) :
    (∀ n : Int64, readInt64? target.toList = none → (FieldValue.integer n).holding target = ∅) ∧
    (∀ x : Binary64, readBinary64? target.toList = none →
      (FieldValue.float x).holding target = ∅) ∧
    (∀ n m : Int64, readInt64? target.toList = some m →
      ∃ u v, (ofInt64 n).value? = some u ∧ (ofInt64 m).value? = some v ∧
        (FieldValue.integer n).holding target = Comparator.fitting (compare u v)) ∧
    (∀ x y : Binary64, readBinary64? target.toList = some y →
      (x = nan ∨ y = nan → (FieldValue.float x).holding target = {.ne}) ∧
      (x ≠ nan → y ≠ nan → ∃ u v, x.value? = some u ∧ y.value? = some v ∧
        (FieldValue.float x).holding target = Comparator.fitting (compare u v))) ∧
    (∀ s : String, (FieldValue.text s).holding target =
      if lower s.toList = lower (target.toList.filter fun ch => ch != '\'' && ch != '"') then {.eq}
      else {.ne}) ∧
    ∀ a b : Binary64, Comparator.gt.compareNumbers a b = Comparator.lt.compareNumbers b a ∧
      Comparator.ge.compareNumbers a b = Comparator.le.compareNumbers b a ∧
      Comparator.eq.compareNumbers a b = Comparator.eq.compareNumbers b a ∧
      Comparator.ne.compareNumbers a b = Comparator.ne.compareNumbers b a := by
  refine ⟨fun n hnone => ?_, fun x hnone => ?_, fun n m hm => ?_,
    fun x y hy => ⟨fun hnan => ?_, fun hx hy' => ?_⟩, fun s => ?_, fun a b => ?_⟩
  · simp [FieldValue.holding, FieldValue.compare, hnone]
  · simp [FieldValue.holding, FieldValue.compare, hnone]
  · obtain ⟨u, hu⟩ := exists_value? (ofInt64_ne_nan n)
    obtain ⟨v, hv⟩ := exists_value? (ofInt64_ne_nan m)
    refine ⟨u, v, hu, hv, ?_⟩
    rw [FieldValue.holding_integer hm, Comparator.compareNumbers_of_value? hu hv]
  · rw [FieldValue.holding_float hy, Comparator.compareNumbers_of_nan hnan]
  · obtain ⟨u, hu⟩ := exists_value? hx
    obtain ⟨v, hv⟩ := exists_value? hy'
    refine ⟨u, v, hu, hv, ?_⟩
    rw [FieldValue.holding_float hy, Comparator.compareNumbers_of_value? hu hv]
  · rw [FieldValue.holding_text]
    simp only [FieldValue.sameText, FieldValue.unquote, beq_iff_eq]
  · exact ⟨Comparator.compareNumbers_swap .gt a b, Comparator.compareNumbers_swap .ge a b,
      Comparator.compareNumbers_swap .eq a b, Comparator.compareNumbers_swap .ne a b⟩

/-- A zero and a target that writes the other one, an infinity and not-a-number, and an
integer with a target that writes none. -/
theorem comparators_coherent_zeros_and_nan :
    readBinary64? "-0.0".toList = some (finite true 0) ∧
      (FieldValue.float (finite false 0)).holding "-0.0" = {.eq, .ge, .le} ∧
      readBinary64? "NaN".toList = some nan ∧
      (FieldValue.float (infinite true)).holding "NaN" = {.ne} ∧
      readInt64? "7.0".toList = none ∧ (FieldValue.integer 7).holding "7.0" = ∅ := by
  have hzero : readBinary64? "-0.0".toList = some (finite true 0) := by decide +kernel
  have hnan : readBinary64? "NaN".toList = some nan := by decide +kernel
  have hseven : readInt64? "7.0".toList = none := by decide +kernel
  obtain ⟨-, -, -, hfloat, -⟩ := comparators_coherent "-0.0"
  obtain ⟨u, v, hu, hv, hholding⟩ := (hfloat (finite false 0) _ hzero).2 (by decide) (by decide)
  have heq : compare u v = .eq := by
    cases hu
    cases hv
    exact compare_units 0 0
  rw [heq] at hholding
  exact ⟨hzero, hholding, hnan, ((comparators_coherent "NaN").2.2.2.1 _ _ hnan).1 (Or.inr rfl),
    hseven, (comparators_coherent "7.0").1 7 hseven⟩

end Criteria
