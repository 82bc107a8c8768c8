import Criteria.Number.Binary64
import Mathlib.Algebra.Order.Ring.Int
import Mathlib.Data.Int.Order.Basic
import Mathlib.Tactic.Ring

/-!
# A quotient is rounded to the nearest double

`Nearest num den u` says without computing anything that `u` units are the double
closest to `num / den`: no other double is closer, and of two that are equally
close it is the even one. There is one such double (`Nearest.eq`), it does not go
down where the quotient goes up (`Nearest.mono`), and `round` returns it
(`round_eq`).

Distances are taken in units and times the denominator (`offBy`), so all of this is
about whole numbers. The doubles around a magnitude are the multiples of its
spacing, and among these `roundDiv` finds the closest. Doubles that are no
multiples of it lie below the binade of the magnitude, whose lowest double is one
and is closer than they are.
-/

namespace Criteria.Number.Binary64

/-! ## The nearest multiple -/

section Multiple

variable {den : Nat}

/-- The closer one of the two whole numbers around a quotient, and the even one if
the quotient is half-way between them. -/
theorem roundDiv_cases (num : Nat) (hden : 0 < den) : ∃ q r, num = q * den + r ∧ r < den ∧
    (roundDiv num den = q ∧ (2 * r < den ∨ 2 * r = den ∧ q % 2 = 0) ∨
      roundDiv num den = q + 1 ∧ (den < 2 * r ∨ 2 * r = den ∧ q % 2 = 1)) := by
  have hsplit : num = num / den * den + num % den := by
    rw [Nat.mul_comm]
    exact (Nat.div_add_mod num den).symm
  refine ⟨num / den, num % den, hsplit, Nat.mod_lt _ hden, ?_⟩
  simp only [roundDiv]
  split
  · next hlow => exact Or.inl ⟨rfl, Or.inl hlow⟩
  · split
    · next hhigh => exact Or.inr ⟨rfl, Or.inl hhigh⟩
    · omega

theorem two_mul_roundDiv_le (num : Nat) (hden : 0 < den) :
    2 * ((roundDiv num den : Int) * den - num).natAbs ≤ den := by
  obtain ⟨q, r, hnum, hr, ⟨heq, hq⟩ | ⟨heq, hq⟩⟩ := roundDiv_cases num hden
  · rw [heq, hnum]
    push_cast
    omega
  · rw [heq, hnum]
    push_cast
    rw [Int.add_mul]
    omega

theorem roundDiv_even {num : Nat} (hden : 0 < den)
    (h : 2 * ((roundDiv num den : Int) * den - num).natAbs = den) :
    roundDiv num den % 2 = 0 := by
  obtain ⟨q, r, hnum, hr, ⟨heq, hq⟩ | ⟨heq, hq⟩⟩ := roundDiv_cases num hden
  · rw [heq, hnum] at h
    push_cast at h
    omega
  · rw [heq, hnum] at h
    push_cast at h
    rw [Int.add_mul] at h
    omega

theorem mul_le_natAbs_sub (den : Nat) {k : Nat} {i j : Int} (h : k ≤ (i - j).natAbs) :
    k * den ≤ (i * den - j * den).natAbs := by
  rw [← Int.sub_mul, Int.natAbs_mul, Int.natAbs_natCast]
  exact Nat.mul_le_mul_right den h

theorem roundDiv_le (num : Nat) (hden : 0 < den) (j : Int) :
    ((roundDiv num den : Int) * den - num).natAbs ≤ (j * den - num).natAbs := by
  have hoff := two_mul_roundDiv_le num hden
  rcases eq_or_ne j (roundDiv num den) with rfl | hne
  · exact le_rfl
  · have happart := mul_le_natAbs_sub den (k := 1) (i := j) (j := roundDiv num den)
      (by omega)
    omega

theorem roundDiv_le_of_lt {num k : Nat} (hden : 0 < den) (h : num < k * den) :
    roundDiv num den ≤ k := by
  obtain ⟨q, r, hnum, hr, hcases⟩ := roundDiv_cases num hden
  have hq : q < k := Nat.lt_of_mul_lt_mul_right (a := den) (by omega)
  omega

/-- Two multiples that are equally close to a number, and none closer, are next to
each other. -/
theorem roundDiv_tie (num : Nat) (hden : 0 < den) {j : Int} (hne : j ≠ roundDiv num den)
    (h : (j * den - num).natAbs = ((roundDiv num den : Int) * den - num).natAbs) :
    roundDiv num den % 2 = 0 ∧ (j - roundDiv num den).natAbs = 1 := by
  have hoff := two_mul_roundDiv_le num hden
  have happart := mul_le_natAbs_sub den (k := 1) (i := j) (j := roundDiv num den)
    (by omega)
  refine ⟨roundDiv_even hden (by omega), ?_⟩
  by_contra hfar
  have hfarther := mul_le_natAbs_sub den (k := 2) (i := j) (j := roundDiv num den)
    (by omega)
  omega

end Multiple

/-! ## What the nearest double is -/

/-- The numbers of units that a double can have, whatever their size: 53 bits and a
power of two. -/
def IsDouble (u : Int) : Prop :=
  ∃ (m : Int) (e : Nat), m.natAbs ≤ 2 ^ 53 ∧ u = m * 2 ^ e

/-- How far `u` units are from `num / den`, in units and times `den`. -/
def offBy (num : Int) (den : Nat) (u : Int) : Nat :=
  (u * den - num * one).natAbs

/-- `u` units are the double nearest to `num / den`. If another one is as near, the
two differ by a power of two and `u` is an even multiple of it. -/
structure Nearest (num : Int) (den : Nat) (u : Int) : Prop where
  isDouble : IsDouble u
  le : ∀ v, IsDouble v → offBy num den u ≤ offBy num den v
  even : ∀ v, IsDouble v → offBy num den v = offBy num den u → v ≠ u →
    ∃ (m : Int) (e : Nat), u = 2 * m * 2 ^ e ∧ (v - u).natAbs = 2 ^ e

section Nearest

variable {num num' u u' : Int} {den : Nat}

theorem one_pos : 0 < one := by
  rw [one, Nat.one_shiftLeft]
  exact Nat.two_pow_pos 1074

theorem IsDouble.neg (h : IsDouble u) : IsDouble (-u) := by
  obtain ⟨m, e, hm, rfl⟩ := h
  exact ⟨-m, e, by omega, by rw [Int.neg_mul]⟩

theorem isDouble_mul_pow {q : Nat} (e : Nat) (h : q ≤ 2 ^ 53) : IsDouble (q * (2 ^ e : Nat)) :=
  ⟨q, e, by omega, by rw [Nat.cast_pow, Nat.cast_ofNat]⟩

theorem offBy_neg (num : Int) (den : Nat) (u : Int) : offBy (-num) den u = offBy num den (-u) := by
  rw [offBy, offBy, Int.neg_mul, Int.neg_mul]
  omega

theorem Nearest.neg (h : Nearest num den u) : Nearest (-num) den (-u) where
  isDouble := h.isDouble.neg
  le v hv := by
    rw [offBy_neg, offBy_neg, Int.neg_neg]
    exact h.le _ hv.neg
  even v hv heq hne := by
    rw [offBy_neg, offBy_neg, Int.neg_neg] at heq
    obtain ⟨m, e, hu, hdiff⟩ := h.even _ hv.neg heq (by omega)
    refine ⟨-m, e, ?_, by omega⟩
    rw [hu]
    ring

/-- There is one nearest double: of two, each would be an even multiple of their
difference. -/
theorem Nearest.eq (h : Nearest num den u) (h' : Nearest num den u') : u = u' := by
  by_contra hne
  have hoff : offBy num den u = offBy num den u' :=
    Nat.le_antisymm (h.le _ h'.isDouble) (h'.le _ h.isDouble)
  obtain ⟨m, e, hu, hdiff⟩ := h.even _ h'.isDouble hoff.symm (Ne.symm hne)
  obtain ⟨m', e', hu', hdiff'⟩ := h'.even _ h.isDouble hoff hne
  have hpow : (2 : Int) ^ e' = 2 ^ e := by
    have : (2 : Nat) ^ e' = 2 ^ e := by omega
    exact_mod_cast this
  have hsub : u' - u = 2 * (m' - m) * 2 ^ e := by
    rw [hu, hu', hpow]
    ring
  have hcast : ((2 : Int) ^ e).natAbs = 2 ^ e := by
    rw [Int.natAbs_pow]
    rfl
  have hone : (2 * (m' - m)).natAbs * 2 ^ e = 1 * 2 ^ e := by
    rw [hsub, Int.natAbs_mul, hcast] at hdiff
    rw [hdiff, Nat.one_mul]
  have := Nat.eq_of_mul_eq_mul_right (Nat.two_pow_pos e) hone
  omega

/-- If the order of two quotients were turned round, both would have to be half-way
between the two doubles. -/
theorem Nearest.mono (hden : 0 < den) (h : Nearest num den u) (h' : Nearest num' den u')
    (hle : num ≤ num') : u ≤ u' := by
  rcases Int.lt_or_eq_of_le hle with hlt | rfl
  · by_contra hgt
    have hoff := h.le _ h'.isDouble
    have hoff' := h'.le _ h.isDouble
    have hone : num * (one : Int) < num' * one :=
      Int.mul_lt_mul_of_pos_right hlt (by exact_mod_cast one_pos)
    have hmul : u' * (den : Int) < u * den :=
      Int.mul_lt_mul_of_pos_right (by omega) (by omega)
    rw [offBy, offBy] at hoff hoff'
    omega
  · exact Int.le_of_eq (h.eq h')

end Nearest

/-! ## What rounding returns -/

section Round

variable {num den : Nat}

theorem spacing_eq (units : Nat) : spacing units = 2 ^ (units.log2 - 52) :=
  Nat.one_shiftLeft _

/-- A magnitude is below `2 ^ 53` spacings, and from `2 ^ 52` of them on unless the
spacing is one unit. -/
theorem spacing_bounds (units : Nat) : units < 2 ^ 53 * spacing units ∧
    (units.log2 - 52 ≠ 0 → 2 ^ 52 * spacing units ≤ units) := by
  rw [spacing_eq, ← Nat.pow_add, ← Nat.pow_add]
  constructor
  · exact Nat.lt_log2_self.trans_le (Nat.pow_le_pow_right (by omega) (by omega))
  · intro hfine
    have hne : units ≠ 0 := by
      rintro rfl
      exact hfine rfl
    rw [show 52 + (units.log2 - 52) = units.log2 by omega]
    exact Nat.log2_self_le hne

theorem mul_pow_le {m : Int} (hm : m.natAbs ≤ 2 ^ 53) {e k : Nat} (hlt : e < k) :
    m * 2 ^ e ≤ 2 ^ 52 * 2 ^ k := by
  have hmul : m * (2 : Int) ^ e ≤ 2 ^ 53 * 2 ^ e :=
    Int.mul_le_mul_of_nonneg_right (by omega) (Int.le_of_lt (Int.pow_pos (by decide)))
  have hpow : (2 : Int) ^ (53 + e) ≤ 2 ^ (52 + k) := by
    have := Nat.pow_le_pow_right (n := 2) (by decide) (by omega : 53 + e ≤ 52 + k)
    exact_mod_cast this
  rw [Int.pow_add, Int.pow_add] at hpow
  exact Int.le_trans hmul hpow

/-- A double that is no multiple of the spacing of a magnitude is below the binade of
the magnitude. -/
theorem IsDouble.multiple_or_lt {v : Int} (hv : IsDouble v) (units : Nat) :
    (∃ j : Int, v = j * spacing units) ∨
      v < 2 ^ 52 * spacing units ∧ 2 ^ 52 * spacing units ≤ units := by
  obtain ⟨m, e, hm, rfl⟩ := hv
  rcases Nat.lt_or_ge e (units.log2 - 52) with hlt | hge
  · -- A finer double reaches at most the lowest one of the binade, which is a multiple.
    have hle := mul_pow_le hm hlt
    have hbinade := (spacing_bounds units).2 (by omega)
    rw [spacing_eq] at hbinade ⊢
    push_cast
    rcases Int.lt_or_eq_of_le hle with hlt | heq
    · exact Or.inr ⟨hlt, hbinade⟩
    · exact Or.inl ⟨2 ^ 52, heq⟩
  · refine Or.inl ⟨m * 2 ^ (e - (units.log2 - 52)), ?_⟩
    rw [spacing_eq]
    push_cast
    rw [Int.mul_assoc, ← Int.pow_add, Nat.sub_add_cancel hge]

theorem offBy_multiple (num den step : Nat) (j : Int) : offBy num den (j * step) =
    (j * (den * step : Nat) - (num * one : Nat)).natAbs := by
  rw [offBy]
  push_cast
  rw [Int.mul_assoc, Int.mul_comm (step : Int)]

theorem IsDouble.multiple_or_farther {v : Int} (hv : IsDouble v) (num : Nat) (hden : 0 < den) :
    (∃ j : Int, v = j * spacing (num * one / den)) ∨
      ∃ j : Int, offBy num den (j * spacing (num * one / den)) < offBy num den v := by
  rcases hv.multiple_or_lt (num * one / den) with hmul | ⟨hlt, hle⟩
  · exact Or.inl hmul
  · refine Or.inr ⟨2 ^ 52, ?_⟩
    have hbelow : v * (den : Int) < 2 ^ 52 * spacing (num * one / den) * den :=
      Int.mul_lt_mul_of_pos_right hlt (by omega)
    have hmagnitude : (2 ^ 52 * spacing (num * one / den) * den : Int) ≤ num * one := by
      have := (Nat.mul_le_mul_right den hle).trans (Nat.div_mul_le_self _ _)
      exact_mod_cast this
    rw [offBy, offBy]
    omega

/-- The multiple of its spacing that a quotient is rounded to is the nearest double. -/
theorem nearest_roundDiv (num : Nat) (hden : 0 < den) :
    Nearest num den ((roundDiv (num * one) (den * spacing (num * one / den)) *
      spacing (num * one / den) : Nat) : Int) := by
  have hbits := (spacing_bounds (num * one / den)).1
  have hmultiple := fun v (hv : IsDouble v) => hv.multiple_or_farther num hden
  have hpow := spacing_eq (num * one / den)
  -- Of the spacing no more is needed than that it is a power of two and these bounds.
  generalize spacing (num * one / den) = step at hbits hmultiple hpow ⊢
  have hstep : 0 < den * step := Nat.mul_pos hden (hpow ▸ Nat.two_pow_pos _)
  have hle := roundDiv_le (num * one) hstep
  have htie := fun j => roundDiv_tie (num * one) hstep (j := j)
  have hq : roundDiv (num * one) (den * step) ≤ 2 ^ 53 := by
    refine roundDiv_le_of_lt hstep ?_
    rw [Nat.mul_comm den, ← Nat.mul_assoc]
    exact (Nat.div_lt_iff_lt_mul hden).1 hbits
  generalize roundDiv (num * one) (den * step) = q at hle htie hq ⊢
  simp only [← offBy_multiple] at hle htie
  rw [Nat.cast_mul]
  refine ⟨hpow ▸ isDouble_mul_pow _ hq, ?_, ?_⟩
  · intro v hv
    rcases hmultiple v hv with ⟨j, rfl⟩ | ⟨j, hfar⟩
    · exact hle j
    · exact (hle j).trans hfar.le
  · intro v hv heq hne
    rcases hmultiple v hv with ⟨j, rfl⟩ | ⟨j, hfar⟩
    · obtain ⟨heven, hnext⟩ := htie j (fun h => hne (by rw [h])) heq
      refine ⟨q / 2, (num * one / den).log2 - 52, ?_, ?_⟩
      · rw [show 2 * ((q : Int) / 2) = q by omega, hpow, Nat.cast_pow, Nat.cast_ofNat]
      · rw [← Int.sub_mul, Int.natAbs_mul, hnext, Nat.one_mul, Int.natAbs_natCast, hpow]
    · exact absurd (hle j) (by omega)

variable (negative : Bool)

theorem nearest_signed {u : Nat} (h : Nearest num den u) :
    Nearest (signed negative num) den (signed negative u) := by
  cases negative
  · exact h
  · exact h.neg

/-- Rounding returns the nearest double, or an infinity where that one is too great. -/
theorem round_eq (num : Nat) (hden : 0 < den) : ∃ u : Nat,
    Nearest (signed negative num) den (signed negative u) ∧
      round negative num den = if u < overflow then finite negative u else infinite negative :=
  ⟨_, nearest_signed negative (nearest_roundDiv num hden), rfl⟩

end Round

/-! ## Integers -/

section Whole

variable {n n' x : Int}

theorem offBy_whole (n k : Int) : offBy n 1 (k * one) = (k - n).natAbs * one := by
  rw [offBy, Nat.cast_one, Int.mul_one, ← Int.sub_mul, Int.natAbs_mul, Int.natAbs_natCast]

theorem isDouble_shiftLeft (h : n.natAbs ≤ 2 ^ 53) (e k : Nat) :
    IsDouble (n * 2 ^ e * (1 <<< k : Nat)) :=
  ⟨n, e + k, h, by rw [Nat.one_shiftLeft, Nat.cast_pow, Nat.cast_ofNat, Int.pow_add, Int.mul_assoc]⟩

theorem isDouble_whole (h : n.natAbs ≤ 2 ^ 53) (e : Nat) : IsDouble (n * 2 ^ e * one) :=
  isDouble_shiftLeft h e _

theorem nearest_whole (h : n.natAbs ≤ 2 ^ 53) : Nearest n 1 (n * one) where
  isDouble := by
    have hdouble := isDouble_whole h 0
    rwa [Int.pow_zero, Int.mul_one] at hdouble
  le v _ := by
    rw [offBy_whole, Int.sub_self, Int.natAbs_zero, Nat.zero_mul]
    exact Nat.zero_le _
  even v _ heq hne := by
    rw [offBy_whole, Int.sub_self, Int.natAbs_zero, Nat.zero_mul, offBy] at heq
    omega

/-- A double has no room for more than 53 bits, so the last ten of the 63 are rounded. -/
theorem Nearest.off_le (h : Nearest n 1 x) (hn : n.natAbs ≤ 2 ^ 63) :
    (x - n * one).natAbs ≤ 512 * one := by
  have hdouble := isDouble_whole (n := (n + 512) / 1024) (by omega) 10
  have hoff := h.le _ hdouble
  rw [offBy_whole, offBy, Nat.cast_one, Int.mul_one] at hoff
  exact hoff.trans (Nat.mul_le_mul_right one (by omega))

/-- Different integers with one nearest double are not among those of 53 bits. -/
theorem Nearest.eq_of_small (h : Nearest n 1 x) (h' : Nearest n' 1 x) (hn : n.natAbs < 2 ^ 53) :
    n = n' := by
  have hx : x = n * one := h.eq (nearest_whole (by omega))
  have hpos : (0 : Int) < one := by exact_mod_cast one_pos
  -- The neighbours of `n` are doubles as well, and one of them lies between.
  rcases Int.lt_trichotomy n n' with hlt | heq | hgt
  · have hle := (nearest_whole (n := n + 1) (by omega)).mono Nat.one_pos h' hlt
    rw [hx, Int.add_mul] at hle
    omega
  · exact heq
  · have hle := h'.mono Nat.one_pos (nearest_whole (n := n - 1) (by omega)) (by omega)
    rw [hx, Int.sub_mul] at hle
    omega

theorem Nearest.sub_le (h : Nearest n 1 x) (h' : Nearest n' 1 x) (hn : n.natAbs ≤ 2 ^ 63)
    (hn' : n'.natAbs ≤ 2 ^ 63) : (n - n').natAbs ≤ 1024 := by
  have hoff := h.off_le hn
  have hoff' := h'.off_le hn'
  have hsub : (n - n').natAbs * one ≤ 1024 * one := by
    rw [← Int.natAbs_natCast one, ← Int.natAbs_mul, Int.sub_mul, Int.natAbs_natCast]
    omega
  exact Nat.le_of_mul_le_mul_right hsub one_pos

theorem natAbs_signed (negative : Bool) (u : Nat) : (signed negative u).natAbs = u := by
  cases negative
  · exact Int.natAbs_natCast u
  · exact (Int.natAbs_neg u).trans (Int.natAbs_natCast u)

theorem signed_natAbs (n : Int) : signed (n < 0) n.natAbs = n := by
  rw [signed]
  by_cases hn : n < 0
  · rw [if_pos (decide_eq_true hn)]
    omega
  · rw [if_neg (fun h => hn (of_decide_eq_true h))]
    omega

/-- Sixty-three bits are far from an infinity. -/
theorem place?_round (negative : Bool) {n : Nat} (hn : n ≤ 2 ^ 63) :
    ∃ x, Nearest (signed negative n) 1 x ∧ (round negative n 1).place? = some (0, x) := by
  obtain ⟨u, hnearest, hround⟩ := round_eq negative n Nat.one_pos
  have hoff := hnearest.off_le (by rw [natAbs_signed]; exact hn)
  have hmul : (signed negative n * one).natAbs ≤ 2 ^ 63 * one := by
    rw [Int.natAbs_mul, natAbs_signed, Int.natAbs_natCast]
    exact Nat.mul_le_mul_right one hn
  have hu : u ≤ 2 ^ 64 * one := by
    have := natAbs_signed negative u
    omega
  have hlt : u < overflow := hu.trans_lt (by decide +kernel)
  rw [if_pos hlt] at hround
  exact ⟨_, hnearest, by rw [hround, place?]⟩

theorem natAbs_toInt_le (n : Int64) : n.toInt.natAbs ≤ 2 ^ 63 := by
  have hle := n.le_toInt
  have hlt := n.toInt_lt
  omega

theorem place?_ofInt64 (n : Int64) :
    ∃ x, Nearest n.toInt 1 x ∧ (ofInt64 n).place? = some (0, x) := by
  have hplace := place?_round (n.toInt < 0) (natAbs_toInt_le n)
  rwa [signed_natAbs] at hplace

end Whole

end Criteria.Number.Binary64
