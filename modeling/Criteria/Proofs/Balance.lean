import Criteria.Proofs.Splitting
import Criteria.Proofs.Words

/-!
# Parentheses that match

`Balanced` speaks of every beginning of a text. To go through a text from left to right
one has to know what is still to come: the rest closes what is open in front of it
(`Closes`), and this is passed on from character to character (`closes_cons`).

Only the parentheses of a text count (`balanced_congr`, `nesting_congr`), so a text may
be trimmed or cut into words and stays balanced or not.
-/

namespace Criteria

open Split Text

/-! ## Balanced texts -/

/-- Parentheses match: no closing one comes too early, and none is missing. -/
structure Balanced (s : List Char) : Prop where
  total : nesting s = 0
  early : ∀ i, 0 ≤ nesting (s.take i)

namespace Balanced

theorem plain {s : List Char} (h : ∀ c ∈ s, c ≠ '(' ∧ c ≠ ')') : Balanced s := by
  have hzero : ∀ t : List Char, (∀ c ∈ t, c ≠ '(' ∧ c ≠ ')') → nesting t = 0 := by
    intro t ht
    rw [nesting, List.count_eq_zero.2 fun hmem => (ht _ hmem).1 rfl,
      List.count_eq_zero.2 fun hmem => (ht _ hmem).2 rfl]
    rfl
  refine ⟨hzero s h, fun i => ?_⟩
  have hprefix := hzero (s.take i) fun c hc => h c (List.mem_of_mem_take hc)
  omega

theorem append {s t : List Char} (hs : Balanced s) (ht : Balanced t) : Balanced (s ++ t) := by
  refine ⟨by rw [nesting_append, hs.total, ht.total]; rfl, fun i => ?_⟩
  rw [List.take_append, nesting_append]
  exact Int.add_nonneg (hs.early i) (ht.early _)

theorem parenthesized {s : List Char} (h : Balanced s) : Balanced ('(' :: s ++ [')']) := by
  have hcons : '(' :: s ++ [')'] = ['('] ++ (s ++ [')']) := rfl
  refine ⟨?_, fun i => ?_⟩
  · rw [hcons, nesting_append, nesting_append, h.total, nesting_open, nesting_close]
    rfl
  · rw [hcons]
    cases i with
    | zero => exact Int.le_refl 0
    | succ i =>
        have hclose : -1 ≤ nesting ([')'].take (i - s.length)) := by
          cases i - s.length with
          | zero => decide
          | succ n =>
              have hone : nesting ([')'].take (n + 1)) = -1 := by
                rw [List.take_succ_cons, List.take_nil, nesting_close]
              omega
        have hearly := h.early i
        rw [List.singleton_append, List.take_succ_cons, ← List.singleton_append, nesting_append,
          nesting_open, List.take_append, nesting_append]
        omega

end Balanced

/-! ## What is open in front -/

/-- A text closes what is open in front of it: no more at any place, and all of it at
the end. -/
structure Closes (depth : Int) (s : List Char) : Prop where
  total : depth + nesting s = 0
  early : ∀ i, 0 ≤ depth + nesting (s.take i)

theorem balanced_iff_closes {s : List Char} : Balanced s ↔ Closes 0 s := by
  constructor
  · rintro ⟨htotal, hearly⟩
    exact ⟨by omega, fun i => by have := hearly i; omega⟩
  · rintro ⟨htotal, hearly⟩
    exact ⟨by omega, fun i => by have := hearly i; omega⟩

theorem closes_append {depth : Int} {s t : List Char} :
    Closes depth (s ++ t) ↔
      (∀ i, 0 ≤ depth + nesting (s.take i)) ∧ Closes (depth + nesting s) t := by
  constructor
  · rintro ⟨htotal, hearly⟩
    rw [nesting_append] at htotal
    refine ⟨fun i => ?_, by omega, fun i => ?_⟩
    · have h := hearly (min i s.length)
      rwa [List.take_append_of_le_length (Nat.min_le_right _ _), ← List.take_eq_take_min] at h
    · have h := hearly (s.length + i)
      rwa [List.take_length_add_append, nesting_append, ← Int.add_assoc] at h
  · rintro ⟨hfirst, htotal, hearly⟩
    refine ⟨by rw [nesting_append]; omega, fun i => ?_⟩
    -- A beginning of the whole ends in the first part, or has all of it.
    rcases Nat.le_total i s.length with hle | hle
    · rw [List.take_append_of_le_length hle]
      exact hfirst i
    · obtain ⟨j, rfl⟩ := Nat.exists_eq_add_of_le hle
      rw [List.take_length_add_append, nesting_append, ← Int.add_assoc]
      exact hearly j

theorem Closes.nonneg {depth : Int} {s : List Char} (h : Closes depth s) : 0 ≤ depth := by
  have hzero := h.early 0
  rwa [List.take_zero, nesting_nil, Int.add_zero] at hzero

theorem closes_cons {depth : Int} {c : Char} {rest : List Char} :
    Closes depth (c :: rest) ↔ 0 ≤ depth ∧ Closes (depth + nesting [c]) rest := by
  rw [← List.singleton_append, closes_append]
  refine and_congr_left fun h => ⟨fun hearly => ?_, fun hdepth i => ?_⟩
  · have hzero := hearly 0
    rwa [List.take_zero, nesting_nil, Int.add_zero] at hzero
  · cases i with
    | zero => rwa [List.take_zero, nesting_nil, Int.add_zero]
    | succ i =>
        rw [List.take_succ_cons, List.take_nil]
        exact h.nonneg

theorem balanced_append_iff {s t : List Char} (h : nesting s = 0) :
    Balanced (s ++ t) ↔ Balanced s ∧ Balanced t := by
  rw [balanced_iff_closes, closes_append, h, Int.add_zero, ← balanced_iff_closes]
  refine and_congr_left fun _ => ⟨fun hearly => ⟨h, fun i => ?_⟩, fun hs i => ?_⟩
  · have := hearly i
    omega
  · have := hs.early i
    omega

/-! ## Only parentheses matter -/

/-- The parentheses of a text. -/
def parentheses (s : List Char) : List Char :=
  s.filter fun c => c == '(' || c == ')'

theorem parentheses_append (s t : List Char) :
    parentheses (s ++ t) = parentheses s ++ parentheses t :=
  List.filter_append _ _

theorem parentheses_plain {s : List Char} (h : ∀ c ∈ s, c ≠ '(' ∧ c ≠ ')') : parentheses s = [] :=
  List.filter_eq_nil_iff.2 fun c hc => by simp [h c hc]

theorem parentheses_blanks {b : List Char} (hb : Blanks b) : parentheses b = [] := by
  refine parentheses_plain fun c hc => ⟨?_, ?_⟩
  · rintro rfl
    cases hb _ hc
  · rintro rfl
    cases hb _ hc

theorem count_parentheses {c : Char} (hc : c = '(' ∨ c = ')') (s : List Char) :
    (parentheses s).count c = s.count c :=
  List.count_filter (by simpa using hc)

theorem nesting_congr {s t : List Char} (h : parentheses s = parentheses t) :
    nesting s = nesting t := by
  rw [nesting, ← count_parentheses (Or.inl rfl), ← count_parentheses (Or.inr rfl), h,
    count_parentheses (Or.inl rfl), count_parentheses (Or.inr rfl), nesting]

theorem nesting_blanks {b : List Char} (hb : Blanks b) : nesting b = 0 := by
  have hnone : parentheses b = parentheses [] := parentheses_blanks hb
  rw [nesting_congr hnone, nesting_nil]

theorem closes_parentheses {depth : Int} {s : List Char} :
    Closes depth (parentheses s) ↔ Closes depth s := by
  induction s generalizing depth with
  | nil => exact Iff.rfl
  | cons c s ih =>
      by_cases hparenthesis : c = '(' ∨ c = ')'
      · have hcons : parentheses (c :: s) = c :: parentheses s :=
          List.filter_cons_of_pos (by simpa using hparenthesis)
        rw [hcons, closes_cons, closes_cons, ih]
      · have hcons : parentheses (c :: s) = parentheses s :=
          List.filter_cons_of_neg (by simpa using hparenthesis)
        obtain ⟨hopen, hclose⟩ := not_or.1 hparenthesis
        rw [hcons, closes_cons, nesting_plain hopen hclose, Int.add_zero, ih,
          and_iff_right_of_imp Closes.nonneg]

/-- Texts with the same parentheses are balanced alike. -/
theorem balanced_congr {s t : List Char} (h : parentheses s = parentheses t) :
    Balanced s ↔ Balanced t := by
  rw [balanced_iff_closes, ← closes_parentheses, h, closes_parentheses, balanced_iff_closes]

theorem parentheses_pad {b b' : List Char} (hb : Blanks b) (hb' : Blanks b') (s : List Char) :
    parentheses (b ++ s ++ b') = parentheses s := by
  rw [parentheses_append, parentheses_append, parentheses_blanks hb, parentheses_blanks hb',
    List.nil_append, List.append_nil]

theorem parentheses_trim (s : List Char) : parentheses (trim s) = parentheses s := by
  obtain ⟨b, b', hb, hb', heq⟩ := exists_trim s
  conv_rhs => rw [heq, parentheses_pad hb hb']

theorem nesting_trim (s : List Char) : nesting (trim s) = nesting s :=
  nesting_congr (parentheses_trim s)

theorem balanced_trim {s : List Char} : Balanced (trim s) ↔ Balanced s :=
  balanced_congr (parentheses_trim s)

theorem count_trim {c : Char} (hc : c = '(' ∨ c = ')') (s : List Char) :
    (trim s).count c = s.count c := by
  rw [← count_parentheses hc, parentheses_trim, count_parentheses hc]

/-- A text has the parentheses of its words. -/
theorem parentheses_spaced {ws : List (List Char)} {s : List Char} (h : Spaced ws s) :
    parentheses s = parentheses ws.flatten := by
  induction h with
  | nil hb => exact parentheses_blanks hb
  | cons hb _ ih =>
      rw [parentheses_append, parentheses_append, parentheses_blanks hb, ih, List.nil_append,
        List.flatten_cons, parentheses_append]

end Criteria
