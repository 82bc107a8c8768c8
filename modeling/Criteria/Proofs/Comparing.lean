import Criteria.Proofs.Knowledge
import Criteria.Proofs.Rendering
import Criteria.Proofs.Rounding
import Mathlib.Data.List.TakeDrop
import Mathlib.Data.List.TakeWhile

/-!
# Comparing integers

An integer is compared with a target by taking both to doubles. So what decides is
the order of the two nearest doubles, which is not that of the integers where two
integers have one nearest double (`compare_integer_iff`): from `2 ^ 53` on they may,
if they are no more than 1024 apart.

A double is compared with the same target after the target has been read as a
double. That way of reading goes through the digits of a decimal literal and not
through an integer, but it also ends with the nearest double
(`readBinary64?_of_readInt64?`), and there is only one. An integer and the double it
is taken to are therefore told apart by no target that writes an integer
(`compare_integer_eq_float`).
-/

namespace Criteria

open Number Binary64 Text

/-! ## Digits -/

namespace Text

theorem isDigit_of_digitValue? {c : Char} {v : Nat} (h : digitValue? c = some v) :
    c.isDigit = true := by
  unfold digitValue? at h
  split at h
  · next hrange =>
      rw [Char.isDigit, Bool.and_eq_true, decide_eq_true_iff, decide_eq_true_iff]
      exact hrange
  · cases h

theorem isDigit_of_foldl_pushDigit {s : List Char} {o : Option Nat} {n : Nat}
    (h : s.foldl pushDigit o = some n) : o.isSome = true ∧ ∀ c ∈ s, c.isDigit = true := by
  induction s generalizing o with
  | nil => exact ⟨Option.isSome_of_eq_some h, fun c hc => by cases hc⟩
  | cons c rest ih =>
      obtain ⟨hpush, hrest⟩ := ih h
      obtain ⟨v, hv⟩ := Option.isSome_iff_exists.1 hpush
      simp only [pushDigit, Option.bind_eq_bind, Option.bind_eq_some_iff] at hv
      obtain ⟨m, hm, d, hd, -⟩ := hv
      exact ⟨Option.isSome_of_eq_some hm,
        List.forall_mem_cons.2 ⟨isDigit_of_digitValue? hd, hrest⟩⟩

theorem isDigit_of_readDigits? {s : List Char} {n : Nat} (h : readDigits? s = some n) :
    s ≠ [] ∧ ∀ c ∈ s, c.isDigit = true := by
  unfold readDigits? at h
  split at h
  · cases h
  · next hne => exact ⟨fun hnil => hne (List.isEmpty_iff.2 hnil), (isDigit_of_foldl_pushDigit h).2⟩

/-- An integer is read off its digits, and the sign is put to it. -/
theorem readInt64?_eq_some {s : List Char} {i : Int64} (h : readInt64? s = some i) :
    ∃ n : Nat, readDigits? (takeSign s).2 = some n ∧ i.toInt = signed (takeSign s).1 n := by
  obtain ⟨m, hm, hi⟩ := Option.bind_eq_some_iff.1 h
  simp only [readInt?, Option.map_eq_some_iff, Option.bind_eq_bind, Option.bind_eq_some_iff] at hm
  obtain ⟨_, ⟨n, hn, ⟨⟩⟩, rfl⟩ := hm
  exact ⟨n, hn, toInt64?_eq_some hi⟩

end Text

namespace Number

/-! ## Two ways of reading an integer -/

theorem Numeral.ofUnsigned?_digits (negative : Bool) {s : List Char} (hne : s ≠ [])
    (h : ∀ c ∈ s, c.isDigit = true) :
    Numeral.ofUnsigned? negative s = some ⟨negative, s, [], none⟩ := by
  have hspan : s.span Char.isDigit = (s, []) := by
    rw [List.span_eq_takeWhile_dropWhile, List.takeWhile_eq_self_iff.2 h,
      List.dropWhile_eq_nil_iff.2 h]
  have hempty : s.isEmpty = false := List.isEmpty_eq_false_iff.2 hne
  rw [Numeral.ofUnsigned?, hspan]
  simp only [hempty, Bool.false_and, Bool.false_eq_true, if_false]

theorem Binary64.place?_ofDecimal (negative : Bool) {n : Nat} (hn : n ≤ 2 ^ 63) :
    ∃ x, Nearest (signed negative n) 1 x ∧ (ofDecimal negative n 0).place? = some (0, x) := by
  by_cases hzero : n = 0
  · subst hzero
    refine ⟨signed negative 0, ?_, rfl⟩
    exact nearest_signed negative (nearest_whole (by decide))
  · have hlength : (Nat.toDigits 10 n).length ≤ 19 :=
      (Nat.length_toDigits_le_iff (by decide) (by decide)).2 (by omega)
    have hdecimal : ofDecimal negative n 0 = round negative n 1 := by
      rw [ofDecimal, if_neg hzero]
      simp only
      rw [if_neg (by omega), if_neg (by omega), if_pos (Int.le_refl 0)]
      exact congrArg (round negative · 1) (Nat.mul_one n)
    rw [hdecimal]
    exact place?_round negative hn

theorem readBinary64?_of_readInt64? {s : List Char} {i : Int64} (h : readInt64? s = some i) :
    ∃ y x, readBinary64? s = some y ∧ Nearest i.toInt 1 x ∧ y.place? = some (0, x) := by
  obtain ⟨n, hn, hi⟩ := readInt64?_eq_some h
  obtain ⟨hne, hdigits⟩ := isDigit_of_readDigits? hn
  have hle : n ≤ 2 ^ 63 := by
    rw [← natAbs_signed (takeSign s).1 n, ← hi]
    exact natAbs_toInt_le i
  obtain ⟨x, hnearest, hplace⟩ := place?_ofDecimal (takeSign s).1 hle
  have hread : readBinary64? s = some (ofDecimal (takeSign s).1 n 0) := by
    simp only [readBinary64?, Numeral.ofUnsigned?_digits _ hne hdigits, Numeral.nearest,
      Numeral.value, List.append_nil, hn]
    rfl
  exact ⟨_, x, hread, hi ▸ hnearest, hplace⟩

end Number

/-! ## What a comparator says of two numbers -/

namespace Comparator

/-- What a comparator says of two integers. -/
def Relates : Comparator → Int → Int → Prop
  | gt, a, b => b < a
  | ge, a, b => b ≤ a
  | lt, a, b => a < b
  | le, a, b => a ≤ b
  | eq, a, b => a = b
  | ne, a, b => a ≠ b

theorem holds_compare (c : Comparator) (a b : Int) :
    c.holds (some (compare a b)) = true ↔ c.Relates a b := by
  rcases lt_trichotomy a b with hlt | rfl | hgt
  · rw [compare_lt_iff_lt.2 hlt]
    cases c <;> simp [holds, Relates] <;> omega
  · rw [compare_eq_iff_eq.2 rfl]
    cases c <;> simp [holds, Relates]
  · rw [compare_gt_iff_gt.2 hgt]
    cases c <;> simp [holds, Relates] <;> omega

/-- Two numbers that stand for two integers, in the order of these or equal to each
other. -/
theorem relates_iff {a b x y : Int} (hle : a ≤ b → x ≤ y) (hge : b ≤ a → y ≤ x) :
    (∀ c : Comparator, c.Relates x y ↔ c.Relates a b) ↔ (x = y → a = b) := by
  constructor
  · exact fun h => (h .eq).1
  · intro h c
    cases c <;> simp only [Relates] <;> omega

theorem compareNumbers_iff {p q : Binary64} {x y : Int} (hp : p.place? = some (0, x))
    (hq : q.place? = some (0, y)) (c : Comparator) :
    c.compareNumbers p q = true ↔ c.Relates x y := by
  rw [compareNumbers, compare?, hp, hq]
  exact c.holds_compare x y

theorem compareNumbers_congr {p q q' : Binary64} (h : q.place? = q'.place?) (c : Comparator) :
    c.compareNumbers p q = c.compareNumbers p q' := by
  rw [compareNumbers, compareNumbers, compare?, compare?, h]

end Comparator

namespace FieldValue

variable {target : String} {b : Int64}

theorem compare_integer (hb : readInt64? target.toList = some b) (a : Int64) (c : Comparator) :
    (integer a).compare target c = c.compareNumbers (ofInt64 a) (ofInt64 b) := by
  simp only [compare, hb]

theorem compare_float {y : Binary64} (hy : readBinary64? target.toList = some y) (x : Binary64)
    (c : Comparator) : (float x).compare target c = c.compareNumbers x y := by
  simp only [compare, hy]

/-- A target that writes an integer does not tell an integer from its double. -/
theorem compare_ofInt64 (hb : readInt64? target.toList = some b) (a : Int64) (c : Comparator) :
    (float (ofInt64 a)).compare target c = (integer a).compare target c := by
  obtain ⟨y, x, hread, hnearest, hy⟩ := readBinary64?_of_readInt64? hb
  obtain ⟨x', hnearest', hb'⟩ := place?_ofInt64 b
  rw [compare_integer hb, compare_float hread]
  refine c.compareNumbers_congr ?_
  rw [hy, hb', hnearest.eq hnearest']

end FieldValue

/-! ## Conditions that ask for a number -/

/-- A condition that asks for a field, whichever way it writes the name. -/
structure Condition.Asks (cond : Condition) (f : Field) (c : Comparator) (target : String) :
    Prop where
  field : ∃ name, cond.field = some name ∧ Field.ofName? name = some f
  comparator : cond.comparator? = some c
  target : cond.target = some target

section Condition

variable {cond : Condition} {ctx : Context} {f : Field} {c : Comparator} {target : String}

theorem Condition.Asks.holds_eq (h : cond.Asks f c target) :
    cond.holds ctx = ((ctx.get? f.key).bind f.coerce?).elim false (·.compare target c) := by
  obtain ⟨⟨name, hname, hf⟩, hc, htarget⟩ := h
  rw [Condition.holds, hname, htarget, hc]
  simp only [ctx.resolve_eq name, hf, Option.bind_some, ctx.resolve_key f]
  cases (ctx.get? f.key).bind f.coerce? <;> rfl

/-- All fields but the one that holds a text have one answer for an integer. -/
theorem Condition.Asks.holds_integer (h : cond.Asks f c target) (hf : f ≠ .department)
    {a b : Int64} (hb : readInt64? target.toList = some b)
    (hctx : ctx.get? f.key = some (.integer a)) :
    cond.holds ctx = (FieldValue.integer a).compare target c := by
  rw [h.holds_eq, hctx, Option.bind_some]
  cases f with
  | age => rfl
  | salary => exact FieldValue.compare_ofInt64 hb a c
  | department => exact absurd rfl hf
  | experience => rfl

theorem Condition.Asks.holds_eq_self (h : cond.Asks f .eq target) (hf : f ≠ .department)
    {n : Int64} (hn : readInt64? target.toList = some n)
    (hctx : ctx.get? f.key = some (.integer n)) : cond.holds ctx = true := by
  obtain ⟨x, -, hplace⟩ := place?_ofInt64 n
  rw [h.holds_integer hf hn hctx, FieldValue.compare_integer hn]
  exact (Comparator.compareNumbers_iff hplace hplace .eq).2 rfl

end Condition

/-- An integer and a target that writes one stand as their nearest doubles stand.
These keep the order of the integers but may be one and the same, and unless they
are, every comparator says of them what it says of the integers. -/
theorem compare_integer_iff {target : String} {b : Int64}
    (hb : readInt64? target.toList = some b) (a : Int64) :
    ∃ x y, Nearest a.toInt 1 x ∧ Nearest b.toInt 1 y ∧
      (a.toInt ≤ b.toInt → x ≤ y) ∧ (b.toInt ≤ a.toInt → y ≤ x) ∧
      (∀ c, (FieldValue.integer a).compare target c = true ↔ c.Relates x y) ∧
      (∀ (f : Field) (cond : Condition) (ctx : Context) (c : Comparator),
        f ≠ .department → cond.Asks f c target → ctx.get? f.key = some (.integer a) →
          (cond.holds ctx = true ↔ c.Relates x y)) ∧
      ((∀ c : Comparator, (FieldValue.integer a).compare target c = true ↔
        c.Relates a.toInt b.toInt) ↔ (x = y → a = b)) ∧
      (x = y → a = b ∨ 2 ^ 53 ≤ a.toInt.natAbs ∧ 2 ^ 53 ≤ b.toInt.natAbs ∧
        (a.toInt - b.toInt).natAbs ≤ 1024) := by
  obtain ⟨x, hx, hplace⟩ := place?_ofInt64 a
  obtain ⟨y, hy, hplace'⟩ := place?_ofInt64 b
  have hle := hx.mono Nat.one_pos hy
  have hge := hy.mono Nat.one_pos hx
  have hcompare : ∀ c, (FieldValue.integer a).compare target c = true ↔ c.Relates x y :=
    fun c => by
      rw [FieldValue.compare_integer hb]
      exact Comparator.compareNumbers_iff hplace hplace' c
  refine ⟨x, y, hx, hy, hle, hge, hcompare, ?_, ?_, ?_⟩
  · intro f cond ctx c hf hasks hctx
    rw [hasks.holds_integer hf hb hctx]
    exact hcompare c
  · rw [← Int64.toInt_inj, ← Comparator.relates_iff hle hge]
    exact forall_congr' fun c => by rw [hcompare]
  · rintro rfl
    rcases Nat.lt_or_ge a.toInt.natAbs (2 ^ 53) with hsmall | ha
    · exact Or.inl (Int64.toInt_inj.1 (hx.eq_of_small hy hsmall))
    · rcases Nat.lt_or_ge b.toInt.natAbs (2 ^ 53) with hsmall | hb
      · exact Or.inl (Int64.toInt_inj.1 (hy.eq_of_small hx hsmall).symm)
      · exact Or.inr ⟨ha, hb, hx.sub_le hy (natAbs_toInt_le a) (natAbs_toInt_le b)⟩

/-- `2 ^ 53 + 1` has the double of `2 ^ 53`, and so they count as equal. -/
theorem compare_integer_iff_above_two_pow_53 :
    readInt64? "9007199254740992".toList = some 9007199254740992 ∧
      ∃ x, Nearest 9007199254740993 1 x ∧ Nearest 9007199254740992 1 x ∧
        ∀ c, (FieldValue.integer 9007199254740993).compare "9007199254740992" c = true ↔
          c.Relates x x := by
  have hread : readInt64? "9007199254740992".toList = some 9007199254740992 := by decide +kernel
  obtain ⟨x, y, hx, hy, -, -, hcompare, -⟩ := compare_integer_iff hread 9007199254740993
  have hxy : x = y := (hcompare .eq).1 (by decide +kernel)
  subst hxy
  exact ⟨hread, x, hx, hy, hcompare⟩

/-- Whether an integer or its double is compared with a target that writes an
integer, read as an integer or as a double, the answer is the same: either way the
target is taken to the nearest double. So the fields that hold numbers give one
answer, and an integer is equal to itself in all of them, however it is written. -/
theorem compare_integer_eq_float {target : String} {n : Int64}
    (hn : readInt64? target.toList = some n) (a : Int64) :
    (∀ c, (FieldValue.integer a).compare target c =
      (FieldValue.float (ofInt64 a)).compare target c) ∧
    (∃ y x, readBinary64? target.toList = some y ∧ Nearest n.toInt 1 x ∧
      y.place? = some (0, x) ∧ (ofInt64 n).place? = some (0, x)) ∧
    (∀ (f g : Field) (cond cond' : Condition) (ctx ctx' : Context) (c : Comparator),
      f ≠ .department → g ≠ .department → cond.Asks f c target → cond'.Asks g c target →
        ctx.get? f.key = some (.integer a) → ctx'.get? g.key = some (.integer a) →
          cond.holds ctx = cond'.holds ctx') ∧
    (∀ (f : Field) (cond : Condition) (ctx : Context), f ≠ .department →
      cond.Asks f .eq target → ctx.get? f.key = some (.integer n) → cond.holds ctx = true) ∧
    ∀ (m : Int64) (f : Field) (cond : Condition) (ctx : Context), f ≠ .department →
      cond.Asks f .eq (String.ofList (decimal m.toInt)) →
        ctx.get? f.key = some (.integer m) → cond.holds ctx = true := by
  refine ⟨fun c => (FieldValue.compare_ofInt64 hn a c).symm, ?_, ?_, ?_, ?_⟩
  · obtain ⟨y, x, hread, hnearest, hy⟩ := readBinary64?_of_readInt64? hn
    obtain ⟨x', hnearest', hplace⟩ := place?_ofInt64 n
    exact ⟨y, x, hread, hnearest, hy, hnearest.eq hnearest' ▸ hplace⟩
  · intro f g cond cond' ctx ctx' c hf hg h h' hctx hctx'
    rw [h.holds_integer hf hn hctx, h'.holds_integer hg hn hctx']
  · exact fun f cond ctx hf h hctx => h.holds_eq_self hf hn hctx
  · intro m f cond ctx hf h hctx
    refine h.holds_eq_self hf ?_ hctx
    rw [String.toList_ofList, readInt64?_decimal]

/-- A salary and an age that are written with a sign and zeros and that are not
doubles. -/
theorem compare_integer_eq_float_signed_zeros :
    let target := "-0009007199254740993"
    let salary := Condition.ofText ("salary = " ++ target)
    let age := Condition.ofText ("AGE = " ++ target)
    let ctx := (Context.empty.insert "salary" (.integer (-9007199254740993))).insert "age"
      (.integer (-9007199254740993))
    readInt64? target.toList = some (-9007199254740993) ∧
      (∀ c, (FieldValue.integer 7).compare target c =
        (FieldValue.float (ofInt64 7)).compare target c) ∧
      salary.holds ctx = age.holds ctx ∧ salary.holds ctx = true := by
  intro target salary age ctx
  have hread : readInt64? target.toList = some (-9007199254740993) := by decide +kernel
  have hsalary : salary.Asks .salary .eq target :=
    ⟨⟨"salary", by decide +kernel, by decide +kernel⟩, by decide +kernel, by decide +kernel⟩
  have hage : age.Asks .age .eq target :=
    ⟨⟨"AGE", by decide +kernel, by decide +kernel⟩, by decide +kernel, by decide +kernel⟩
  obtain ⟨hcompare, -, -⟩ := compare_integer_eq_float hread 7
  obtain ⟨-, -, hsame, hself, -⟩ := compare_integer_eq_float hread (-9007199254740993)
  exact ⟨hread, hcompare,
    hsame _ _ _ _ _ _ _ (by decide) (by decide) hsalary hage (by decide +kernel)
      (by decide +kernel),
    hself _ _ _ (by decide) hsalary (by decide +kernel)⟩

end Criteria
