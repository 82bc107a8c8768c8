import Criteria.Tree.Printer
import Criteria.Tree.Split

/-!
# Where a text splits

`SplitsAt` says that a connective stands at a position of a text and that the
parentheses before it are balanced, and `FirstSplit` that there is none before.
The scan of `Split.operands?` counts parentheses on its way and stops at the
first match. This file proves that it stops at the first split, or goes to the
end if there is none. What the induction over the rest of the text carries is
that no split lies in the part that has been passed.

Nothing is said here about whether parentheses match. The count may well go
below zero and come back.
-/

namespace Criteria.Split

def nesting (s : List Char) : Int :=
  s.count '(' - s.count ')'

/-- A connective stands at a position, outside all parentheses. -/
structure SplitsAt (s : List Char) (i : Nat) (c : Connective) : Prop where
  plain : s[i]? ≠ some '(' ∧ s[i]? ≠ some ')'
  outside : nesting (s.take i) = 0
  starts : c.delimiter <+: s.drop i

/-- The first split of a text. -/
structure FirstSplit (s : List Char) (i : Nat) (c : Connective) : Prop where
  splits : SplitsAt s i c
  first : ∀ j c', SplitsAt s j c' → i ≤ j

/-- A text that starts with an opening parenthesis and ends with a closing one,
without the two. -/
def stripped (s : List Char) : List Char :=
  if 2 ≤ s.length ∧ s.head? = some '(' ∧ s.getLast? = some ')' then s.tail.dropLast else s

theorem stripOuter_eq (s : List Char) : stripOuter s = stripped s := by
  unfold stripOuter stripped
  split
  · next rest =>
      cases rest with
      | nil => rfl
      | cons c rest => simp
  · next hne =>
      rw [if_neg]
      rintro ⟨-, hhead, -⟩
      cases s with
      | nil => cases hhead
      | cons c rest => cases hhead; exact hne rest rfl

theorem stripped_of_not {s : List Char} (h : ¬(s.head? = some '(' ∧ s.getLast? = some ')')) :
    stripped s = s := by
  rw [stripped, if_neg fun hwrapped => h hwrapped.2]

theorem stripped_parenthesized (s : List Char) : stripped ('(' :: s ++ [')']) = s := by
  rw [stripped, if_pos ⟨by simp, rfl, List.getLast?_concat⟩, List.cons_append, List.tail_cons,
    List.dropLast_concat]

/-! ## Counting -/

@[simp] theorem nesting_nil : nesting [] = 0 :=
  rfl

@[simp] theorem nesting_append (s t : List Char) : nesting (s ++ t) = nesting s + nesting t := by
  simp only [nesting, List.count_append, Int.natCast_add]
  omega

theorem nesting_open : nesting ['('] = 1 :=
  rfl

theorem nesting_close : nesting [')'] = -1 :=
  rfl

theorem nesting_plain {c : Char} (hopen : c ≠ '(') (hclose : c ≠ ')') : nesting [c] = 0 := by
  simp [nesting, hopen, hclose]

/-! ## Delimiters -/

theorem delimiter?_eq_some {s right : List Char} {c : Connective} :
    delimiter? s = some (c, right) ↔ s = c.delimiter ++ right := by
  constructor
  · intro h
    unfold delimiter? at h
    split at h
    · cases h; rfl
    · cases h; rfl
    · cases h
  · rintro rfl
    cases c <;> rfl

theorem delimiter_unique {s : List Char} {c c' : Connective} (h : c.delimiter <+: s)
    (h' : c'.delimiter <+: s) : c = c' := by
  obtain ⟨right, rfl⟩ := h
  obtain ⟨right', h'⟩ := h'
  have := delimiter?_eq_some.2 h'.symm
  rw [delimiter?_eq_some.2 rfl] at this
  cases this
  rfl

theorem delimiter_eq (c : Connective) : c.delimiter = ' ' :: (c.word.toList ++ [' ']) :=
  rfl

theorem delimiter_pos (c : Connective) : 0 < c.delimiter.length := by
  cases c <;> decide

theorem FirstSplit.unique {s : List Char} {i j : Nat} {c c' : Connective}
    (h : FirstSplit s i c) (h' : FirstSplit s j c') : i = j ∧ c = c' := by
  obtain rfl : i = j := Nat.le_antisymm (h.first j c' h'.splits) (h'.first i c h.splits)
  exact ⟨rfl, delimiter_unique h.splits.starts h'.splits.starts⟩

/-! ## The scan -/

theorem splitsAt_length {pre s : List Char} {c : Connective} :
    SplitsAt (pre ++ s) pre.length c ↔
      (s.head? ≠ some '(' ∧ s.head? ≠ some ')') ∧ nesting pre = 0 ∧ c.delimiter <+: s := by
  have hhead : (pre ++ s)[pre.length]? = s.head? := by
    rw [List.getElem?_append_right (Nat.le_refl _), Nat.sub_self, List.head?_eq_getElem?]
  constructor
  · rintro ⟨hplain, houtside, hstarts⟩
    rw [List.take_left] at houtside
    rw [List.drop_left] at hstarts
    exact ⟨hhead ▸ hplain, houtside, hstarts⟩
  · rintro ⟨hplain, houtside, hstarts⟩
    refine ⟨hhead ▸ hplain, ?_, ?_⟩
    · rwa [List.take_left]
    · rwa [List.drop_left]

theorem SplitsAt.blank {s : List Char} {i : Nat} {c : Connective} (h : SplitsAt s i c) :
    s[i]? = some ' ' := by
  obtain ⟨rest, hrest⟩ := h.starts
  rw [delimiter_eq] at hrest
  rw [← List.head?_drop, ← hrest]
  rfl

/-- Splits behind a part without parentheses are those of the rest. -/
theorem splitsAt_append {pre s : List Char} {j : Nat} {c : Connective} (hpre : nesting pre = 0) :
    SplitsAt (pre ++ s) (pre.length + j) c ↔ SplitsAt s j c := by
  have hget : (pre ++ s)[pre.length + j]? = s[j]? := by
    rw [List.getElem?_append_right (Nat.le_add_right _ _), Nat.add_sub_cancel_left]
  have hnesting : nesting ((pre ++ s).take (pre.length + j)) = nesting (s.take j) := by
    rw [List.take_length_add_append, nesting_append, hpre, Int.zero_add]
  constructor
  · rintro ⟨hplain, houtside, hstarts⟩
    rw [List.drop_length_add_append] at hstarts
    exact ⟨hget ▸ hplain, hnesting ▸ houtside, hstarts⟩
  · rintro ⟨hplain, houtside, hstarts⟩
    refine ⟨hget ▸ hplain, hnesting ▸ houtside, ?_⟩
    rwa [List.drop_length_add_append]

/-- A split stays one if the text goes on. -/
theorem SplitsAt.append_right {s : List Char} {i : Nat} {c : Connective} (h : SplitsAt s i c)
    (more : List Char) : SplitsAt (s ++ more) i c := by
  have hlt : i < s.length := by
    refine Nat.lt_of_not_le fun hle => ?_
    have hblank := h.blank
    rw [List.getElem?_eq_none hle] at hblank
    cases hblank
  obtain ⟨hplain, houtside, hstarts⟩ := h
  refine ⟨?_, ?_, ?_⟩
  · rwa [List.getElem?_append_left hlt]
  · rwa [List.take_append_of_le_length (Nat.le_of_lt hlt)]
  · rw [List.drop_append_of_le_length (Nat.le_of_lt hlt)]
    exact hstarts.trans (List.prefix_append _ _)

/-- One step of the scan: it stops at a split, or there is none here and it
goes on behind the character. -/
theorem scan_step (pre : List Char) (ch : Char) (rest : List Char) :
    (∃ c right, SplitsAt (pre ++ ch :: rest) pre.length c ∧ ch :: rest = c.delimiter ++ right ∧
      scan (nesting pre) pre.reverse (ch :: rest) = some ⟨pre, c, right⟩) ∨
    ((∀ c, ¬ SplitsAt (pre ++ ch :: rest) pre.length c) ∧
      scan (nesting pre) pre.reverse (ch :: rest) =
        scan (nesting (pre ++ [ch])) (pre ++ [ch]).reverse rest) := by
  rw [scan, nesting_append, List.reverse_append, List.reverse_singleton, List.singleton_append]
  split
  · next hopen =>
      subst hopen
      refine Or.inr ⟨fun c h => (splitsAt_length.1 h).1.1 rfl, ?_⟩
      rw [nesting_open]
  · next hopen =>
      split
      · next hclose =>
          subst hclose
          refine Or.inr ⟨fun c h => (splitsAt_length.1 h).1.2 rfl, ?_⟩
          rw [nesting_close]
          rfl
      · next hclose =>
          rw [nesting_plain hopen hclose, Int.add_zero]
          split
          · next hzero =>
              split
              · next c right hd =>
                  rw [delimiter?_eq_some] at hd
                  refine Or.inl ⟨c, right, splitsAt_length.2 ⟨?_, hzero, right, hd.symm⟩, hd, ?_⟩
                  · simpa using ⟨hopen, hclose⟩
                  · rw [List.reverse_reverse]
              · next hd =>
                  refine Or.inr ⟨fun c h => ?_, rfl⟩
                  obtain ⟨right, hright⟩ := (splitsAt_length.1 h).2.2
                  rw [delimiter?_eq_some.2 hright.symm] at hd
                  cases hd
          · next hzero => exact Or.inr ⟨fun c h => hzero (splitsAt_length.1 h).2.1, rfl⟩

theorem splitsAt_behind {pre rest : List Char} {ch : Char}
    (hno : ∀ j c, SplitsAt (pre ++ ch :: rest) j c → pre.length ≤ j)
    (hhere : ∀ c, ¬ SplitsAt (pre ++ ch :: rest) pre.length c) :
    ∀ j c, SplitsAt ((pre ++ [ch]) ++ rest) j c → (pre ++ [ch]).length ≤ j := by
  intro j c h
  rw [List.append_assoc, List.singleton_append] at h
  have hle := hno j c h
  have hne : pre.length ≠ j := fun heq => hhere c (heq ▸ h)
  rw [List.length_append, List.length_singleton]
  omega

theorem scan_some {s pre : List Char} {o : Operands}
    (hno : ∀ j c, SplitsAt (pre ++ s) j c → pre.length ≤ j)
    (h : scan (nesting pre) pre.reverse s = some o) :
    ∃ i, FirstSplit (pre ++ s) i o.connective ∧ o.left = (pre ++ s).take i ∧
      o.right = (pre ++ s).drop (i + o.connective.delimiter.length) := by
  induction s generalizing pre with
  | nil => cases h
  | cons ch rest ih =>
      rcases scan_step pre ch rest with ⟨c, right, hsplits, hd, hscan⟩ | ⟨hhere, hscan⟩
      · rw [hscan] at h
        cases h
        refine ⟨pre.length, ⟨hsplits, hno⟩, by rw [List.take_left], ?_⟩
        rw [hd, ← List.append_assoc, ← List.length_append, List.drop_left]
      · rw [hscan] at h
        have := ih (splitsAt_behind hno hhere) h
        rwa [List.append_assoc, List.singleton_append] at this

theorem scan_none {s pre : List Char}
    (hno : ∀ j c, SplitsAt (pre ++ s) j c → pre.length ≤ j)
    (h : scan (nesting pre) pre.reverse s = none) : ∀ i c, ¬ SplitsAt (pre ++ s) i c := by
  induction s generalizing pre with
  | nil =>
      intro i c hsplits
      have hle := hno i c hsplits
      have hlen := hsplits.starts.length_le
      have hpos := delimiter_pos c
      rw [List.append_nil] at hlen
      rw [List.length_drop] at hlen
      omega
  | cons ch rest ih =>
      rcases scan_step pre ch rest with ⟨c, right, hsplits, hd, hscan⟩ | ⟨hhere, hscan⟩
      · rw [hscan] at h; cases h
      · rw [hscan] at h
        have := ih (splitsAt_behind hno hhere) h
        rwa [List.append_assoc, List.singleton_append] at this

theorem operands?_some {s : List Char} {o : Operands} (h : operands? s = some o) :
    ∃ i, FirstSplit s i o.connective ∧ o.left = s.take i ∧
      o.right = s.drop (i + o.connective.delimiter.length) :=
  @scan_some s [] o (fun _ _ _ => Nat.zero_le _) h

theorem operands?_none {s : List Char} (h : operands? s = none) :
    ∀ i c, ¬ SplitsAt s i c :=
  @scan_none s [] (fun _ _ _ => Nat.zero_le _) h

theorem operands?_eq_none_iff {s : List Char} :
    operands? s = none ↔ ∀ i c, ¬ SplitsAt s i c := by
  refine ⟨operands?_none, fun h => ?_⟩
  cases ho : operands? s with
  | none => rfl
  | some o =>
      obtain ⟨i, hfirst, -⟩ := operands?_some ho
      exact absurd hfirst.splits (h i o.connective)

theorem operands?_of_firstSplit {s : List Char} {i : Nat} {c : Connective}
    (h : FirstSplit s i c) :
    operands? s = some ⟨s.take i, c, s.drop (i + c.delimiter.length)⟩ := by
  cases ho : operands? s with
  | none => exact absurd h.splits (operands?_none ho i c)
  | some o =>
      obtain ⟨j, hj, hleft, hright⟩ := operands?_some ho
      obtain ⟨rfl, rfl⟩ := h.unique hj
      rw [← hleft, ← hright]

end Criteria.Split
