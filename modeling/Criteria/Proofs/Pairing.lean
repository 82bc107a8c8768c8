import Criteria.Proofs.Conservation
import Criteria.Proofs.Joining
import Criteria.Proofs.Shape

/-!
# Parentheses that are dropped

Strict mode counts the parentheses of a whole text, and reading drops one pair around
each piece without asking whether its two parentheses belong together. So a text may
be accepted although a parenthesis stays behind in a condition, away from its
partner. Such a text is `(age) > (30)`.

As long as all that is dropped are pairs that belong together (`Paired`), every piece
is balanced, and so are the conditions that the pieces end in. The converse holds as
well, because a pair around a balanced text belongs together. What is left is how a
condition falls into words: a pair may open in the field and close in the target.
-/

namespace Criteria

open Split Text

/-! ## Parentheses around a text -/

/-- Some parenthesis is open at every place inside a text. -/
def StaysOpen (s : List Char) : Prop :=
  ∀ i < s.length, 0 < i → 0 < nesting (s.take i)

/-- If a text starts with a parenthesis and ends with one, the two belong together. -/
def Paired (s : List Char) : Prop :=
  Unwrapped s ∨ StaysOpen (trim s)

theorem staysOpen_parenthesized_iff {s : List Char} (h : nesting s = 0) :
    StaysOpen ('(' :: s ++ [')']) ↔ Balanced s := by
  have hinside : ∀ i ≤ s.length,
      nesting (('(' :: s ++ [')']).take (i + 1)) = 1 + nesting (s.take i) := by
    intro i hi
    rw [List.cons_append, List.take_succ_cons, List.take_append_of_le_length hi,
      ← List.singleton_append, nesting_append, nesting_open]
  have hlength : ('(' :: s ++ [')']).length = s.length + 2 := by
    rw [List.length_append, List.length_cons, List.length_singleton]
  constructor
  · intro hopen
    refine ⟨h, fun i => ?_⟩
    rcases Nat.le_total i s.length with hi | hi
    · have hplace := hopen (i + 1) (by omega) (Nat.succ_pos i)
      rw [hinside i hi] at hplace
      omega
    · rw [List.take_of_length_le hi]
      omega
  · intro hbalanced i hi hpos
    obtain ⟨j, rfl⟩ := Nat.exists_eq_succ_of_ne_zero (Nat.pos_iff_ne_zero.1 hpos)
    have hearly := hbalanced.early j
    rw [hinside j (by omega)]
    omega

theorem trim_of_not_unwrapped {s : List Char} (h : ¬ Unwrapped s) :
    trim s = '(' :: body s ++ [')'] := by
  obtain ⟨hhead, hlast⟩ := not_not.1 h
  obtain ⟨rest, hrest⟩ := List.head?_eq_some_iff.1 hhead
  rcases List.eq_nil_or_concat rest with rfl | ⟨inside, c, rfl⟩
  · rw [hrest] at hlast
    cases hlast
  · rw [List.concat_eq_append, ← List.cons_append] at hrest
    rw [hrest, List.getLast?_concat] at hlast
    cases hlast
    rw [Tree.body_eq, hrest, stripped_parenthesized]

/-- A balanced text without the pair at its ends is balanced if the pair belongs
together, and only then. -/
theorem Balanced.paired_iff {s : List Char} (h : Balanced s) : Paired s ↔ Balanced (body s) := by
  by_cases hunwrapped : Unwrapped s
  · rw [hunwrapped.body, balanced_trim]
    exact iff_of_true (Or.inl hunwrapped) h
  · have htotal : nesting (body s) = 0 := (nesting_body s).trans h.total
    rw [Paired, or_iff_right hunwrapped, trim_of_not_unwrapped hunwrapped,
      staysOpen_parenthesized_iff htotal]

theorem balanced_of_body {s : List Char} (h : Balanced (body s)) : Balanced s := by
  rw [← balanced_trim]
  rcases trim_eq_body s with heq | heq
  · rwa [heq]
  · rw [heq]
    exact h.parenthesized

/-! ## Pieces and leaves -/

namespace Tree

variable {text s : List Char}

theorem Piece.nesting_eq (h : Piece text s) (htext : nesting text = 0) : nesting s = 0 := by
  induction h with
  | whole => exact htext
  | left _ ho _ => exact nesting_left ho
  | right _ ho ih => rw [nesting_right ho, ih]

theorem balanced_body_of_conditions
    (h : ∀ c ∈ (ofChars s).conditions, Balanced c.value.toList) : Balanced (body s) := by
  induction s using ofChars.induct with
  | case1 s o ho ihl ihr =>
      rw [ofChars_some ho, conditions, List.forall_mem_append] at h
      have hleft := balanced_of_body (ihl h.1)
      have hright := balanced_of_body (ihr h.2)
      rw [body_eq_append ho]
      exact (hleft.append (balanced_delimiter _)).append hright
  | case2 s ho =>
      rw [ofChars_none ho, ofCondition, conditions, List.forall_mem_singleton, value_ofText,
        String.toList_ofList, balanced_trim] at h
      exact h

theorem Piece.balanced (h : Piece text s) (htext : Balanced text)
    (hpaired : ∀ s, Piece text s → Paired s) : Balanced s := by
  -- The body of a balanced piece is balanced, and it splits outside all parentheses.
  induction h with
  | whole => exact htext
  | left h ho ih =>
      have hbody := ih.paired_iff.1 (hpaired _ h)
      rw [body_eq_append ho, List.append_assoc, balanced_append_iff (nesting_left ho)] at hbody
      exact hbody.1
  | right h ho ih =>
      have hbody := ih.paired_iff.1 (hpaired _ h)
      rw [body_eq_append ho, List.append_assoc, balanced_append_iff (nesting_left ho),
        balanced_append_iff (nesting_delimiter _)] at hbody
      exact hbody.2.2

/-- The leaves of a balanced text are balanced if and only if all that is dropped are
pairs that belong together. -/
theorem balanced_conditions_iff (htext : Balanced text) :
    (∀ c ∈ (ofChars text).conditions, Balanced c.value.toList) ↔
      ∀ s, Piece text s → Paired s := by
  constructor
  · intro hleaves s hs
    have hbody : Balanced (body s) :=
      balanced_body_of_conditions fun c hc => hleaves c (hs.conditions_subset hc)
    exact (balanced_of_body hbody).paired_iff.2 hbody
  · intro hpaired c hc
    obtain ⟨s, hs, -, rfl⟩ := mem_conditions_ofChars.1 hc
    rw [value_ofText, String.toList_ofList, balanced_trim]
    exact (hs.balanced htext hpaired).paired_iff.1 (hpaired s hs)

end Tree

/-! ## The parts of a condition -/

namespace Condition

/-- The parts that a condition has. -/
def parts (c : Condition) : List String :=
  [c.field, c.comparison, c.target].filterMap id

theorem words_ofText {text : String} (h : (ofText text).IsFormed) :
    words text.toList = (ofText text).parts.map String.toList := by
  rw [ofText] at h ⊢
  split at h
  · next field comparison target hwords =>
      rw [hwords]
      simp [parts]
  · obtain ⟨field, op, target, hfield, -⟩ := h
    cases hfield

/-- A condition has the parentheses of its field and its target, and none in its
comparison. -/
theorem exists_parts {c : Condition} (hc : c = ofText c.value) (h : c.IsFormed) :
    ∃ field op target, c.parts = [field, Comparator.symbol op, target] ∧
      c.field = some field ∧ c.comparison = some (Comparator.symbol op) ∧ c.target = some target ∧
      parentheses c.value.toList = parentheses (field.toList ++ target.toList) := by
  obtain ⟨field, op, target, hfield, hcomparison, htarget⟩ := id h
  have hparts : c.parts = [field, op.symbol, target] := by
    rw [parts, hfield, hcomparison, htarget]
    rfl
  have hsymbol : parentheses op.symbol.toList = [] :=
    parentheses_plain (isPlain_symbol op).unparenthesized
  refine ⟨field, op, target, hparts, hfield, hcomparison, htarget, ?_⟩
  rw [parentheses_spaced (spaced_words _), words_ofText (hc ▸ h), ← hc, hparts]
  simp [parentheses_append, hsymbol]

variable {c : Condition}

theorem balanced_parts_iff (hc : c = ofText c.value) (h : c.IsFormed) :
    (∀ part ∈ c.parts, Balanced part.toList) ↔
      Balanced c.value.toList ∧ ∀ field, c.field = some field → nesting field.toList = 0 := by
  obtain ⟨field, op, target, hparts, hfield, -, -, hvalue⟩ := exists_parts hc h
  have hsymbol : Balanced op.symbol.toList := .plain (isPlain_symbol op).unparenthesized
  rw [hparts, balanced_congr hvalue, List.forall_mem_cons, List.forall_mem_cons,
    List.forall_mem_singleton, and_iff_right hsymbol]
  constructor
  · rintro ⟨hfirst, hlast⟩
    refine ⟨hfirst.append hlast, fun field' hfield' => ?_⟩
    cases hfield.symm.trans hfield'
    exact hfirst.total
  · rintro ⟨hboth, hnesting⟩
    exact (balanced_append_iff (hnesting field hfield)).1 hboth

theorem count_parts (hc : c = ofText c.value) (h : c.IsFormed) {ch : Char}
    (hch : ch = '(' ∨ ch = ')') :
    (c.parts.map (·.toList.count ch)).sum = c.value.toList.count ch := by
  obtain ⟨field, op, target, hparts, -, -, -, hvalue⟩ := exists_parts hc h
  have hsymbol : op.symbol.toList.count ch = 0 :=
    List.count_eq_zero.2 fun hmem => by
      have hplain := (isPlain_symbol op).unparenthesized ch hmem
      exact hch.elim hplain.1 hplain.2
  rw [← count_parentheses hch, hvalue, count_parentheses hch, List.count_append, hparts]
  simp [hsymbol]

end Condition

/-! ## What strict mode accepts -/

/-- Of a text that strict mode accepts, as many opening as closing parentheses are
dropped. The others are in the fields and the targets of conditions, in each condition
as many of the one as of the other. The parts are balanced each by itself if and only
if all that is dropped are pairs that belong together and no condition has one half of
a pair in its field and the other half in its target. -/
theorem parts_balanced_iff {text : String} {t : Tree} (h : Mode.strict.parse text = .ok t) :
    (∀ c ∈ t.leaves, ∃ field op target, c.field = some field ∧
      c.comparison = some (Comparator.symbol op) ∧ c.target = some target ∧
      nesting field.toList + nesting target.toList = 0) ∧
    (∃ dropped ≤ t.nodeCount, ∀ ch, ch = '(' ∨ ch = ')' →
      text.toList.count ch =
        (t.leaves.map fun c => (c.parts.map (·.toList.count ch)).sum).sum + dropped) ∧
    ((∀ c ∈ t.leaves, ∀ part ∈ c.parts, Balanced part.toList) ↔
      (∀ s, Tree.Piece text.toList s → Paired s) ∧
        ∀ c ∈ t.leaves, ∀ field, c.field = some field → nesting field.toList = 0) := by
  obtain ⟨rfl, hbalanced, hformed⟩ := strict_parse_ok_iff.1 h
  have hwhole := (Tree.whole_parse text).leaves
  refine ⟨fun c hc => ?_, ?_, ?_⟩
  · obtain ⟨field, op, target, -, hfield, hcomparison, htarget, hvalue⟩ :=
      Condition.exists_parts (hwhole c hc) (hformed c hc)
    obtain ⟨s, hs, -, hleaf⟩ := Tree.mem_leaves_parse.1 hc
    refine ⟨field, op, target, hfield, hcomparison, htarget, ?_⟩
    rw [← nesting_append, ← nesting_congr hvalue, hleaf, value_ofText, String.toList_ofList,
      nesting_trim, nesting_body, hs.nesting_eq hbalanced.total]
  · obtain ⟨dropped, hle, hcount⟩ := Tree.exists_dropped text.toList
    rw [← Tree.parse_eq_ofChars] at hle hcount
    refine ⟨dropped, hle, fun ch hch => ?_⟩
    rw [hcount ch hch, Tree.occurrences,
      List.map_congr_left fun c hc => Condition.count_parts (hwhole c hc) (hformed c hc) hch]
  · have hparts : (∀ c ∈ (Tree.parse text).leaves, ∀ part ∈ c.parts, Balanced part.toList) ↔
        ∀ c ∈ (Tree.parse text).leaves, Balanced c.value.toList ∧
          ∀ field, c.field = some field → nesting field.toList = 0 :=
      forall₂_congr fun c hc => Condition.balanced_parts_iff (hwhole c hc) (hformed c hc)
    rw [hparts, forall₂_and, ← Tree.balanced_conditions_iff hbalanced, Tree.leaves_eq_conditions,
      Tree.parse_eq_ofChars]

/-- A group beside a call with arguments: all parts are balanced, so the group is
dropped as a whole. -/
theorem parts_balanced_iff_group :
    let text := "(age > 30 OR limit(x) < 5) AND salary = 1"
    let group := "(age > 30 OR limit(x) < 5)".toList
    Mode.strict.parse text = .ok (Tree.parse text) ∧
      (∀ c ∈ (Tree.parse text).leaves, ∀ part ∈ c.parts, Balanced part.toList) ∧
      StaysOpen group := by
  intro text group
  have hparse : Mode.strict.parse text = .ok (Tree.parse text) := by
    have hfault : Tree.fault? text = none := by decide +kernel
    rw [Mode.parse, hfault]
  have hparts : ∀ c ∈ (Tree.parse text).leaves, ∀ part ∈ c.parts, Balanced part.toList := by
    decide +kernel
  obtain ⟨-, -, hiff⟩ := parts_balanced_iff hparse
  have ho : operands? (body text.toList) = some ⟨group, .and, "salary = 1".toList⟩ := by
    decide +kernel
  refine ⟨hparse, hparts, ?_⟩
  rcases (hiff.1 hparts).1 group (.left .whole ho) with hunwrapped | hopen
  · exact absurd ⟨by decide, by decide⟩ hunwrapped
  · have htrim : trim group = group := by decide
    rwa [htrim] at hopen

/-- Two parentheses that do not belong together are dropped, and their partners stay. -/
theorem strict_parse_stray_parentheses :
    let c : Condition := ⟨"age) > (30", some "age)", some ">", some "(30"⟩
    Mode.strict.parse "(age) > (30)" = .ok (.leaf c) ∧
      ¬ Balanced "age)".toList ∧ ¬ Balanced "(30".toList ∧
      ¬ ∀ text t, Mode.strict.parse text = .ok t →
        ∀ c ∈ t.leaves, ∀ part ∈ c.parts, Balanced part.toList := by
  intro c
  have hparse : Mode.strict.parse "(age) > (30)" = .ok (.leaf c) := by
    have hfault : Tree.fault? "(age) > (30)" = none := by decide +kernel
    have htree : Tree.parse "(age) > (30)" = .leaf c := by decide +kernel
    rw [Mode.parse, hfault, htree]
  have hfield : ¬ Balanced "age)".toList := by decide
  have htarget : ¬ Balanced "(30".toList := by decide
  have hleaf : c ∈ (Tree.leaf c).leaves := by
    rw [Tree.leaves_leaf]
    exact List.mem_singleton_self c
  exact ⟨hparse, hfield, htarget,
    fun hall => hfield (hall _ _ hparse c hleaf "age)" List.mem_cons_self)⟩

end Criteria
