import Criteria.Proofs.Accepting
import Criteria.Proofs.Parsing
import Criteria.Proofs.Walks
import Criteria.Tree.Printer

/-!
# A printed tree is read back

A text is split at its first connective, so a printer has to see to it that the
root comes first: a left child that is a branch goes into parentheses, and the
right child must not, since one pair around a whole text is dropped whether its
two parentheses belong together or not.

The proof follows the text from left to right. No connective can start inside a
condition, or inside a text in parentheses, whatever comes behind (`Unsplit`);
hence the first split of a branch is at its own connective. And no printed text
ends in a closing parenthesis or in a blank, so that reading a text, or the same
text in parentheses, comes to the same body.
-/

namespace Criteria

open Split Text

/-! ## Plain words -/

/-- A word without parentheses. -/
structure IsPlain (w : List Char) : Prop extends IsWord w where
  unparenthesized : ∀ c ∈ w, c ≠ '(' ∧ c ≠ ')'

theorem isPlainWord_iff {s : String} : Condition.isPlainWord s = true ↔ IsPlain s.toList := by
  simp only [Condition.isPlainWord, Bool.and_eq_true, List.all_eq_true, bne_iff_ne,
    Bool.not_eq_true']
  constructor
  · rintro ⟨hne, hall⟩
    refine ⟨⟨fun hnil => ?_, fun c hc => (hall c hc).1.1⟩, fun c hc => ?_⟩
    · rw [String.toList_eq_nil_iff.1 hnil] at hne
      cases hne
    · exact ⟨(hall c hc).1.2, (hall c hc).2⟩
  · intro h
    refine ⟨?_, fun c hc => ⟨⟨h.unblank c hc, (h.unparenthesized c hc).1⟩,
      (h.unparenthesized c hc).2⟩⟩
    rw [← Bool.not_eq_true, String.isEmpty_iff]
    rintro rfl
    exact h.ne_nil rfl

theorem isPlain_symbol (c : Comparator) : IsPlain c.symbol.toList := by
  rw [← isPlainWord_iff]
  cases c <;> decide

theorem isPlain_word (c : Connective) : IsPlain c.word.toList := by
  rw [← isPlainWord_iff]
  cases c <;> decide

theorem balanced_blank : Balanced [' '] :=
  .plain fun c hc => by rw [List.mem_singleton.1 hc]; decide

theorem balanced_delimiter (c : Connective) : Balanced c.delimiter :=
  balanced_blank.append ((Balanced.plain (isPlain_word c).unparenthesized).append balanced_blank)

/-! ## Texts in which no connective starts -/

/-- No connective starts inside a text, even if the text goes on, as long as it
goes on with a blank. -/
def Unsplit (s : List Char) : Prop :=
  ∀ more, (∀ ch, more.head? = some ch → ch = ' ') →
    ∀ i c, SplitsAt (s ++ more) i c → s.length ≤ i

/-- A word that a connective starts in front of is that connective. -/
theorem eq_word_of_starts {c : Connective} {w tail : List Char}
    (hw : ∀ ch ∈ w, isBlank ch = false) (htail : ∀ ch, tail.head? = some ch → ch = ' ')
    (h : c.delimiter <+: ' ' :: (w ++ tail)) : w = c.word.toList := by
  obtain ⟨rest, hrest⟩ := h
  rw [delimiter_eq, List.cons_append, List.append_assoc, List.singleton_append] at hrest
  have htail' : ∀ ch, tail.head? = some ch → isBlank ch = true := fun ch hch => by
    rw [htail ch hch]; decide
  have hrest' : ∀ ch, (' ' :: rest).head? = some ch → isBlank ch = true := fun ch hch => by
    cases hch; decide
  rw [← takeWhile_word hw htail', ← (List.cons.inj hrest).2,
    takeWhile_word (isPlain_word c).unblank hrest']

theorem Unsplit.word {w : List Char} (hw : ∀ ch ∈ w, isBlank ch = false) : Unsplit w := by
  intro more _ i c h
  refine Nat.le_of_not_lt fun hlt => ?_
  have hblank := h.blank
  rw [List.getElem?_append_left hlt] at hblank
  have := hw _ (List.mem_of_getElem? hblank)
  exact absurd this (by decide)

theorem Unsplit.cons {w v s : List Char} (hw : ∀ ch ∈ w, isBlank ch = false)
    (hplain : ∀ ch ∈ w, ch ≠ '(' ∧ ch ≠ ')') (hv : ∀ ch ∈ v, isBlank ch = false)
    (hne : ∀ c : Connective, v ≠ c.word.toList) (hs : ∀ ch, s.head? = some ch → ch = ' ')
    (h : Unsplit (v ++ s)) : Unsplit (w ++ ' ' :: (v ++ s)) := by
  intro more hmore i c hsplit
  rw [List.append_assoc, List.cons_append, List.append_assoc] at hsplit
  rcases Nat.lt_trichotomy i w.length with hlt | rfl | hlt
  · have hblank := hsplit.blank
    rw [List.getElem?_append_left hlt] at hblank
    exact absurd (hw _ (List.mem_of_getElem? hblank)) (by decide)
  · have hstarts := (splitsAt_length.1 hsplit).2.2
    have htail : ∀ ch, (s ++ more).head? = some ch → ch = ' ' := by
      cases s with
      | nil => exact hmore
      | cons d s => exact hs
    exact absurd (eq_word_of_starts hv htail hstarts) (hne c)
  · obtain ⟨j, rfl⟩ : ∃ j, i = (w ++ [' ']).length + j :=
      ⟨i - (w.length + 1), by rw [List.length_append, List.length_singleton]; omega⟩
    have hnesting : nesting (w ++ [' ']) = 0 := by
      rw [nesting_append, (Balanced.plain hplain).total, nesting_plain (by decide) (by decide)]
      rfl
    rw [← List.append_assoc v, ← List.singleton_append, ← List.append_assoc w,
      splitsAt_append hnesting] at hsplit
    have hle := h more hmore j c hsplit
    simp only [List.length_append, List.length_cons, List.length_nil] at hle ⊢
    omega

theorem Unsplit.parenthesized {s : List Char} (h : Balanced s) : Unsplit ('(' :: s ++ [')']) := by
  intro more _ i c hsplit
  refine Nat.le_of_not_lt fun hlt => ?_
  cases i with
  | zero => exact hsplit.plain.1 rfl
  | succ j =>
      have hj : j ≤ s.length := by
        simp only [List.length_append, List.length_cons, List.length_nil] at hlt
        omega
      have houtside := hsplit.outside
      have hearly := h.early j
      rw [List.append_assoc, List.cons_append, List.take_succ_cons,
        List.take_append_of_le_length hj, ← List.singleton_append, nesting_append,
        nesting_open] at houtside
      omega

theorem operands?_branch {left : List Char} (hleft : Unsplit left) (htotal : nesting left = 0)
    (c : Connective) (right : List Char) :
    operands? (left ++ c.delimiter ++ right) = some ⟨left, c, right⟩ := by
  have hhead : ∀ ch, (c.delimiter ++ right).head? = some ch → ch = ' ' := fun ch hch => by
    cases hch; rfl
  have hfirst : FirstSplit (left ++ (c.delimiter ++ right)) left.length c :=
    ⟨splitsAt_length.2 ⟨by simp [delimiter_eq], htotal, List.prefix_append _ _⟩,
      hleft _ hhead⟩
  rw [List.append_assoc, operands?_of_firstSplit hfirst, List.take_left, ← List.length_append,
    ← List.append_assoc, List.drop_left]

theorem operands?_unsplit {s : List Char} (h : Unsplit s) : operands? s = none := by
  rw [operands?_eq_none_iff]
  intro i c hsplits
  have hle := h [] (fun ch hch => by cases hch) i c (by rwa [List.append_nil])
  have hblank := hsplits.blank
  rw [List.getElem?_eq_none hle] at hblank
  cases hblank

/-! ## Conditions in three words -/

def conditionText (field : String) (c : Comparator) (target : String) : String :=
  field ++ " " ++ c.symbol ++ " " ++ target

theorem toList_conditionText (field : String) (c : Comparator) (target : String) :
    (conditionText field c target).toList =
      field.toList ++ ' ' :: (c.symbol.toList ++ ' ' :: target.toList) := by
  simp [conditionText]

/-- Trees whose branches have both children and whose leaves are conditions in
three plain words, the last of which is no connective. -/
inductive Expressible : Tree → Prop where
  | leaf {field target : String} {c : Comparator} (hfield : IsPlain field.toList)
      (htarget : IsPlain target.toList) (hand : target ≠ "AND") (hor : target ≠ "OR") :
      Expressible (.ofCondition (conditionText field c target))
  | branch {c : Connective} {left right : Tree} (hl : Expressible left)
      (hr : Expressible right) : Expressible (.branch c left right)

section Condition

variable {field target : String} {c : Comparator}

theorem ofText_conditionText (hfield : IsWord field.toList) (htarget : IsWord target.toList) :
    Condition.ofText (conditionText field c target) =
      ⟨conditionText field c target, some field, some c.symbol, some target⟩ := by
  have hwords : words (conditionText field c target).toList =
      [field.toList, c.symbol.toList, target.toList] := by
    rw [toList_conditionText, words_append hfield, words_append (isPlain_symbol c).toIsWord,
      words_word htarget]
  rw [Condition.ofText, hwords]
  simp only [String.ofList_toList]

theorem symbol_ne_word (c : Comparator) (k : Connective) : c.symbol.toList ≠ k.word.toList := by
  cases c <;> cases k <;> decide

theorem unsplit_conditionText (hfield : IsPlain field.toList) (htarget : IsPlain target.toList)
    (hand : target ≠ "AND") (hor : target ≠ "OR") :
    Unsplit (conditionText field c target).toList := by
  have hsymbol := isPlain_symbol c
  have hne : ∀ k : Connective, target.toList ≠ k.word.toList := fun k h => by
    have := String.toList_inj.1 h
    cases k
    · exact hand this
    · exact hor this
  have htail : Unsplit (c.symbol.toList ++ ' ' :: (target.toList ++ [])) :=
    .cons hsymbol.unblank hsymbol.unparenthesized htarget.unblank hne
      (fun _ h => by cases h) (by rw [List.append_nil]; exact .word htarget.unblank)
  rw [List.append_nil] at htail
  rw [toList_conditionText]
  exact .cons hfield.unblank hfield.unparenthesized hsymbol.unblank (symbol_ne_word c)
    (fun _ h => by cases h; rfl) htail

end Condition

theorem expressible_leaf {c : Condition} (h : c.isExpressible = true) :
    Expressible (.leaf c) := by
  obtain ⟨value, field, comparison, target⟩ := c
  unfold Condition.isExpressible at h
  split at h
  · next f s v hf hs hv =>
      cases hf
      cases hs
      cases hv
      simp only [Bool.and_eq_true, beq_iff_eq, isPlainWord_iff, Option.isNone_iff_eq_none] at h
      obtain ⟨⟨⟨⟨rfl, hsome⟩, hfield⟩, htarget⟩, hword⟩ := h
      obtain ⟨c, hc⟩ := Option.isSome_iff_exists.1 hsome
      obtain rfl := symbol_of_ofSymbol? hc
      have hand : v ≠ "AND" := by rintro rfl; cases hword
      have hor : v ≠ "OR" := by rintro rfl; cases hword
      have hleaf := Expressible.leaf (c := c) hfield htarget hand hor
      rwa [Tree.ofCondition, ofText_conditionText hfield.toIsWord htarget.toIsWord] at hleaf
  · cases h

theorem isExpressible_iff {t : Tree} : t.isExpressible = true ↔ Expressible t := by
  constructor
  · intro h
    induction t with
    | empty => cases h
    | leaf c => exact expressible_leaf h
    | branch c left right ihl ihr =>
        rw [Tree.isExpressible, Bool.and_eq_true] at h
        exact .branch (ihl h.1) (ihr h.2)
  · intro h
    induction h with
    | @leaf field target c hfield htarget hand hor =>
        have hword : Connective.ofWord? target = none := by
          rw [Connective.ofWord?, if_neg hand, if_neg hor]
        have hc : Comparator.ofSymbol? c.symbol = some c := c.ofSymbol?_symbol
        rw [Tree.ofCondition, ofText_conditionText hfield.toIsWord htarget.toIsWord]
        simp [Tree.isExpressible, Condition.isExpressible, Condition.comparator?, conditionText,
          isPlainWord_iff, hfield, htarget, hword, hc]
    | branch _ _ ihl ihr => rw [Tree.isExpressible, ihl, ihr]; rfl

/-! ## Printed texts -/

/-- A text with matching parentheses, no blank at its ends and no closing
parenthesis at its end. -/
structure Printed (s : List Char) : Prop where
  balanced : Balanced s
  start : ∀ c, s.head? = some c → isBlank c = false
  finish : ∀ c, s.getLast? = some c → isBlank c = false ∧ c ≠ ')'
  ne_nil : s ≠ []

theorem Printed.of_parts {first middle last : List Char}
    (hbalanced : Balanced (first ++ (middle ++ last))) (hfirst : first ≠ []) (hlast : last ≠ [])
    (hstart : ∀ c, first.head? = some c → isBlank c = false)
    (hfinish : ∀ c, last.getLast? = some c → isBlank c = false ∧ c ≠ ')') :
    Printed (first ++ (middle ++ last)) := by
  refine ⟨hbalanced, fun c hc => hstart c ?_, fun c hc => hfinish c ?_, by simp [hfirst]⟩
  · cases first with
    | nil => exact absurd rfl hfirst
    | cons d first => exact hc
  · rw [← List.append_assoc, List.getLast?_append, List.getLast?_eq_some_getLast hlast] at hc
    rw [List.getLast?_eq_some_getLast hlast]
    exact hc

theorem Printed.parenthesize_ne_nil {s : List Char} (h : Printed s) (needed : Bool) :
    Tree.parenthesize needed s ≠ [] := by
  rw [Tree.parenthesize]
  split
  · exact List.cons_ne_nil _ _
  · exact h.ne_nil

theorem Printed.start_parenthesize {s : List Char} (h : Printed s) (needed : Bool) :
    ∀ c, (Tree.parenthesize needed s).head? = some c → isBlank c = false := by
  intro c hc
  rw [Tree.parenthesize] at hc
  split at hc
  · cases hc; decide
  · exact h.start c hc

theorem printed_conditionText {field target : String} {c : Comparator}
    (hfield : IsPlain field.toList) (htarget : IsPlain target.toList) :
    Printed (conditionText field c target).toList := by
  have hsymbol := isPlain_symbol c
  have htext : (conditionText field c target).toList =
      field.toList ++ (([' '] ++ (c.symbol.toList ++ [' '])) ++ target.toList) := by
    simp [toList_conditionText]
  have hbalanced := (Balanced.plain hfield.unparenthesized).append
    ((balanced_blank.append ((Balanced.plain hsymbol.unparenthesized).append
      balanced_blank)).append (Balanced.plain htarget.unparenthesized))
  rw [htext]
  refine .of_parts hbalanced hfield.ne_nil htarget.ne_nil (fun ch h => ?_) fun ch h => ?_
  · exact hfield.unblank ch (List.mem_of_head? h)
  · have hmem := List.mem_of_getLast? h
    exact ⟨htarget.unblank ch hmem, (htarget.unparenthesized ch hmem).2⟩

theorem value_ofText (text : String) : (Condition.ofText text).value = text := by
  rw [Condition.ofText]
  split <;> rfl

theorem chars_ofCondition (text : String) : (Tree.ofCondition text).chars = text.toList := by
  rw [Tree.ofCondition, Tree.chars, value_ofText]

/-- No connective starts in a left operand as it is printed. -/
theorem unsplit_parenthesize {t : Tree} (h : Expressible t) (hprinted : Printed t.chars) :
    Unsplit (Tree.parenthesize t.isBranch t.chars) ∧
      Balanced (Tree.parenthesize t.isBranch t.chars) := by
  cases hbranch : t.isBranch with
  | true => exact ⟨.parenthesized hprinted.balanced, hprinted.balanced.parenthesized⟩
  | false =>
      refine ⟨?_, hprinted.balanced⟩
      cases h with
      | leaf hfield htarget hand hor =>
          rw [Tree.parenthesize, if_neg Bool.false_ne_true, chars_ofCondition]
          exact unsplit_conditionText hfield htarget hand hor
      | branch hl hr => cases hbranch

theorem Expressible.printed {t : Tree} (h : Expressible t) : Printed t.chars := by
  induction h with
  | leaf hfield htarget hand hor =>
      rw [chars_ofCondition]
      exact printed_conditionText hfield htarget
  | @branch c left right hl hr ihl ihr =>
      have hleft := (unsplit_parenthesize hl ihl).2
      rw [Tree.chars, List.append_assoc]
      exact .of_parts (hleft.append ((balanced_delimiter c).append ihr.balanced))
        (ihl.parenthesize_ne_nil _) ihr.ne_nil (ihl.start_parenthesize _) ihr.finish

/-! ## Reading a printed text -/

theorem Printed.body {s : List Char} (h : Printed s) : Split.body s = s := by
  have htrim : trim s = s := trim_eq_self h.start fun c hc => (h.finish c hc).1
  rw [Tree.body_eq, htrim, stripped, if_neg]
  rintro ⟨-, -, hlast⟩
  exact (h.finish _ hlast).2 rfl

theorem Printed.body_parenthesize {s : List Char} (h : Printed s) (needed : Bool) :
    Split.body (Tree.parenthesize needed s) = s := by
  cases needed with
  | false => exact h.body
  | true =>
      have htrim : trim ('(' :: s ++ [')']) = '(' :: s ++ [')'] :=
        trim_eq_self (fun c hc => by cases hc; decide) fun c hc => by
          rw [List.getLast?_concat] at hc
          cases hc
          decide
      rw [Tree.parenthesize, if_pos rfl, Tree.body_eq, htrim, stripped_parenthesized]

theorem ofChars_congr {s s' : List Char} (h : Split.body s = Split.body s') :
    Tree.ofChars s = Tree.ofChars s' := by
  cases ho : operands? (Split.body s') with
  | some o => rw [Tree.ofChars_some ho, Tree.ofChars_some (h.symm ▸ ho)]
  | none => rw [Tree.ofChars_none ho, Tree.ofChars_none (h.symm ▸ ho), h]

theorem ofChars_chars {t : Tree} (h : Expressible t) : Tree.ofChars t.chars = t := by
  induction h with
  | @leaf field target c hfield htarget hand hor =>
      have hprinted := printed_conditionText (c := c) hfield htarget
      have hnone := operands?_unsplit (unsplit_conditionText (c := c) hfield htarget hand hor)
      have htrim := trim_eq_self hprinted.start fun ch hch => (hprinted.finish ch hch).1
      rw [← hprinted.body] at hnone
      rw [chars_ofCondition, Tree.ofChars_none hnone, hprinted.body, htrim, String.ofList_toList]
  | @branch c left right hl hr ihl ihr =>
      have hprinted := (Expressible.branch (c := c) hl hr).printed
      have hunsplit := unsplit_parenthesize hl hl.printed
      have hsplit := operands?_branch hunsplit.1 hunsplit.2.total c right.chars
      have hbody : operands? (Split.body (Tree.branch c left right).chars) =
          some ⟨Tree.parenthesize left.isBranch left.chars, c, right.chars⟩ := by
        rw [hprinted.body]
        exact hsplit
      have hleft : Split.body (Tree.parenthesize left.isBranch left.chars) =
          Split.body left.chars := by
        rw [hl.printed.body_parenthesize, hl.printed.body]
      rw [Tree.ofChars_some hbody, ofChars_congr hleft, ihl, ihr]

theorem parse_eq {t : Tree} (h : Expressible t) : Tree.parse t.render = t := by
  rw [Tree.parse_eq_ofChars, Tree.render, String.toList_ofList, ofChars_chars h]

/-! ## Strict reading -/

theorem Expressible.isFormed {t : Tree} (h : Expressible t) : ∀ c ∈ t.leaves, c.IsFormed := by
  induction h with
  | leaf hfield htarget _ _ =>
      rw [Tree.ofCondition, Tree.leaves_leaf, ofText_conditionText hfield.toIsWord htarget.toIsWord]
      exact List.forall_mem_singleton.2 ⟨_, _, _, rfl, rfl, rfl⟩
  | branch _ _ ihl ihr =>
      exact Tree.forall_mem_leaves_branch.2 ⟨ihl, ihr⟩

theorem fault?_eq_none {t : Tree} (h : Expressible t) : Tree.fault? t.render = none := by
  rw [Tree.fault?_eq_none_iff, parse_eq h, Tree.render, String.toList_ofList]
  exact ⟨h.printed.balanced, h.isFormed⟩

/-- A printed tree is read back, in strict mode too, and so no two trees are
printed alike. -/
theorem parse_render :
    (∀ t : Tree, t.isExpressible = true ↔ Expressible t) ∧
    (∀ t, Expressible t → Tree.parse t.render = t ∧ Mode.strict.parse t.render = .ok t) ∧
    ∀ t t', Expressible t → Expressible t' → t.render = t'.render → t = t' := by
  refine ⟨fun t => isExpressible_iff, fun t h => ⟨parse_eq h, ?_⟩, fun t t' h h' heq => ?_⟩
  · rw [Mode.parse, fault?_eq_none h, parse_eq h]
  · rw [← parse_eq h, heq, parse_eq h']

/-- A tree whose left child is a branch. -/
theorem parse_render_left_branch :
    let t : Tree := .branch .and (.branch .or (.ofCondition "a > 1") (.ofCondition "b != 2"))
      (.ofCondition "c = 3")
    Expressible t ∧ t.render = "(a > 1 OR b != 2) AND c = 3" ∧
      Mode.strict.parse "(a > 1 OR b != 2) AND c = 3" = .ok t := by
  intro t
  have hexpressible : Expressible t := (parse_render.1 t).1 (by decide +kernel)
  have hrender : t.render = "(a > 1 OR b != 2) AND c = 3" := by decide +kernel
  have hstrict := (parse_render.2.1 t hexpressible).2
  rw [hrender] at hstrict
  exact ⟨hexpressible, hrender, hstrict⟩

end Criteria
