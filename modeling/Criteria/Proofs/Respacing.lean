import Criteria.Proofs.Deciding
import Criteria.Proofs.Shape

/-!
# Blanks that make no difference

Doubling a space of a text, wherever it stands, changes nothing that is read
(`parse_respaced`). A delimiter starts and ends with the space next to its word, so
doubling one of these leaves the other one where it belongs, and the space that is
left over is trimmed with the operand that it goes to. The positions of all other
characters change, but not their order, and with it not which connective comes first.

What an induction over the pieces has to carry is a relation between two texts that
survives trimming, dropping parentheses and splitting: one is the other with a space
doubled, or they are the same once they are trimmed (`Respaced`).
-/

namespace Criteria

open Split Text

/-! ## Texts -/

/-- A text, and the text with one of its spaces doubled. -/
inductive Doubled : List Char → List Char → Prop where
  | intro (s rest : List Char) : Doubled (s ++ ' ' :: rest) (s ++ ' ' :: ' ' :: rest)

/-- Two texts that are the same but for a doubled space, or but for blanks at the
ends. -/
def Respaced (s s' : List Char) : Prop :=
  Doubled s s' ∨ trim s' = trim s

/-- A space that is doubled at an end of a text is trimmed, and one inside stays. -/
theorem Respaced.trim {s s' : List Char} (h : Respaced s s') :
    trim s' = trim s ∨ Doubled (trim s) (trim s') := by
  rcases h with ⟨s, rest⟩ | h
  -- Only between two characters that are no blanks the doubled space stays.
  · rcases blanks_or_solid s with hs | hs
    · have hone := trim_pad (hs.append blanks_space) blanks_nil rest
      have htwo := trim_pad ((hs.append blanks_space).append blanks_space) blanks_nil rest
      simp only [List.append_nil, List.append_assoc, List.cons_append, List.nil_append] at hone htwo
      rw [hone, htwo]
      exact Or.inl rfl
    · rcases blanks_or_solid rest with hrest | hrest
      · have hone := trim_pad blanks_nil (blanks_space.append hrest) s
        have htwo := trim_pad blanks_nil (blanks_space.append (blanks_space.append hrest)) s
        simp only [List.cons_append, List.nil_append] at hone htwo
        rw [hone, htwo]
        exact Or.inl rfl
      · have hmiddle : ∀ b, Text.trim (s ++ (b ++ rest)) = trimStart s ++ (b ++ trimEnd rest) := by
          intro b
          rw [Text.trim, trimStart_append hs, ← List.append_assoc, trimEnd_append hrest,
            List.append_assoc]
        have hone := hmiddle [' ']
        have htwo := hmiddle [' ', ' ']
        simp only [List.cons_append, List.nil_append] at hone htwo
        rw [hone, htwo]
        exact Or.inr (.intro _ _)
  · exact Or.inl h

theorem Doubled.stripped {s s' : List Char} (h : Doubled s s') :
    Doubled (stripped s) (stripped s') := by
  obtain ⟨s, rest⟩ := h
  by_cases hwrapped : s.head? = some '(' ∧ rest.getLast? = some ')'
  · obtain ⟨s, rfl⟩ := List.head?_eq_some_iff.1 hwrapped.1
    obtain ⟨rest, rfl⟩ := List.getLast?_eq_some_iff.1 hwrapped.2
    have hone := stripped_parenthesized (s ++ ' ' :: rest)
    have htwo := stripped_parenthesized (s ++ ' ' :: ' ' :: rest)
    simp only [List.cons_append, List.append_assoc] at hone htwo ⊢
    rw [hone, htwo]
    exact .intro _ _
  -- No parenthesis is at an end with the space there, be it single or doubled.
  · have hhead : ∀ t, (s ++ ' ' :: t).head? = some '(' → s.head? = some '(' := by
      intro t h
      cases s with
      | nil => cases h
      | cons c s => exact h
    have hlast : ∀ t, (t ++ ' ' :: rest).getLast? = some ')' → rest.getLast? = some ')' := by
      intro t h
      rcases List.eq_nil_or_concat rest with rfl | ⟨rest, c, rfl⟩
      · rw [List.getLast?_concat] at h
        cases h
      · rw [List.concat_eq_append] at h ⊢
        rw [← List.cons_append, ← List.append_assoc, List.getLast?_concat] at h
        rw [List.getLast?_concat, h]
    have htwo : s ++ ' ' :: ' ' :: rest = s ++ [' '] ++ ' ' :: rest := by simp
    rw [stripped_of_not fun h => hwrapped ⟨hhead _ h.1, hlast s h.2⟩,
      stripped_of_not fun h => hwrapped ⟨hhead _ h.1, hlast (s ++ [' ']) (htwo ▸ h.2)⟩]
    exact .intro _ _

/-- The bodies of such texts are alike, too. -/
theorem Respaced.body {s s' : List Char} (h : Respaced s s') :
    body s' = body s ∨ Doubled (body s) (body s') := by
  rw [Tree.body_eq, Tree.body_eq]
  rcases h.trim with heq | hdoubled
  · rw [heq]
    exact Or.inl rfl
  · exact Or.inr hdoubled.stripped

/-! ## Where they split -/

namespace Split

/-- Operands of which one is respaced. -/
inductive Operands.Respaced : Operands → Operands → Prop where
  | left {c : Connective} {left left' right : List Char} (h : Criteria.Respaced left left') :
      Respaced ⟨left, c, right⟩ ⟨left', c, right⟩
  | right {c : Connective} {left right right' : List Char} (h : Criteria.Respaced right right') :
      Respaced ⟨left, c, right⟩ ⟨left, c, right'⟩

/-- The first space of one side is the first one of the other. -/
theorem append_space_eq {w s right rest : List Char} (hw : ' ' ∉ w) :
    s ++ ' ' :: rest = w ++ ' ' :: right ↔
      (s = w ∧ right = rest) ∨ ∃ s', s = w ++ ' ' :: s' ∧ right = s' ++ ' ' :: rest := by
  constructor
  · intro h
    rcases List.append_eq_append_iff.1 h with ⟨x, rfl, hx⟩ | ⟨x, rfl, hx⟩
    · cases x with
      | nil => exact Or.inl ⟨(List.append_nil s).symm, (List.cons.inj hx).2.symm⟩
      | cons d x =>
          obtain rfl := (List.cons.inj hx).1
          exact absurd (List.mem_append_right s List.mem_cons_self) hw
    · cases x with
      | nil => exact Or.inl ⟨List.append_nil w, (List.cons.inj hx).2⟩
      | cons d x =>
          obtain ⟨rfl, rfl⟩ := List.cons.inj hx
          exact Or.inr ⟨x, rfl, rfl⟩
  · rintro (⟨rfl, rfl⟩ | ⟨s', rfl, rfl⟩)
    · rfl
    · rw [List.append_assoc, List.cons_append]

/-- Whether a delimiter starts in front of a space, or with it, does not depend on
what comes behind. -/
theorem delimiter?_space {ch : Char} {s rest right : List Char} {c : Connective} :
    delimiter? (ch :: (s ++ ' ' :: rest)) = some (c, right) ↔
      ch = ' ' ∧ ((s = c.word.toList ∧ right = rest) ∨
        ∃ s', s = c.word.toList ++ ' ' :: s' ∧ right = s' ++ ' ' :: rest) := by
  have hword : ' ' ∉ c.word.toList := fun h => absurd ((isPlain_word c).unblank _ h) (by decide)
  rw [delimiter?_eq_some, delimiter_eq, List.cons_append, List.cons.injEq, List.append_assoc,
    List.singleton_append, append_space_eq hword]

theorem respaced_cons_space (s : List Char) : Criteria.Respaced s (' ' :: s) := by
  have hpad := trim_pad blanks_space blanks_nil s
  rw [List.append_nil] at hpad
  exact Or.inr hpad

theorem respaced_concat_space (s : List Char) : Criteria.Respaced s (s ++ [' ']) :=
  Or.inr (trim_pad blanks_nil blanks_space s)

theorem delimiter?_doubled (ch : Char) (s rest : List Char) :
    Option.Rel (fun p p' => p.1 = p'.1 ∧ Criteria.Respaced p.2 p'.2)
      (delimiter? (ch :: (s ++ ' ' :: rest))) (delimiter? (ch :: (s ++ ' ' :: ' ' :: rest))) := by
  cases hone : delimiter? (ch :: (s ++ ' ' :: rest)) with
  | some p =>
      obtain ⟨c, right⟩ := p
      obtain ⟨hch, hs⟩ := delimiter?_space.1 hone
      -- The space ends the delimiter, and its double is left to the right operand, or it
      -- stands behind.
      rcases hs with ⟨rfl, rfl⟩ | ⟨s', hs, rfl⟩
      · rw [delimiter?_space.2 ⟨hch, Or.inl ⟨rfl, rfl⟩⟩]
        exact .some ⟨rfl, respaced_cons_space _⟩
      · rw [delimiter?_space.2 ⟨hch, Or.inr ⟨s', hs, rfl⟩⟩]
        exact .some ⟨rfl, Or.inl (.intro _ _)⟩
  | none =>
      cases htwo : delimiter? (ch :: (s ++ ' ' :: ' ' :: rest)) with
      | none => exact .none
      | some p =>
          obtain ⟨c, right⟩ := p
          obtain ⟨hch, hs⟩ := delimiter?_space.1 htwo
          rcases hs with ⟨hs, -⟩ | ⟨s', hs, -⟩
          · rw [delimiter?_space.2 ⟨hch, Or.inl ⟨hs, rfl⟩⟩] at hone
            cases hone
          · rw [delimiter?_space.2 ⟨hch, Or.inr ⟨s', hs, rfl⟩⟩] at hone
            cases hone

/-- What has been passed only goes in front of the left operand. -/
theorem scan_before (depth : Int) (before s : List Char) :
    scan depth before s =
      (scan depth [] s).map fun o => { o with left := before.reverse ++ o.left } := by
  induction s generalizing depth before with
  | nil => rfl
  | cons c rest ih =>
      have hon : ∀ depth, scan depth (c :: before) rest =
          (scan depth [c] rest).map fun o => { o with left := before.reverse ++ o.left } := by
        intro depth
        rw [ih depth (c :: before), ih depth [c], Option.map_map]
        congr 1
        funext o
        simp
      rw [scan, scan, hon, hon, hon]
      split
      · rfl
      · split
        · rfl
        · split
          · split
            · simp
            · rfl
          · rfl

theorem scan_two_spaces (depth : Int) (before rest : List Char) :
    scan depth before (' ' :: ' ' :: rest) = scan depth (' ' :: before) (' ' :: rest) := by
  have hnone : delimiter? (' ' :: ' ' :: rest) = none := rfl
  rw [scan, if_neg (by decide), if_neg (by decide), hnone]
  exact ite_self _

theorem scan_doubled (depth : Int) (before s rest : List Char) :
    Option.Rel Operands.Respaced (scan depth before (s ++ ' ' :: rest))
      (scan depth before (s ++ ' ' :: ' ' :: rest)) := by
  induction s generalizing depth before with
  | nil =>
      -- Two spaces start no delimiter, so the scan comes to the second one, with the first
      -- one passed and left to the left operand.
      rw [List.nil_append, List.nil_append, scan_two_spaces, scan_before depth before,
        scan_before depth (' ' :: before)]
      cases ho : scan depth [] (' ' :: rest) with
      | none => exact .none
      | some o =>
          have happend := scan_append ho
          obtain ⟨left, c, right⟩ := o
          refine .some (.left ?_)
          rw [List.reverse_cons, List.append_assoc, List.singleton_append]
          cases left with
          | nil =>
              rw [List.append_nil]
              exact respaced_concat_space _
          | cons d left =>
              obtain rfl : ' ' = d := (List.cons.inj happend).1
              exact Or.inl (.intro _ _)
  | cons c s ih =>
      rw [List.cons_append, List.cons_append, scan, scan]
      split
      · exact ih _ _
      · split
        · exact ih _ _
        · split
          · have hrel := delimiter?_doubled c s rest
            generalize delimiter? (c :: (s ++ ' ' :: rest)) = one at hrel
            generalize delimiter? (c :: (s ++ ' ' :: ' ' :: rest)) = two at hrel
            cases hrel with
            | none => exact ih _ _
            | @some p p' h =>
                obtain ⟨k, right⟩ := p
                obtain ⟨k', right'⟩ := p'
                obtain ⟨rfl, h⟩ := h
                exact .some (.right h)
          · exact ih _ _

theorem operands?_doubled {s s' : List Char} (h : Doubled s s') :
    Option.Rel Operands.Respaced (operands? s) (operands? s') := by
  obtain ⟨s, rest⟩ := h
  exact scan_doubled 0 [] s rest

end Split

/-! ## What they are read as -/

namespace Tree

/-- Trees that are the same but for the text of one leaf, where a space may be
doubled. -/
inductive Respaced : Tree → Tree → Prop where
  | refl (t : Tree) : Respaced t t
  | leaf {c : Condition} {value : String} (h : Doubled c.value.toList value.toList) :
      Respaced (.leaf c) (.leaf { c with value })
  | left {c : Connective} {left left' right : Tree} (h : Respaced left left') :
      Respaced (.branch c left right) (.branch c left' right)
  | right {c : Connective} {left right right' : Tree} (h : Respaced right right') :
      Respaced (.branch c left right) (.branch c left right')

theorem respaced_ofCondition {s s' : List Char} (h : s' = s ∨ Doubled s s') :
    Respaced (ofCondition (String.ofList s)) (ofCondition (String.ofList s')) := by
  rcases h with rfl | ⟨s, rest⟩
  · exact .refl _
  · have hwords : words (s ++ ' ' :: ' ' :: rest) = words (s ++ ' ' :: rest) :=
      words_double s rest rfl
    have hcondition : Condition.ofText (String.ofList (s ++ ' ' :: ' ' :: rest)) =
        { Condition.ofText (String.ofList (s ++ ' ' :: rest)) with
          value := String.ofList (s ++ ' ' :: ' ' :: rest) } := by
      rw [Condition.ofText, Condition.ofText, String.toList_ofList, String.toList_ofList, hwords]
      split <;> rfl
    rw [ofCondition, ofCondition, hcondition]
    refine .leaf ?_
    rw [value_ofText, String.toList_ofList, String.toList_ofList]
    exact .intro _ _

theorem respaced_ofChars {s s' : List Char} (h : Criteria.Respaced s s') :
    (ofChars s).Respaced (ofChars s') := by
  induction s using ofChars.induct generalizing s' with
  | case1 s o ho ihl ihr =>
      rcases h.body with heq | hdoubled
      · rw [ofChars_congr heq]
        exact .refl _
      · have hrel := operands?_doubled hdoubled
        rw [ho] at hrel
        generalize ho' : operands? (body s') = o' at hrel
        cases hrel with
        | some hoperands =>
            rw [ofChars_some ho, ofChars_some ho']
            cases hoperands with
            | left h => exact .left (ihl h)
            | right h => exact .right (ihr h)
  | case2 s ho =>
      rcases h.body with heq | hdoubled
      · rw [ofChars_congr heq]
        exact .refl _
      · have hrel := operands?_doubled hdoubled
        rw [ho] at hrel
        generalize ho' : operands? (body s') = o' at hrel
        cases hrel with
        | none =>
            rw [ofChars_none ho, ofChars_none ho']
            exact respaced_ofCondition (Criteria.Respaced.trim (Or.inl hdoubled))

theorem Respaced.meaning_eq {t t' : Tree} (h : Respaced t t') (ctx : Context) :
    t'.meaning ctx = t.meaning ctx := by
  induction h with
  | refl => rfl
  | leaf => rfl
  | left _ ih => rw [meaning, meaning, ih]
  | right _ ih => rw [meaning, meaning, ih]

theorem Respaced.isFormed_iff {t t' : Tree} (h : Respaced t t') :
    (∀ c ∈ t'.leaves, c.IsFormed) ↔ ∀ c ∈ t.leaves, c.IsFormed := by
  induction h with
  | refl => exact Iff.rfl
  | leaf => rw [leaves_leaf, leaves_leaf, List.forall_mem_singleton, List.forall_mem_singleton]; rfl
  | left _ ih => rw [forall_mem_leaves_branch, forall_mem_leaves_branch, ih]
  | right _ ih => rw [forall_mem_leaves_branch, forall_mem_leaves_branch, ih]

theorem Respaced.strict_parse_iff {text wide : String} (h : (parse text).Respaced (parse wide))
    (hparentheses : parentheses wide.toList = parentheses text.toList) :
    (∃ t, Mode.strict.parse wide = .ok t) ↔ ∃ t, Mode.strict.parse text = .ok t := by
  rw [exists_strict_parse_iff, exists_strict_parse_iff, balanced_congr hparentheses,
    h.isFormed_iff]

end Tree

/-! ## Texts that are written wider -/

/-- A text, and the text with blanks before and behind it. -/
inductive Padded : List Char → List Char → Prop where
  | intro {b b' : List Char} (hb : Blanks b) (hb' : Blanks b') (s : List Char) :
      Padded s (b ++ s ++ b')

theorem Doubled.parentheses_eq {s s' : List Char} (h : Doubled s s') :
    parentheses s' = parentheses s := by
  obtain ⟨s, rest⟩ := h
  have hspace : parentheses (' ' :: rest) = parentheses rest := rfl
  rw [parentheses_append, parentheses_append, hspace]
  rfl

theorem Padded.parentheses_eq {s s' : List Char} (h : Padded s s') :
    parentheses s' = parentheses s := by
  obtain ⟨hb, hb', s⟩ := h
  exact parentheses_pad hb hb' s

/-- Where a space is doubled, the tree is the same but for that space in one leaf, and
blanks around the whole text leave no trace at all. Neither makes a difference to
strict mode or to what the tree decides. -/
theorem Tree.parse_respaced (text wide : String) :
    (Doubled text.toList wide.toList → (parse text).Respaced (parse wide)) ∧
    (Padded text.toList wide.toList → parse wide = parse text) ∧
    (Doubled text.toList wide.toList ∨ Padded text.toList wide.toList →
      ((∃ t, Mode.strict.parse wide = .ok t) ↔ ∃ t, Mode.strict.parse text = .ok t) ∧
      ∀ ctx, (parse wide).evaluate ctx = (parse text).evaluate ctx) := by
  have hdoubled : Doubled text.toList wide.toList → (parse text).Respaced (parse wide) := by
    intro h
    rw [parse_eq_ofChars, parse_eq_ofChars]
    exact respaced_ofChars (Or.inl h)
  have hpadded : Padded text.toList wide.toList → parse wide = parse text := by
    intro h
    rw [parse_eq_ofChars, parse_eq_ofChars]
    generalize wide.toList = s at h ⊢
    obtain ⟨hb, hb', s⟩ := h
    exact ofChars_congr (congrArg stripOuter (trim_pad hb hb' _))
  refine ⟨hdoubled, hpadded, fun h => ?_⟩
  have hrespaced : (parse text).Respaced (parse wide) :=
    h.elim hdoubled fun h => hpadded h ▸ .refl _
  have hparentheses := h.elim Doubled.parentheses_eq Padded.parentheses_eq
  refine ⟨hrespaced.strict_parse_iff hparentheses, fun ctx => ?_⟩
  rw [evaluate_eq, evaluate_eq, hrespaced.meaning_eq]

/-- A space doubled at the start of a delimiter, and blanks around parentheses. -/
theorem Tree.parse_respaced_delimiter :
    let text := "(a > 1 AND b = 2)"
    let wide := "(a > 1  AND b = 2)"
    let padded := "\t(a > 1 AND b = 2)\u3000 "
    Doubled text.toList wide.toList ∧ Padded text.toList padded.toList ∧
      (parse text).Respaced (parse wide) ∧ parse padded = parse text ∧
      (∃ t, Mode.strict.parse wide = .ok t) ∧ (∃ t, Mode.strict.parse padded = .ok t) ∧
      ∀ ctx, (parse wide).evaluate ctx = (parse text).evaluate ctx := by
  intro text wide padded
  have hdoubled : Doubled text.toList wide.toList := by
    have h := Doubled.intro "(a > 1".toList "AND b = 2)".toList
    have htext : "(a > 1".toList ++ ' ' :: "AND b = 2)".toList = text.toList := by decide
    have hwide : "(a > 1".toList ++ ' ' :: ' ' :: "AND b = 2)".toList = wide.toList := by decide
    rwa [htext, hwide] at h
  have hpadded : Padded text.toList padded.toList := by
    have hbefore : Blanks ['\t'] := by decide
    have hafter : Blanks ['\u3000', ' '] := by decide
    have h := Padded.intro hbefore hafter text.toList
    have htext : ['\t'] ++ text.toList ++ ['\u3000', ' '] = padded.toList := by decide
    rwa [htext] at h
  have haccepted : ∃ t, Mode.strict.parse text = .ok t := by
    have hfault : fault? text = none := by decide +kernel
    exact ⟨parse text, by rw [Mode.parse, hfault]⟩
  obtain ⟨hrespaced, -, hboth⟩ := parse_respaced text wide
  obtain ⟨hstrict, hevaluate⟩ := hboth (Or.inl hdoubled)
  obtain ⟨-, hsame, hpaddedBoth⟩ := parse_respaced text padded
  exact ⟨hdoubled, hpadded, hrespaced hdoubled, hsame hpadded, hstrict.2 haccepted,
    (hpaddedBoth (Or.inr hpadded)).1.2 haccepted, hevaluate⟩

end Criteria
