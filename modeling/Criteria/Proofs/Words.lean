import Criteria.Text.Blank
import Mathlib.Data.List.DropRight

/-!
# Words and blanks

A text is cut into words from its end, one character at a time, with the word
that is still open on one side. `foldr_consWord` says what becomes of that pair
behind a run of characters that are no blanks; from it one gets the words of a
text that is put together from words with single blanks between them. Trimming
such a text does nothing, because only the characters at its ends matter.

The other way round, every text is its words with blanks around them
(`spaced_words`), and what trimming leaves with blanks at both ends (`exists_trim`).
-/

namespace Criteria.Text

/-- A word: at least one character, and no blank. -/
structure IsWord (w : List Char) : Prop where
  ne_nil : w ≠ []
  unblank : ∀ c ∈ w, isBlank c = false

theorem consWord_of_not_blank {c : Char} (hc : isBlank c = false) (w : List Char)
    (ws : List (List Char)) : consWord c (w, ws) = (c :: w, ws) := by
  have hc : ¬ isBlank c = true := by rw [hc]; decide
  cases w with
  | nil => exact if_neg hc
  | cons d w => exact if_neg hc

/-- Characters that are no blanks go to the word that is open. -/
theorem foldr_consWord {w : List Char} (hw : ∀ c ∈ w, isBlank c = false) (s : List Char) :
    (w ++ s).foldr consWord ([], []) =
      (w ++ (s.foldr consWord ([], [])).1, (s.foldr consWord ([], [])).2) := by
  induction w with
  | nil => rfl
  | cons c w ih =>
      rw [List.cons_append, List.foldr_cons, ih fun d hd => hw d (List.mem_cons_of_mem _ hd),
        consWord_of_not_blank (hw c List.mem_cons_self), List.cons_append]

theorem foldr_consWord_blank {b : Char} (hb : isBlank b = true) (s : List Char) :
    (b :: s).foldr consWord ([], []) = ([], words s) := by
  rw [List.foldr_cons, words]
  rcases s.foldr consWord ([], []) with ⟨_ | ⟨c, w⟩, ws⟩
  · exact if_pos hb
  · exact if_pos hb

theorem words_word {w : List Char} (hw : IsWord w) : words w = [w] := by
  have hcut := foldr_consWord hw.unblank []
  rw [List.append_nil] at hcut
  rw [words, hcut]
  cases hcons : w with
  | nil => exact absurd hcons hw.ne_nil
  | cons c w =>
      rw [List.foldr_nil, List.append_nil]

theorem words_append {w : List Char} (hw : IsWord w) (s : List Char) :
    words (w ++ ' ' :: s) = w :: words s := by
  have hblank : isBlank ' ' = true := by decide
  rw [words, foldr_consWord hw.unblank, foldr_consWord_blank hblank, List.append_nil]
  cases hcons : w with
  | nil => exact absurd hcons hw.ne_nil
  | cons c w => rfl

theorem takeWhile_word {w tail : List Char} (hw : ∀ c ∈ w, isBlank c = false)
    (htail : ∀ c, tail.head? = some c → isBlank c = true) :
    (w ++ tail).takeWhile (!isBlank ·) = w := by
  rw [List.takeWhile_append_of_pos fun c hc => by simp [hw c hc]]
  cases tail with
  | nil => exact List.append_nil w
  | cons c tail =>
      rw [List.takeWhile_cons_of_neg (by simp [htail c rfl]), List.append_nil]

theorem trimStart_eq_self {s : List Char} (h : ∀ c, s.head? = some c → isBlank c = false) :
    trimStart s = s := by
  cases s with
  | nil => rfl
  | cons c s => rw [trimStart, List.dropWhile_cons_of_neg (by simp [h c rfl])]

/-- A text without a blank at either end is trimmed already. -/
theorem trim_eq_self {s : List Char} (hhead : ∀ c, s.head? = some c → isBlank c = false)
    (hlast : ∀ c, s.getLast? = some c → isBlank c = false) : trim s = s := by
  rw [trim, trimStart_eq_self hhead, trimEnd]
  split
  · next h => exact (List.getLast?_eq_none_iff.1 h).symm
  · next c h => rw [if_neg (by simp [hlast c h])]

/-! ## Blanks at the ends -/

/-- A text that is not blank. -/
def Solid (s : List Char) : Prop :=
  ∃ c ∈ s, isBlank c = false

theorem Solid.reverse {s : List Char} (h : Solid s) : Solid s.reverse :=
  h.imp fun _ hc => ⟨List.mem_reverse.2 hc.1, hc.2⟩

theorem trimStart_append {s : List Char} (h : Solid s) (x : List Char) :
    trimStart (s ++ x) = trimStart s ++ x := by
  obtain ⟨c, hc, hsolid⟩ := h
  have hne : s.dropWhile isBlank ≠ [] := fun hnil =>
    absurd (List.dropWhile_eq_nil_iff.1 hnil c hc) (by rw [hsolid]; decide)
  rw [trimStart, List.dropWhile_append, if_neg (by rwa [List.isEmpty_iff])]
  rfl

theorem trimEnd_append {s : List Char} (h : Solid s) (x : List Char) :
    trimEnd (x ++ s) = x ++ trimEnd s := by
  have hstart := trimStart_append h.reverse x.reverse
  rw [trimStart, trimStart] at hstart
  rw [trimEnd_eq, trimEnd_eq, List.reverse_append, hstart, List.reverse_append,
    List.reverse_reverse]

theorem trimEnd_append_blanks {b : List Char} (h : ∀ c ∈ b, isBlank c = true) (s : List Char) :
    trimEnd (s ++ b) = trimEnd s := by
  rw [trimEnd_eq, trimEnd_eq, List.reverse_append,
    List.dropWhile_append_of_pos fun c hc => h c (List.mem_reverse.1 hc)]

theorem exists_trimEnd_append (s : List Char) :
    ∃ b, trimEnd s ++ b = s ∧ ∀ c ∈ b, isBlank c = true := by
  refine ⟨(s.reverse.takeWhile isBlank).reverse, ?_, fun c hc => ?_⟩
  · rw [trimEnd_eq, ← List.reverse_append, List.takeWhile_append_dropWhile, List.reverse_reverse]
  · exact List.mem_takeWhile_imp (List.mem_reverse.1 hc)

theorem trim_trimStart (s : List Char) : trim (trimStart s) = trim s := by
  rw [trim, trim, trimStart, trimStart, List.dropWhile_idempotent]

theorem trim_trimEnd {s : List Char} (h : Solid s) : trim (trimEnd s) = trim s := by
  obtain ⟨b, heq, hb⟩ := exists_trimEnd_append s
  have hsolid : Solid (trimEnd s) := by
    obtain ⟨c, hc, hsolid⟩ := h
    rw [← heq, List.mem_append] at hc
    refine ⟨c, hc.resolve_right fun hc => ?_, hsolid⟩
    exact absurd (hb c hc) (by rw [hsolid]; decide)
  conv_rhs => rw [← heq, trim, trimStart_append hsolid, trimEnd_append_blanks hb]
  rfl

/-- A text of blanks alone. -/
def Blanks (b : List Char) : Prop :=
  ∀ c ∈ b, isBlank c = true

instance : DecidablePred Blanks :=
  fun b => List.decidableBAll (isBlank · = true) b

theorem blanks_nil : Blanks [] :=
  fun _ h => by cases h

theorem blanks_space : Blanks [' '] :=
  List.forall_mem_singleton.2 rfl

theorem Blanks.append {b b' : List Char} (hb : Blanks b) (hb' : Blanks b') : Blanks (b ++ b') :=
  fun c hc => (List.mem_append.1 hc).elim (hb c) (hb' c)

theorem blanks_or_solid (s : List Char) : Blanks s ∨ Solid s := by
  by_cases h : Solid s
  · exact Or.inr h
  · refine Or.inl fun c hc => ?_
    cases hblank : isBlank c with
    | true => rfl
    | false => exact absurd ⟨c, hc, hblank⟩ h

theorem trimStart_blanks_append {b : List Char} (hb : Blanks b) (s : List Char) :
    trimStart (b ++ s) = trimStart s :=
  List.dropWhile_append_of_pos hb

theorem trim_blanks {b : List Char} (hb : Blanks b) : trim b = [] := by
  have hstart := trimStart_blanks_append hb []
  rw [List.append_nil] at hstart
  rw [trim, hstart]
  rfl

/-- Blanks around a text make no difference once it is trimmed. -/
theorem trim_pad {b b' : List Char} (hb : Blanks b) (hb' : Blanks b') (s : List Char) :
    trim (b ++ s ++ b') = trim s := by
  rw [List.append_assoc, trim, trimStart_blanks_append hb]
  rcases blanks_or_solid s with hs | hs
  · rw [← trim, trim_blanks hs]
    exact trim_blanks (hs.append hb')
  · rw [trimStart_append hs, trimEnd_append_blanks hb', trim]

theorem exists_trim (s : List Char) :
    ∃ b b', Blanks b ∧ Blanks b' ∧ s = b ++ trim s ++ b' := by
  obtain ⟨b', heq, hb'⟩ := exists_trimEnd_append (trimStart s)
  refine ⟨s.takeWhile isBlank, b', fun c hc => List.mem_takeWhile_imp hc, hb', ?_⟩
  rw [List.append_assoc, trim, heq, trimStart, List.takeWhile_append_dropWhile]

theorem isBlank_head_trim {s : List Char} {c : Char} (h : (trim s).head? = some c) :
    isBlank c = false := by
  obtain ⟨b', heq, -⟩ := exists_trimEnd_append (trimStart s)
  have hstart : (s.dropWhile isBlank).head? = some c := by
    rw [← trimStart, ← heq, List.head?_append, ← trim, h]
    rfl
  have hnot := List.head?_dropWhile_not isBlank s
  rw [hstart] at hnot
  exact hnot

theorem isBlank_getLast_trim {s : List Char} {c : Char} (h : (trim s).getLast? = some c) :
    isBlank c = false := by
  rw [trim, trimEnd_eq, List.getLast?_reverse] at h
  have hnot := List.head?_dropWhile_not isBlank (trimStart s).reverse
  rw [h] at hnot
  exact hnot

/-! ## Words apart -/

/-- Some words one after the other, with blanks before, between and behind them. -/
inductive Spaced : List (List Char) → List Char → Prop where
  | nil {b : List Char} (hb : Blanks b) : Spaced [] b
  | cons {b w s : List Char} {ws : List (List Char)} (hb : Blanks b) (h : Spaced ws s) :
      Spaced (w :: ws) (b ++ (w ++ s))

theorem Spaced.blank {b : Char} (hb : isBlank b = true) {ws : List (List Char)} {s : List Char}
    (h : Spaced ws s) : Spaced ws (b :: s) := by
  cases h with
  | nil hbs => exact .nil (List.forall_mem_cons.2 ⟨hb, hbs⟩)
  | cons hbs h => exact .cons (List.forall_mem_cons.2 ⟨hb, hbs⟩) h

/-- A text starts with the word that is open, and its other words follow. -/
theorem exists_spaced (s : List Char) :
    ∃ rest, s = (s.foldr consWord ([], [])).1 ++ rest ∧
      Spaced (s.foldr consWord ([], [])).2 rest := by
  induction s with
  | nil => exact ⟨[], rfl, .nil blanks_nil⟩
  | cons c s ih =>
      obtain ⟨rest, heq, hrest⟩ := ih
      rw [List.foldr_cons]
      generalize s.foldr consWord ([], []) = cut at heq hrest ⊢
      obtain ⟨w, ws⟩ := cut
      cases hc : isBlank c with
      | false =>
          rw [consWord_of_not_blank hc]
          exact ⟨rest, congrArg (c :: ·) heq, hrest⟩
      | true =>
          refine ⟨c :: s, ?_⟩
          cases w with
          | nil =>
              have hcut : consWord c ([], ws) = ([], ws) := if_pos hc
              rw [hcut]
              exact ⟨rfl, heq ▸ hrest.blank hc⟩
          | cons d w =>
              have hcut : consWord c (d :: w, ws) = ([], (d :: w) :: ws) := if_pos hc
              rw [hcut, heq]
              exact ⟨rfl, .cons (List.forall_mem_singleton.2 hc) hrest⟩

theorem spaced_words (s : List Char) : Spaced (words s) s := by
  obtain ⟨rest, heq, hrest⟩ := exists_spaced s
  rw [words]
  generalize s.foldr consWord ([], []) = cut at heq hrest ⊢
  obtain ⟨_ | ⟨c, w⟩, ws⟩ := cut
  · exact heq ▸ hrest
  · rw [heq]
    exact .cons (b := []) blanks_nil hrest

theorem isWord_of_mem_words {s w : List Char} (h : w ∈ words s) : IsWord w := by
  have hcut : (∀ c ∈ (s.foldr consWord ([], [])).1, isBlank c = false) ∧
      ∀ w ∈ (s.foldr consWord ([], [])).2, IsWord w := by
    clear h
    induction s with
    | nil => exact ⟨fun c hc => (by cases hc), fun w hw => (by cases hw)⟩
    | cons c s ih =>
        rw [List.foldr_cons]
        generalize s.foldr consWord ([], []) = cut at ih ⊢
        obtain ⟨w, ws⟩ := cut
        cases hc : isBlank c with
        | false =>
            rw [consWord_of_not_blank hc]
            exact ⟨List.forall_mem_cons.2 ⟨hc, ih.1⟩, ih.2⟩
        | true =>
            cases w with
            | nil =>
                have hcut : consWord c ([], ws) = ([], ws) := if_pos hc
                rwa [hcut]
            | cons d w =>
                have hcut : consWord c (d :: w, ws) = ([], (d :: w) :: ws) := if_pos hc
                rw [hcut]
                exact ⟨fun c hc => (by cases hc),
                  List.forall_mem_cons.2 ⟨⟨List.cons_ne_nil d w, ih.1⟩, ih.2⟩⟩
  rw [words] at h
  generalize s.foldr consWord ([], []) = cut at h hcut
  obtain ⟨_ | ⟨c, w'⟩, ws⟩ := cut
  · exact hcut.2 w h
  · rcases List.mem_cons.1 h with rfl | h
    · exact ⟨List.cons_ne_nil c w', hcut.1⟩
    · exact hcut.2 w h

/-- Where there is a blank in a text, a second one makes no new word. -/
theorem words_double (s rest : List Char) {b : Char} (hb : isBlank b = true) :
    words (s ++ b :: b :: rest) = words (s ++ b :: rest) := by
  have hrest : (b :: b :: rest).foldr consWord ([], []) = (b :: rest).foldr consWord ([], []) := by
    rw [foldr_consWord_blank hb, foldr_consWord_blank hb, words, foldr_consWord_blank hb]
  rw [words, words, List.foldr_append, List.foldr_append, hrest]

end Criteria.Text
