import Criteria.Proofs.Combining
import Criteria.Proofs.Comparing
import Criteria.Proofs.Pieces
import Criteria.Proofs.Printing

/-!
# Departments that a condition can ask for

A condition is cut into words, and quotation marks are taken out of its target but
not out of the department that it is compared with. So no target stands for a
department with a blank or a quotation mark in it (`isMark`), however the condition
is written; every other department is the target for itself.

Letter case could undo this if some letter became a mark, or a mark some letter.
None does: no run of the table of lower case touches a mark on either side
(`lowerRuns_apart`), so a text keeps its marks (`filter_isMark_lower`).
-/

namespace Criteria

open Number Split Text

namespace Text

open CaseTable

/-! ## Letter case leaves marks alone -/

/-- A character that no text to compare with has: blanks end a word, and quotation marks are
taken out. -/
def isMark (c : Char) : Bool :=
  isBlank c || c == '\'' || c == '"'

/-- The codes of the marks, none of which is zero or a surrogate. -/
def marks : List (Nat × Nat) :=
  [(0x09, 0x0D), (0x20, 0x20), (0x22, 0x22), (0x27, 0x27), (0x85, 0x85), (0xA0, 0xA0),
    (0x1680, 0x1680), (0x2000, 0x200A), (0x2028, 0x2029), (0x202F, 0x202F), (0x205F, 0x205F),
    (0x3000, 0x3000)]

theorem marks_pos : ∀ range ∈ marks, 0 < range.1 := by
  decide

theorem isMark_iff {c : Char} :
    isMark c = true ↔ ∃ range ∈ marks, range.1 ≤ c.toNat ∧ c.toNat ≤ range.2 := by
  have hquote (d : Char) : c = d ↔ c.toNat = d.toNat := Char.toNat_inj.symm
  simp only [isMark, isBlank, marks, Bool.or_eq_true, Bool.and_eq_true, decide_eq_true_iff,
    beq_iff_eq, hquote, List.exists_mem_cons_iff, List.not_mem_nil, false_and, exists_false, or_false]
  have : '\''.toNat = 39 := rfl
  have : '"'.toNat = 34 := rfl
  omega

namespace CaseTable

/-- A run that neither maps a code between two bounds nor maps one to there. -/
def Run.Apart (lo hi : Nat) (r : Run) : Prop :=
  (r.last < lo ∨ hi < r.first) ∧ (r.last + r.offset < lo ∨ hi < r.first + r.offset)

instance (lo hi : Nat) : DecidablePred (Run.Apart lo hi) :=
  fun _ => inferInstanceAs (Decidable (_ ∧ _))

theorem Run.map_cases (runs : List Run) (n : Nat) : map runs n = n ∨
    ∃ r ∈ runs, r.first ≤ n ∧ n ≤ r.last ∧ map runs n = (n + r.offset).toNat := by
  induction runs with
  | nil => exact Or.inl rfl
  | cons r rest ih =>
      rw [map]
      split
      · next h => exact Or.inr ⟨r, List.mem_cons_self, h.1, h.2.1, rfl⟩
      · exact ih.imp_right fun ⟨r', hr', h⟩ => ⟨r', List.mem_cons_of_mem _ hr', h⟩

theorem Run.map_eq_self {runs : List Run} {lo hi n : Nat} (hlo : 0 < lo)
    (hapart : ∀ r ∈ runs, r.Apart lo hi)
    (h : lo ≤ n ∧ n ≤ hi ∨ lo ≤ map runs n ∧ map runs n ≤ hi) : map runs n = n := by
  rcases map_cases runs n with hsame | ⟨r, hr, hfirst, hlast, hmap⟩
  · exact hsame
  · have := hapart r hr
    rw [Apart] at this
    omega

theorem lowerRuns_apart : ∀ range ∈ marks, ∀ r ∈ lowerRuns, r.Apart range.1 range.2 := by
  decide +kernel

end CaseTable

/-- A number that is no code of a character stands for the one with the code zero. -/
theorem toNat_ofNat_cases (n : Nat) : (Char.ofNat n).toNat = n ∨ (Char.ofNat n).toNat = 0 := by
  by_cases h : n.isValidChar
  · rw [Char.ofNat, dif_pos h]
    exact Or.inl rfl
  · rw [Char.ofNat, dif_neg h]
    exact Or.inr rfl

/-- Letter case has nothing to do with marks: what is a mark, or becomes one, stays as it
is. -/
theorem lowerChar_eq_self {final : Bool} {c : Char}
    (h : isMark c = true ∨ (lowerChar final c).any isMark = true) : lowerChar final c = [c] := by
  rw [lowerChar] at h ⊢
  split
  · next hsigma =>
      subst hsigma
      revert h
      cases final <;> decide +kernel
  · next hsigma =>
      rw [if_neg hsigma] at h
      split
      · next hdotted =>
          subst hdotted
          revert h
          decide +kernel
      · next hdotted =>
          rw [if_neg hdotted, List.any_cons, List.any_nil, Bool.or_false] at h
          have hsame : Run.map lowerRuns c.toNat = c.toNat := by
            rcases h with hmark | hmark
            · obtain ⟨range, hrange, hin⟩ := isMark_iff.1 hmark
              exact Run.map_eq_self (marks_pos range hrange) (lowerRuns_apart range hrange)
                (Or.inl hin)
            · obtain ⟨range, hrange, hin⟩ := isMark_iff.1 hmark
              have hpos := marks_pos range hrange
              -- Code zero, for what is no character, is no mark.
              rcases toNat_ofNat_cases (Run.map lowerRuns c.toNat) with hcode | hzero
              · rw [hcode] at hin
                exact Run.map_eq_self hpos (lowerRuns_apart range hrange) (Or.inr hin)
              · omega
          rw [hsame, Char.ofNat_toNat]

theorem filter_isMark_lowerChar (final : Bool) (c : Char) :
    (lowerChar final c).filter isMark = [c].filter isMark := by
  by_cases h : isMark c = true ∨ (lowerChar final c).any isMark = true
  · rw [lowerChar_eq_self h]
  · obtain ⟨hc, hlower⟩ := not_or.1 h
    rw [List.filter_eq_nil_iff.2 fun d hd hmark => hlower (List.any_eq_true.2 ⟨d, hd, hmark⟩),
      List.filter_eq_nil_iff.2 fun d hd hmark => hc (by rwa [List.mem_singleton.1 hd] at hmark)]

/-- A text has the marks that it has in lower case. -/
theorem filter_isMark_lower (s : List Char) : (lower s).filter isMark = s.filter isMark := by
  have hfrom : ∀ behind, (lowerFrom behind s).filter isMark = s.filter isMark := by
    induction s with
    | nil => exact fun _ => rfl
    | cons c rest ih =>
        intro behind
        rw [lowerFrom, List.filter_append, filter_isMark_lowerChar, ih, ← List.filter_append,
          List.singleton_append]
  exact hfrom false

end Text

/-! ## Targets -/

namespace FieldValue

theorem filter_isMark_unquote {w : List Char} (hw : IsWord w) :
    (unquote w).filter isMark = [] := by
  refine List.filter_eq_nil_iff.2 fun c hc => ?_
  obtain ⟨hmem, hquote⟩ := List.mem_filter.1 hc
  rw [Bool.and_eq_true, bne_iff_ne, bne_iff_ne] at hquote
  simp [isMark, hw.unblank c hmem, hquote.1, hquote.2]

/-- A text with a mark in it is none that a word can stand for. -/
theorem sameText_eq_false {s target : String} (hs : ∃ c ∈ s.toList, isMark c = true)
    (htarget : IsWord target.toList) : sameText s target = false := by
  obtain ⟨c, hc, hmark⟩ := hs
  refine beq_false_of_ne fun heq => ?_
  have hfilter := filter_isMark_lower s.toList
  rw [heq, filter_isMark_lower, filter_isMark_unquote htarget] at hfilter
  exact List.ne_nil_of_mem (List.mem_filter.2 ⟨hc, hmark⟩) hfilter.symm

theorem sameText_self {s : String} (hs : ∀ c ∈ s.toList, isMark c = false) :
    sameText s s = true := by
  have hunquote : unquote s.toList = s.toList := by
    refine List.filter_eq_self.2 fun c hc => ?_
    have hmark := hs c hc
    simp only [isMark, Bool.or_eq_false_iff] at hmark
    simp [bne, hmark.1.2, hmark.2]
  rw [sameText, hunquote, beq_self_eq_true]

end FieldValue

/-! ## Conditions on a department -/

/-- A condition on a field, however it writes the name, with a comparator. -/
structure Condition.IsOn (cond : Condition) (f : Field) (c : Comparator) : Prop where
  field : ∃ name, cond.field = some name ∧ Field.ofName? name = some f
  comparator : cond.comparator? = some c

section Condition

variable {cond : Condition} {f : Field} {c : Comparator}

/-- What a condition that is read from a text asks for is a word. -/
theorem Condition.IsOn.asks {text : String} (h : (ofText text).IsOn f c) :
    ∃ target, IsWord target.toList ∧ (ofText text).Asks f c target := by
  obtain ⟨⟨name, hname, hf⟩, hc⟩ := h
  rw [ofText] at hname hc ⊢
  split at hname
  · next field comparison target hwords =>
      have hmem : target ∈ words text.toList := by
        rw [hwords]
        exact List.mem_of_getElem? (i := 2) rfl
      rw [hwords] at hc
      refine ⟨String.ofList target, ?_, ⟨name, hname, hf⟩, hc, rfl⟩
      rw [String.toList_ofList]
      exact isWord_of_mem_words hmem
  · cases hname

theorem Condition.Asks.holds_department {a target : String} {ctx : Context}
    (h : cond.Asks .department c target)
    (hctx : ctx.get? Field.department.key = some (.text a)) :
    cond.holds ctx = (FieldValue.text a).compare target c := by
  rw [h.holds_eq, hctx]
  rfl

end Condition

/-! ## Texts of one condition -/

section Text

variable {field target : String} (c : Comparator)

/-- There is no room for a delimiter in front of the target, even if the target is the
word of a connective. -/
theorem operands?_conditionText (hfield : IsPlain field.toList) (htarget : IsWord target.toList) :
    operands? (conditionText field c target).toList = none := by
  rw [operands?_eq_none_iff]
  intro i k hsplit
  have hsymbol := isPlain_symbol c
  have htext : (conditionText field c target).toList =
      (field.toList ++ ' ' :: (c.symbol.toList ++ [])) ++ ' ' :: target.toList := by
    simp [toList_conditionText]
  rw [htext] at hsplit
  have hunsplit : Unsplit (field.toList ++ ' ' :: (c.symbol.toList ++ [])) :=
    .cons hfield.unblank hfield.unparenthesized hsymbol.unblank (symbol_ne_word c)
      (fun _ h => by cases h) (by rw [List.append_nil]; exact .word hsymbol.unblank)
  have hnesting : nesting (field.toList ++ ' ' :: (c.symbol.toList ++ [])) = 0 := by
    have hplain := Balanced.plain hfield.unparenthesized
    have hrest := balanced_blank.append (Balanced.plain hsymbol.unparenthesized)
    rw [List.append_nil]
    exact (hplain.append hrest).total
  -- A delimiter further on would take a blank from the target, which has none.
  have hle := hunsplit _ (fun ch hch => by cases hch; rfl) i k hsplit
  obtain ⟨j, rfl⟩ := Nat.exists_eq_add_of_le hle
  rw [splitsAt_append hnesting] at hsplit
  obtain ⟨rest, hrest⟩ := hsplit.starts
  have htail := congrArg List.tail hrest
  rw [List.tail_drop, List.drop_succ_cons, delimiter_eq] at htail
  have hblank : ' ' ∈ target.toList.drop j := by
    rw [← htail]
    simp
  exact absurd (htarget.unblank _ (List.mem_of_mem_drop hblank)) (by decide)

theorem parse_conditionText (hfield : IsPlain field.toList) (htarget : IsWord target.toList) :
    Tree.parse (conditionText field c target) = .ofCondition (conditionText field c target) := by
  have htext := toList_conditionText field c target
  have hfirst : (conditionText field c target).toList.head? = field.toList.head? := by
    rw [htext, List.head?_append_of_ne_nil _ hfield.ne_nil]
  have hlast : (conditionText field c target).toList.getLast? = target.toList.getLast? := by
    have hparts : (conditionText field c target).toList =
        (field.toList ++ ' ' :: (c.symbol.toList ++ [' '])) ++ target.toList := by
      simp [htext]
    rw [hparts, List.getLast?_append, List.getLast?_eq_some_getLast htarget.ne_nil,
      Option.some_or]
  have htrim : trim (conditionText field c target).toList = (conditionText field c target).toList :=
    trim_eq_self (fun ch hch => hfield.unblank ch (List.mem_of_head? (hfirst ▸ hch)))
      fun ch hch => htarget.unblank ch (List.mem_of_getLast? (hlast ▸ hch))
  have hbody : body (conditionText field c target).toList =
      (conditionText field c target).toList := by
    rw [Tree.body_eq, htrim, stripped_of_not]
    rintro ⟨hopen, -⟩
    exact (hfield.unparenthesized _ (List.mem_of_head? (hfirst ▸ hopen))).1 rfl
  have hnone := operands?_conditionText c hfield htarget
  rw [← hbody] at hnone
  rw [Tree.parse_eq_ofChars, Tree.ofChars_none hnone, hbody, htrim, String.ofList_toList]

end Text

/-! ## What can be asked for -/

section Department

variable {a : String} {ctx : Context}

theorem isMark_eq_false {ch : Char} :
    isMark ch = false ↔ isBlank ch = false ∧ ch ≠ '\'' ∧ ch ≠ '"' := by
  simp [isMark, and_assoc]

/-- The target that asks for a department. -/
def targetFor (a : String) : String :=
  if a = "" then "''" else a

theorem isWord_targetFor (ha : ∀ ch ∈ a.toList, isMark ch = false) :
    IsWord (targetFor a).toList := by
  rw [targetFor]
  split
  · exact (isPlainWord_iff.1 (by decide)).toIsWord
  · next hne =>
      exact ⟨fun hnil => hne (String.toList_eq_nil_iff.1 hnil),
        fun ch hch => (isMark_eq_false.1 (ha ch hch)).1⟩

theorem sameText_targetFor (ha : ∀ ch ∈ a.toList, isMark ch = false) :
    FieldValue.sameText a (targetFor a) = true := by
  rw [targetFor]
  split
  · next hempty =>
      subst hempty
      decide
  · exact FieldValue.sameText_self ha

theorem isPlain_department : IsPlain "department".toList :=
  isPlainWord_iff.1 (by decide)

theorem asks_ofText_conditionText {target : String} (htarget : IsWord target.toList)
    (c : Comparator) :
    (Condition.ofText (conditionText "department" c target)).Asks .department c target := by
  rw [ofText_conditionText isPlain_department.toIsWord htarget]
  exact ⟨⟨_, rfl, Field.ofName?_key .department⟩, c.ofSymbol?_symbol, rfl⟩

theorem conditionText_department (target : String) :
    conditionText "department" .eq target = "department = " ++ target :=
  congrArg (· ++ target) (by decide : "department" ++ " " ++ Comparator.eq.symbol ++ " " = _)

theorem holds_targetFor (ha : ∀ ch ∈ a.toList, isMark ch = false)
    (hctx : ctx.get? Field.department.key = some (.text a)) :
    (Condition.ofText (conditionText "department" .eq (targetFor a))).holds ctx = true := by
  rw [(asks_ofText_conditionText (isWord_targetFor ha) .eq).holds_department hctx]
  exact sameText_targetFor ha

/-- Whatever is asked for is not a department with a mark in it. -/
theorem holds_of_mark (ha : ∃ ch ∈ a.toList, isMark ch = true)
    (hctx : ctx.get? Field.department.key = some (.text a)) {text : String} {c : Comparator}
    (h : (Condition.ofText text).IsOn .department c) :
    (Condition.ofText text).holds ctx = (c == .ne) := by
  obtain ⟨target, htarget, hasks⟩ := h.asks
  rw [hasks.holds_department hctx]
  have hdiffer := FieldValue.sameText_eq_false ha htarget
  cases c <;> simp [FieldValue.compare, hdiffer]

end Department

/-- A condition can ask for a department if and only if there is neither a blank nor a
quotation mark in it, and then the department itself is a target for it, or two
quotation marks if it is empty. Every condition of every text that asks for another
department with `=` does not hold of it, and with `!=` does. -/
theorem department_selectable_iff {a : String} {ctx : Context}
    (hctx : ctx.get? Field.department.key = some (.text a)) :
    let plain := ∀ ch ∈ a.toList, isBlank ch = false ∧ ch ≠ '\'' ∧ ch ≠ '"'
    ((∃ mode text t, Mode.parse mode text = .ok t ∧
        ∃ cond ∈ t.leaves, cond.IsOn .department .eq ∧ cond.holds ctx = true) ↔ plain) ∧
    (plain → ∃ cond, Tree.parse ("department = " ++ targetFor a) = .leaf cond ∧
      cond.IsOn .department .eq ∧ cond.holds ctx = true) ∧
    (¬ plain → ∀ mode text t, Mode.parse mode text = .ok t → ∀ cond ∈ t.leaves,
      (cond.IsOn .department .eq → cond.holds ctx = false) ∧
      (cond.IsOn .department .ne → cond.holds ctx = true)) := by
  intro plain
  have hselects : plain → ∃ cond, Tree.parse ("department = " ++ targetFor a) = .leaf cond ∧
      cond.IsOn .department .eq ∧ cond.holds ctx = true := by
    intro hplain
    have ha : ∀ ch ∈ a.toList, isMark ch = false := fun ch hch =>
      isMark_eq_false.2 (hplain ch hch)
    have hasks := asks_ofText_conditionText (isWord_targetFor ha) .eq
    have hparse := parse_conditionText .eq isPlain_department (isWord_targetFor ha)
    rw [conditionText_department] at hparse
    exact ⟨_, hparse, ⟨hasks.field, hasks.comparator⟩, holds_targetFor ha hctx⟩
  have hnever : ¬ plain → ∀ mode text t, Mode.parse mode text = .ok t → ∀ cond ∈ t.leaves,
      (cond.IsOn .department .eq → cond.holds ctx = false) ∧
      (cond.IsOn .department .ne → cond.holds ctx = true) := by
    intro hnot mode text t ht cond hcond
    have ha : ∃ ch ∈ a.toList, isMark ch = true := by
      by_contra hno
      refine hnot fun ch hch => isMark_eq_false.1 ?_
      exact Bool.eq_false_iff.2 fun hmark => hno ⟨ch, hch, hmark⟩
    rw [Mode.parse_ok ht] at hcond
    obtain ⟨s, -, -, rfl⟩ := Tree.mem_leaves_parse.1 hcond
    exact ⟨fun h => holds_of_mark ha hctx h, fun h => holds_of_mark ha hctx h⟩
  refine ⟨⟨fun hsome => ?_, fun hplain => ?_⟩, hselects, hnever⟩
  · obtain ⟨mode, text, t, ht, cond, hcond, hon, hholds⟩ := hsome
    by_contra hnot
    rw [(hnever hnot mode text t ht cond hcond).1 hon] at hholds
    cases hholds
  · obtain ⟨cond, hparse, hon, hholds⟩ := hselects hplain
    refine ⟨.lenient, "department = " ++ targetFor a, _, rfl, cond, ?_, hon, hholds⟩
    rw [hparse, Tree.leaves_leaf]
    exact List.mem_singleton_self cond

/-- Of two departments, one can be asked for, and the other, with a blank in it, cannot. -/
theorem department_selectable_iff_blank :
    let single := Context.empty.insert "department" (.text "R&D")
    let double := Context.ofJson (.object [("department", .text "Human Resources")])
    (∃ cond, Tree.parse "department = R&D" = .leaf cond ∧
      cond.IsOn .department .eq ∧ cond.holds single = true) ∧
    ∀ text, ∀ cond ∈ (Tree.parse text).leaves,
      (cond.IsOn .department .eq → cond.holds double = false) ∧
      (cond.IsOn .department .ne → cond.holds double = true) := by
  intro single double
  have hsingle : single.get? Field.department.key = some (.text "R&D") := by decide
  have hdouble : double.get? Field.department.key = some (.text "Human Resources") := by decide
  refine ⟨(department_selectable_iff hsingle).2.1 ?_, fun text => ?_⟩
  · simp [isBlank]
  · refine (department_selectable_iff hdouble).2.2 (fun hplain => ?_) .lenient text _ rfl
    exact absurd (hplain ' ' (by decide)).1 (by decide)

end Criteria
