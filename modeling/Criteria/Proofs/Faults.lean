import Criteria.Proofs.Shape
import Criteria.Service

/-!
# The first fault of a text

Strict mode reports one fault, the first it comes to. It goes through the text once
for the parentheses, and only a text whose parentheses match is looked at leaf by
leaf. A beginning in which no parenthesis closes too early is passed by the check,
which then stands at the bytes of that beginning with what is open there
(`checkParentheses_append`). So everything is decided by what stands behind it: the
closing parenthesis that comes too early, or the end.

The leaves are faulty or not by the words of their texts alone, since every leaf
that is read is the condition that its text writes.

All that a client learns of a fault are words, so these are part of the matter
(`RefusedFor`): the place, the number or the leaf has to stand in them.
-/

namespace Criteria

open Split Text

/-! ## Parentheses -/

theorem bytes_cons (c : Char) (s : List Char) : bytes (c :: s) = c.utf8Size + bytes s := by
  have hone : bytes [c] = c.utf8Size := by
    rw [bytes, ← String.singleton_eq_ofList, String.utf8ByteSize_singleton]
  rw [← List.singleton_append, bytes_append, hone]

theorem nesting_cons (c : Char) (s : List Char) : nesting (c :: s) = nesting [c] + nesting s := by
  rw [← List.singleton_append, nesting_append]

namespace Tree

theorem checkParentheses_cons {c : Char} {rest : List Char} {offset depth depth' : Nat}
    (h : (depth' : Int) = depth + nesting [c]) :
    checkParentheses offset depth (c :: rest) =
      checkParentheses (offset + c.utf8Size) depth' rest := by
  rw [checkParentheses]
  split
  · next hopen =>
      rw [hopen, nesting_open] at h
      obtain rfl : depth' = depth + 1 := by omega
      rfl
  · next hopen =>
      split
      · next hclose =>
          rw [hclose, nesting_close] at h
          obtain rfl : depth = depth' + 1 := by omega
          rw [if_neg (Nat.succ_ne_zero depth'), Nat.add_sub_cancel]
      · next hclose =>
          rw [nesting_plain hopen hclose] at h
          obtain rfl : depth' = depth := by omega
          rfl

/-- The check passes a beginning in which nothing closes too early. -/
theorem checkParentheses_append {before rest : List Char} {offset depth depth' : Nat}
    (hearly : ∀ i, 0 ≤ depth + nesting (before.take i))
    (h : (depth' : Int) = depth + nesting before) :
    checkParentheses offset depth (before ++ rest) =
      checkParentheses (offset + bytes before) depth' rest := by
  induction before generalizing offset depth with
  | nil =>
      obtain rfl : depth' = depth := by
        rw [nesting_nil] at h
        omega
      rfl
  | cons c before ih =>
      have hfirst := hearly 1
      rw [List.take_succ_cons, List.take_zero] at hfirst
      obtain ⟨open', hopen'⟩ := Int.eq_ofNat_of_zero_le hfirst
      rw [nesting_cons] at h
      rw [List.cons_append, checkParentheses_cons hopen'.symm, ih, bytes_cons, Nat.add_assoc]
      · intro i
        have hnext := hearly (i + 1)
        rw [List.take_succ_cons, nesting_cons] at hnext
        omega
      · omega

end Tree

/-- Where more is closed than is open, there is a first parenthesis that closes too
much: in front of it nothing has, and nothing is open. -/
theorem exists_surplus {s : List Char} {depth : Int} (hdepth : 0 ≤ depth)
    (h : ∃ i, depth + nesting (s.take i) < 0) :
    ∃ before after, s = before ++ ')' :: after ∧
      (∀ i, 0 ≤ depth + nesting (before.take i)) ∧ depth + nesting before = 0 := by
  obtain ⟨i, hi⟩ := h
  induction s generalizing depth i with
  | nil =>
      rw [List.take_nil, nesting_nil] at hi
      omega
  | cons c s ih =>
      by_cases hnext : 0 ≤ depth + nesting [c]
      · cases i with
        | zero =>
            rw [List.take_zero, nesting_nil] at hi
            omega
        | succ i =>
            rw [List.take_succ_cons, nesting_cons, ← Int.add_assoc] at hi
            obtain ⟨before, after, rfl, hearly, htotal⟩ := ih hnext i hi
            refine ⟨c :: before, after, rfl, fun j => ?_, by rw [nesting_cons]; omega⟩
            cases j with
            | zero => rwa [List.take_zero, nesting_nil, Int.add_zero]
            | succ j =>
                rw [List.take_succ_cons, nesting_cons, ← Int.add_assoc]
                exact hearly j
      · -- Only a closing parenthesis takes the count down.
        have hclose : c = ')' := by
          by_contra hclose
          by_cases hopen : c = '('
          · rw [hopen, nesting_open] at hnext
            omega
          · rw [nesting_plain hopen hclose] at hnext
            omega
        subst hclose
        rw [nesting_close] at hnext
        have hzero : depth = 0 := by omega
        refine ⟨[], s, rfl, fun j => ?_, by rw [nesting_nil, hzero]; rfl⟩
        rw [List.take_nil, nesting_nil, Int.add_zero]
        exact hdepth

/-! ## Conditions -/

/-- A text that writes a condition: three words, the second of them a comparator. -/
def Condition.Writes (text : String) : Prop :=
  ∃ field op target, words text.toList = [field, (Comparator.symbol op).toList, target]

namespace Tree

theorem checkCondition_of_length {text : String} (h : (words text.toList).length ≠ 3) :
    checkCondition (Condition.ofText text) = some (.malformedCondition text) := by
  rw [Condition.ofText]
  split
  · next hwords =>
      rw [hwords] at h
      exact absurd rfl h
  · rfl

theorem checkCondition_of_word {text : String} {field op target : List Char}
    (hwords : words text.toList = [field, op, target])
    (hop : ∀ c : Comparator, op ≠ c.symbol.toList) :
    checkCondition (Condition.ofText text) = some (.unknownComparator text) := by
  have hnone : Comparator.ofSymbol? (String.ofList op) = none := by
    refine Option.eq_none_iff_forall_not_mem.2 fun c hc => hop c ?_
    rw [symbol_of_ofSymbol? hc, String.toList_ofList]
  have hparts : Condition.ofText text =
      ⟨text, some (String.ofList field), some (String.ofList op), some (String.ofList target)⟩ := by
    rw [Condition.ofText, hwords]
  have hcomparator : (Condition.ofText text).comparator? = none := by
    rw [hparts]
    exact hnone
  have hthree : (Condition.ofText text).isMalformed = false := by
    rw [hparts]
    rfl
  rw [checkCondition, hthree, hcomparator, value_ofText]
  rfl

theorem checkCondition_of_writes {text : String} (h : Condition.Writes text) :
    checkCondition (Condition.ofText text) = none := by
  obtain ⟨field, op, target, hwords⟩ := h
  refine checkCondition_eq_none_iff.2 ⟨String.ofList field, op, String.ofList target, ?_⟩
  rw [Condition.ofText, hwords]
  exact ⟨rfl, congrArg some String.ofList_toList, rfl⟩

/-- What a text that writes no condition is faulty for. -/
theorem not_writes_iff {text : String} :
    ¬ Condition.Writes text ↔ (words text.toList).length ≠ 3 ∨ ∃ field op target,
      words text.toList = [field, op, target] ∧ ∀ c : Comparator, op ≠ c.symbol.toList := by
  constructor
  · intro h
    by_cases hlength : (words text.toList).length = 3
    · obtain ⟨field, op, target, hwords⟩ := List.length_eq_three.1 hlength
      refine Or.inr ⟨field, op, target, hwords, ?_⟩
      rintro c rfl
      exact h ⟨field, c, target, hwords⟩
    · exact Or.inl hlength
  · rintro (hlength | ⟨field, op, target, hwords, hop⟩) ⟨field', op', target', hwords'⟩
    · rw [hwords'] at hlength
      exact hlength rfl
    · rw [hwords'] at hwords
      cases hwords
      exact hop op' rfl

theorem checkCondition_ofText {text : String} :
    checkCondition (Condition.ofText text) = none ↔ Condition.Writes text := by
  refine ⟨fun h => ?_, checkCondition_of_writes⟩
  by_contra hnot
  rcases not_writes_iff.1 hnot with hlength | ⟨field, op, target, hwords, hop⟩
  · rw [checkCondition_of_length hlength] at h
    cases h
  · rw [checkCondition_of_word hwords hop] at h
    cases h

end Tree

instance : DecidablePred Condition.Writes :=
  fun _ => decidable_of_iff _ Tree.checkCondition_ofText

/-! ## Texts -/

/-- In strict mode a text is refused for a fault, and the reason that is given for it is in
some words: they are in the error that the reader shows and in the failure of every service
that reads strictly. -/
structure RefusedFor (text : String) (fault : ParseFault) (reason : String) : Prop where
  parse : Mode.strict.parse text = .error fault
  message : fault.message = reason
  shown : (RuleError.unreadable fault.message).message = "规则解析失败: " ++ reason
  read : ∀ {σ : Type} (svc : Service σ), svc.mode = .strict →
    svc.read text = .error (.unreadable reason)

theorem refusedFor {text : String} {fault : ParseFault}
    (h : Mode.strict.parse text = .error fault) : RefusedFor text fault fault.message where
  parse := h
  message := rfl
  shown := rfl
  read svc hstrict := by rw [Service.read, hstrict, h]

theorem RefusedFor.fault_eq {text reason : String} {fault fault' : ParseFault}
    (h : RefusedFor text fault reason) (hfault : Mode.strict.parse text = .error fault') :
    fault = fault' :=
  Except.error.inj (h.parse.symm.trans hfault)

section Strict

variable {text : String}

theorem strict_parse_error_iff {fault : ParseFault} :
    Mode.strict.parse text = .error fault ↔ Tree.fault? text = some fault := by
  rw [Mode.parse]
  constructor
  · intro h
    split at h
    · next hfault =>
        cases h
        exact hfault
    · cases h
  · intro h
    rw [h]

theorem forall_isFormed_iff :
    (∀ c ∈ (Tree.parse text).leaves, c.IsFormed) ↔
      ∀ c ∈ (Tree.parse text).conditions, Condition.Writes c.value := by
  rw [Tree.leaves_eq_conditions]
  refine forall₂_congr fun c hc => ?_
  rw [← Tree.checkCondition_ofText, ← (Tree.whole_parse text).leaves c
    (Tree.leaves_eq_conditions _ ▸ hc), Tree.checkCondition_eq_none_iff]

theorem strict_parse_surplus {before after : List Char}
    (htext : text.toList = before ++ ')' :: after) (hearly : ∀ i, 0 ≤ nesting (before.take i))
    (htotal : nesting before = 0) :
    Mode.strict.parse text = .error (.surplusParenthesis (bytes before)) := by
  have hnone : ((0 : Nat) : Int) = (0 : Nat) + nesting before := by omega
  have hcheck : Tree.checkParentheses 0 0 text.toList =
      some (.surplusParenthesis (bytes before)) := by
    rw [htext, Tree.checkParentheses_append (fun i => ?_) hnone, Nat.zero_add]
    · rfl
    · exact Int.add_nonneg (Int.le_refl 0) (hearly i)
  rw [strict_parse_error_iff, Tree.fault?, hcheck]
  rfl

theorem strict_parse_missing (hearly : ∀ i, 0 ≤ nesting (text.toList.take i)) {n : Nat}
    (htotal : nesting text.toList = n) (hn : n ≠ 0) :
    Mode.strict.parse text = .error (.missingParentheses n) := by
  have hcheck : Tree.checkParentheses 0 0 text.toList = some (.missingParentheses n) := by
    have hopen : (n : Int) = (0 : Nat) + nesting text.toList := by omega
    rw [← List.append_nil text.toList, Tree.checkParentheses_append (fun i => ?_) hopen,
      Tree.checkParentheses, if_neg hn]
    exact Int.add_nonneg (Int.le_refl 0) (hearly i)
  rw [strict_parse_error_iff, Tree.fault?, hcheck]
  rfl

/-- If the parentheses match, the first leaf with a fault is reported. -/
theorem strict_parse_condition (hbalanced : Balanced text.toList) {before after : List Condition}
    {c : Condition} (hleaves : (Tree.parse text).conditions = before ++ c :: after)
    (hbefore : ∀ b ∈ before, Condition.Writes b.value) {fault : ParseFault}
    (hfault : Tree.checkCondition (Condition.ofText c.value) = some fault) :
    Mode.strict.parse text = .error fault := by
  have hwhole := (Tree.whole_parse text).leaves
  rw [Tree.leaves_eq_conditions, hleaves] at hwhole
  have hcheck : Tree.checkParentheses 0 0 text.toList = none :=
    checkParentheses_eq_none_iff.2 (balanced_iff_closes.1 hbalanced)
  rw [strict_parse_error_iff, Tree.fault?, hcheck, Option.none_or, Tree.leaves_eq_conditions,
    hleaves, List.findSome?_eq_some_iff]
  refine ⟨before, c, after, rfl, ?_, fun b hb => ?_⟩
  · rw [hwhole c (List.mem_append_right _ List.mem_cons_self)]
    exact hfault
  · rw [hwhole b (List.mem_append_left _ hb)]
    exact Tree.checkCondition_of_writes (hbefore b hb)

end Strict

/-- Strict mode accepts a text if no parenthesis closes too early and none is missing,
and every leaf of its tree is written in three words, the second of them a comparator;
what it reads is then that tree. It refuses any other text. If some beginning closes
more than it opens, the reason names the first closing parenthesis that does, by the
bytes in front of it. If not, and some parentheses stay open, it names their number.
Else it names the first leaf from the left that is not written so, by its text, and says
whether it has not three words or has no comparator between two others. -/
theorem strict_parse_first_fault (text : String) :
    let s := text.toList
    let leaves := (Tree.parse text).conditions
    (∀ t, Mode.strict.parse text = .ok t ↔ t = Tree.parse text ∧
      (∀ i, 0 ≤ nesting (s.take i)) ∧ nesting s = 0 ∧
        ∀ c ∈ leaves, Condition.Writes c.value) ∧
    ((∃ i, nesting (s.take i) < 0) → ∃ before after,
      s = before ++ ')' :: after ∧ (∀ i, 0 ≤ nesting (before.take i)) ∧
        nesting (before ++ [')']) < 0 ∧
        RefusedFor text (.surplusParenthesis (bytes before))
          ("位置 " ++ toString (bytes before) ++ " 处存在多余的右括号")) ∧
    ((∀ i, 0 ≤ nesting (s.take i)) → nesting s ≠ 0 → ∃ n : Nat,
      0 < n ∧ nesting s = n ∧ RefusedFor text (.missingParentheses n)
        ("括号不匹配，缺少 " ++ toString n ++ " 个右括号")) ∧
    ((∀ i, 0 ≤ nesting (s.take i)) → nesting s = 0 →
      (∃ c ∈ leaves, ¬ Condition.Writes c.value) → ∃ before c after,
        leaves = before ++ c :: after ∧ (∀ b ∈ before, Condition.Writes b.value) ∧
        ((words c.value.toList).length ≠ 3 ∧
            RefusedFor text (.malformedCondition c.value)
              ("条件 '" ++ c.value ++ "' 必须是 <字段> <比较符> <值> 三段式") ∨
          (∃ field op target, words c.value.toList = [field, op, target] ∧
              ∀ k : Comparator, op ≠ k.symbol.toList) ∧
            RefusedFor text (.unknownComparator c.value)
              ("条件 '" ++ c.value ++ "' 的比较符无效"))) := by
  intro s leaves
  refine ⟨fun t => ?_, fun h => ?_, fun hearly hne => ?_, fun hearly htotal h => ?_⟩
  · rw [strict_parse_ok_iff]
    constructor
    · rintro ⟨rfl, hbalanced, hformed⟩
      exact ⟨rfl, hbalanced.early, hbalanced.total, forall_isFormed_iff.1 hformed⟩
    · rintro ⟨rfl, hearly, htotal, hwrites⟩
      exact ⟨rfl, ⟨htotal, hearly⟩, forall_isFormed_iff.2 hwrites⟩
  · obtain ⟨before, after, htext, hearly, htotal⟩ :=
      exists_surplus (Int.le_refl 0) (h.imp fun i hi => by rwa [Int.zero_add])
    simp only [Int.zero_add] at hearly htotal
    refine ⟨before, after, htext, hearly, ?_, refusedFor (strict_parse_surplus htext hearly htotal)⟩
    rw [nesting_append, htotal, nesting_close]
    decide
  · have htotal := hearly s.length
    rw [List.take_length] at htotal
    obtain ⟨n, hn⟩ := Int.eq_ofNat_of_zero_le htotal
    have hpos : n ≠ 0 := fun hzero => hne (by rw [hn, hzero]; rfl)
    exact ⟨n, Nat.pos_of_ne_zero hpos, hn, refusedFor (strict_parse_missing hearly hn hpos)⟩
  · have hbalanced : Balanced s := ⟨htotal, hearly⟩
    obtain ⟨c, hmem, hc⟩ := h
    obtain ⟨c, before, after, hbefore, hc, hleaves, -⟩ := List.exists_of_eraseP
      (p := fun c : Condition => !decide (Condition.Writes c.value)) hmem (by simpa using hc)
    simp only [Bool.not_eq_true', decide_eq_false_iff_not, Decidable.not_not] at hbefore hc
    have hreport {fault : ParseFault} (hfault : Tree.checkCondition (Condition.ofText c.value) =
        some fault) : RefusedFor text fault fault.message :=
      refusedFor (strict_parse_condition hbalanced hleaves hbefore hfault)
    refine ⟨before, c, after, hleaves, hbefore, ?_⟩
    rcases Tree.not_writes_iff.1 hc with hlength | hword
    · exact Or.inl ⟨hlength, hreport (Tree.checkCondition_of_length hlength)⟩
    · obtain ⟨field, op, target, hwords, hop⟩ := id hword
      exact Or.inr ⟨hword, hreport (Tree.checkCondition_of_word hwords hop)⟩

/-- A parenthesis behind a character of two bytes, two that are never closed, a leaf without
a comparator in front of one in two words, and a leaf in one word. -/
theorem strict_parse_first_fault_each :
    RefusedFor "é > 3) AND (b < 4" (.surplusParenthesis 6) "位置 6 处存在多余的右括号" ∧
    RefusedFor "((a > 1" (.missingParentheses 2) "括号不匹配，缺少 2 个右括号" ∧
    RefusedFor "a > 1 AND (b => 2 OR c <)" (.unknownComparator "b => 2")
      "条件 'b => 2' 的比较符无效" ∧
    RefusedFor "age > 30 AND salary" (.malformedCondition "salary")
      "条件 'salary' 必须是 <字段> <比较符> <值> 三段式" := by
  refine ⟨?_, ?_, ?_, ?_⟩
  · obtain ⟨-, hsurplus, -⟩ := strict_parse_first_fault "é > 3) AND (b < 4"
    obtain ⟨before, after, -, -, -, hrefused⟩ := hsurplus ⟨6, by decide⟩
    have hplace : bytes before = 6 :=
      ParseFault.surplusParenthesis.inj (hrefused.fault_eq (by decide +kernel))
    rw [hplace] at hrefused
    exact hrefused
  · obtain ⟨-, -, hmissing, -⟩ := strict_parse_first_fault "((a > 1"
    have hearly : ∀ i, 0 ≤ nesting ("((a > 1".toList.take i) := fun i => by
      have hnone : ("((a > 1".toList.take i).count ')' = 0 :=
        List.count_eq_zero.2 fun h => absurd (List.mem_of_mem_take h) (by decide)
      rw [nesting, hnone]
      omega
    obtain ⟨n, -, hn, hrefused⟩ := hmissing hearly (by decide)
    obtain rfl : n = 2 := Int.ofNat.inj (hn.symm.trans (by decide))
    exact hrefused
  · obtain ⟨-, -, -, hcondition⟩ := strict_parse_first_fault "a > 1 AND (b => 2 OR c <)"
    have hbalanced : Balanced "a > 1 AND (b => 2 OR c <)".toList := by decide
    obtain ⟨before, c, after, -, -, hrefused⟩ :=
      hcondition hbalanced.early hbalanced.total (by decide +kernel)
    have hfault : Mode.strict.parse "a > 1 AND (b => 2 OR c <)" =
        .error (.unknownComparator "b => 2") := by decide +kernel
    rcases hrefused with ⟨-, hrefused⟩ | ⟨-, hrefused⟩
    · cases hrefused.fault_eq hfault
    · rw [ParseFault.unknownComparator.inj (hrefused.fault_eq hfault)] at hrefused
      exact hrefused
  · obtain ⟨-, -, -, hcondition⟩ := strict_parse_first_fault "age > 30 AND salary"
    have hbalanced : Balanced "age > 30 AND salary".toList := by decide
    obtain ⟨before, c, after, -, -, hrefused⟩ :=
      hcondition hbalanced.early hbalanced.total (by decide +kernel)
    have hfault : Mode.strict.parse "age > 30 AND salary" =
        .error (.malformedCondition "salary") := by decide +kernel
    rcases hrefused with ⟨-, hrefused⟩ | ⟨-, hrefused⟩
    · rw [ParseFault.malformedCondition.inj (hrefused.fault_eq hfault)] at hrefused
      exact hrefused
    · cases hrefused.fault_eq hfault

end Criteria
