import Criteria.Proofs.Pieces
import Criteria.Proofs.Printing
import Mathlib.Algebra.GroupWithZero.Nat

/-!
# Nothing is lost in reading

Read from left to right, a tree gives back the text that it was read from, but for
blanks and parentheses (`bare_reading`). Blanks go wherever a piece is trimmed or
split. Parentheses go in one place only, and there in pairs, at most one for each
piece: so as many opening as closing ones are missing from the leaves, and no more
than there are nodes (`exists_dropped`).

Both are inductions along the pieces and hold of every text, whether its parentheses
match or not.
-/

namespace Criteria

open Split Text

/-- A text without its blanks and parentheses. -/
def bare (s : List Char) : List Char :=
  s.filter fun c => !isBlank c && c != '(' && c != ')'

theorem bare_append (s s' : List Char) : bare (s ++ s') = bare s ++ bare s' :=
  List.filter_append _ _

theorem bare_blanks {b : List Char} (hb : Blanks b) : bare b = [] :=
  List.filter_eq_nil_iff.2 fun c hc => by simp [hb c hc]

theorem bare_trim (s : List Char) : bare (trim s) = bare s := by
  obtain ⟨b, b', hb, hb', heq⟩ := exists_trim s
  conv_rhs => rw [heq, bare_append, bare_append, bare_blanks hb, bare_blanks hb']
  rw [List.nil_append, List.append_nil]

theorem bare_body (s : List Char) : bare (body s) = bare s := by
  rw [← bare_trim s]
  rcases trim_eq_body s with heq | heq
  · rw [heq]
  · have hopen : bare ['('] = [] := rfl
    have hclose : bare [')'] = [] := rfl
    rw [heq, ← List.singleton_append, List.append_assoc, bare_append, bare_append, hopen, hclose,
      List.nil_append, List.append_nil]

theorem bare_delimiter (c : Connective) : bare c.delimiter = bare c.word.toList := by
  cases c <;> decide

namespace Tree

/-- A tree from left to right: what its leaves say and the connectives between them. -/
def reading : Tree → List Char
  | empty => []
  | leaf c => c.value.toList
  | branch c left right => left.reading ++ c.word.toList ++ right.reading

theorem bare_reading (s : List Char) : bare (ofChars s).reading = bare s := by
  induction s using ofChars.induct with
  | case1 s o ho ihl ihr =>
      rw [ofChars_some ho, reading, bare_append, bare_append, ihl, ihr, ← bare_body s,
        body_eq_append ho, bare_append, bare_append, bare_delimiter]
  | case2 s ho =>
      rw [ofChars_none ho, ofCondition, reading, value_ofText, String.toList_ofList, bare_trim,
        bare_body]

/-- How often a character occurs in the leaves of a tree. -/
def occurrences (ch : Char) (t : Tree) : Nat :=
  (t.leaves.map (·.value.toList.count ch)).sum

theorem occurrences_branch (ch : Char) (c : Connective) (left right : Tree) :
    (branch c left right).occurrences ch = left.occurrences ch + right.occurrences ch := by
  rw [occurrences, leaves_branch, List.map_append, List.sum_append_nat, occurrences, occurrences]

theorem occurrences_ofCondition (ch : Char) (s : List Char) :
    (ofCondition (String.ofList s)).occurrences ch = s.count ch := by
  rw [occurrences, ofCondition, leaves_leaf, List.map_singleton, value_ofText,
    String.toList_ofList, List.sum_cons, List.sum_nil, Nat.add_zero]

end Tree

/-- A text and its body differ by one pair of parentheses at most. -/
theorem count_body (s : List Char) :
    ∃ n ≤ 1, ∀ ch, ch = '(' ∨ ch = ')' → s.count ch = (body s).count ch + n := by
  rcases trim_eq_body s with heq | heq
  · refine ⟨0, Nat.zero_le 1, fun ch hch => ?_⟩
    rw [← count_trim hch, heq, Nat.add_zero]
  · refine ⟨1, Nat.le_refl 1, fun ch hch => ?_⟩
    rw [← count_trim hch, heq]
    rcases hch with rfl | rfl
    · simp
    · simp

namespace Tree

theorem exists_dropped (s : List Char) :
    ∃ n ≤ (ofChars s).nodeCount, ∀ ch, ch = '(' ∨ ch = ')' →
      s.count ch = (ofChars s).occurrences ch + n := by
  induction s using ofChars.induct with
  | case1 s o ho ihl ihr =>
      obtain ⟨n, hn, hbody⟩ := count_body s
      obtain ⟨nl, hnl, hleft⟩ := ihl
      obtain ⟨nr, hnr, hright⟩ := ihr
      rw [ofChars_some ho]
      refine ⟨nl + nr + n, ?_, fun ch hch => ?_⟩
      · rw [nodeCount_branch]
        omega
      · have hdelimiter : o.connective.delimiter.count ch = 0 := by
          rcases hch with rfl | rfl <;> cases o.connective <;> decide
        rw [hbody ch hch, body_eq_append ho, List.count_append, List.count_append, hleft ch hch,
          hright ch hch, hdelimiter, occurrences_branch]
        omega
  | case2 s ho =>
      obtain ⟨n, hn, hbody⟩ := count_body s
      rw [ofChars_none ho]
      refine ⟨n, ?_, fun ch hch => ?_⟩
      · rw [ofCondition, nodeCount_leaf]
        exact hn
      · rw [hbody ch hch, occurrences_ofCondition, count_trim hch]

/-- Read from left to right, a tree is the text that it was read from, blanks and
parentheses aside. Parentheses are dropped in pairs, at most one at each node. -/
theorem parse_conserves (text : String) :
    bare (parse text).reading = bare text.toList ∧
    ∃ dropped ≤ (parse text).nodeCount,
      text.toList.count '(' =
        ((parse text).leaves.map (·.value.toList.count '(')).sum + dropped ∧
      text.toList.count ')' =
        ((parse text).leaves.map (·.value.toList.count ')')).sum + dropped := by
  rw [parse_eq_ofChars]
  obtain ⟨dropped, hle, hcount⟩ := exists_dropped text.toList
  exact ⟨bare_reading _, dropped, hle, hcount _ (Or.inl rfl), hcount _ (Or.inr rfl)⟩

end Tree

end Criteria
