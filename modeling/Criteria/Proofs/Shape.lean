import Criteria.Proofs.Pieces
import Criteria.Proofs.Printing
import Mathlib.Algebra.GroupWithZero.Nat

/-!
# The shape of a tree that is read

A tree that is read lacks no child (`Whole`), and this alone fixes how many nodes and
connectives go with its leaves. What its leaves are comes from the pieces that they
are written by: trimming such a piece leaves it without a split, since a split of the
trimmed text is one of the whole, moved along by the blanks in front.

The bytes of a text are those of its leaves and delimiters and whatever is dropped
around its pieces, so the tree can be no larger than its text allows (`written_le`).
-/

namespace Criteria

open Split Text

/-! ## Trees in which nothing is missing -/

namespace Tree

/-- Every branch has both children, and every leaf is the condition that its text
writes. -/
structure Whole (t : Tree) : Prop where
  branches : ∀ c left right, branch c left right ∈ t.nodes → left ≠ empty ∧ right ≠ empty
  leaves : ∀ c ∈ t.leaves, c = Condition.ofText c.value

theorem whole_ofCondition (text : String) : Whole (ofCondition text) := by
  refine ⟨fun c left right h => ?_, fun c h => ?_⟩
  · rw [ofCondition, nodes_leaf, List.mem_singleton] at h
    cases h
  · rw [ofCondition, leaves_leaf, List.mem_singleton] at h
    rw [h, value_ofText]

theorem Whole.branch {c : Connective} {left right : Tree} (hl : Whole left) (hr : Whole right)
    (hleft : left ≠ empty) (hright : right ≠ empty) : Whole (branch c left right) := by
  refine ⟨fun c' left' right' h => ?_, fun c' h => ?_⟩
  · rw [nodes_branch, List.mem_cons, List.mem_append] at h
    rcases h with h | h | h
    · cases h
      exact ⟨hleft, hright⟩
    · exact hl.branches _ _ _ h
    · exact hr.branches _ _ _ h
  · rw [leaves_branch, List.mem_append] at h
    rcases h with h | h
    · exact hl.leaves _ h
    · exact hr.leaves _ h

theorem ofChars_ne_empty (s : List Char) : ofChars s ≠ empty := by
  rw [ofChars]
  split
  · exact fun h => by cases h
  · exact fun h => by cases h

theorem parse_ne_empty (text : String) : parse text ≠ empty :=
  parse_eq_ofChars text ▸ ofChars_ne_empty _

theorem whole_parse (text : String) : Whole (parse text) := by
  rw [parse_eq_ofChars]
  induction text.toList using ofChars.induct with
  | case1 s o ho ihl ihr =>
      rw [ofChars_some ho]
      exact ihl.branch ihr (ofChars_ne_empty _) (ofChars_ne_empty _)
  | case2 s ho =>
      rw [ofChars_none ho]
      exact whole_ofCondition _

end Tree

/-! ## Counting nodes -/

namespace Tree

def connective? : Tree → Option Connective
  | branch c _ _ => some c
  | _ => none

/-- The connectives of a tree, each before those of its operands. -/
def connectives (t : Tree) : List Connective :=
  t.nodes.filterMap connective?

theorem connectives_leaf (c : Condition) : (leaf c).connectives = [] := by
  rw [connectives, nodes_leaf]
  rfl

theorem connectives_branch (c : Connective) (left right : Tree) :
    (branch c left right).connectives = c :: (left.connectives ++ right.connectives) := by
  rw [connectives, nodes_branch, List.filterMap_cons, List.filterMap_append]
  rfl

theorem Whole.of_branch {c : Connective} {left right : Tree} (h : Whole (.branch c left right)) :
    (left ≠ empty ∧ right ≠ empty) ∧ Whole left ∧ Whole right := by
  obtain ⟨hbranches, hleaves⟩ := h
  rw [leaves_branch] at hleaves
  simp only [nodes_branch, List.mem_cons, List.mem_append] at hbranches
  refine ⟨hbranches c left right (Or.inl rfl), ⟨fun c' l r h => ?_, fun c' h => ?_⟩,
    fun c' l r h => ?_, fun c' h => ?_⟩
  · exact hbranches c' l r (Or.inr (Or.inl h))
  · exact hleaves c' (List.mem_append_left _ h)
  · exact hbranches c' l r (Or.inr (Or.inr h))
  · exact hleaves c' (List.mem_append_right _ h)

variable {t : Tree}

theorem Whole.length_connectives (h : Whole t) (hne : t ≠ empty) :
    t.connectives.length + 1 = t.leaves.length := by
  induction t with
  | empty => exact absurd rfl hne
  | leaf c => rw [connectives_leaf, leaves_leaf]; rfl
  | branch c left right ihl ihr =>
      obtain ⟨⟨hleft, hright⟩, hl, hr⟩ := h.of_branch
      have hnodesl := ihl hl hleft
      have hnodesr := ihr hr hright
      rw [connectives_branch, leaves_branch, List.length_cons, List.length_append,
        List.length_append]
      omega

theorem nodeCount_eq (t : Tree) : t.nodeCount = t.connectives.length + t.leaves.length := by
  induction t with
  | empty => rw [nodeCount, connectives, leaves, nodes_empty]; rfl
  | leaf c => rw [nodeCount_leaf, connectives_leaf, leaves_leaf]; rfl
  | branch c left right ihl ihr =>
      rw [nodeCount_branch, connectives_branch, leaves_branch, List.length_cons,
        List.length_append, List.length_append]
      omega

theorem Whole.height_le (h : Whole t) (hne : t ≠ empty) : t.height ≤ t.leaves.length := by
  induction t with
  | empty => exact absurd rfl hne
  | leaf c => rw [height, leaves_leaf]; exact Nat.le_refl 1
  | branch c left right ihl ihr =>
      obtain ⟨⟨hleft, hright⟩, hl, hr⟩ := h.of_branch
      have hheightl := ihl hl hleft
      have hheightr := ihr hr hright
      have hposl := hl.length_connectives hleft
      have hposr := hr.length_connectives hright
      rw [height, leaves_branch, List.length_append]
      omega

end Tree

/-! ## Bytes -/

/-- The length of a text in bytes. -/
def bytes (s : List Char) : Nat :=
  (String.ofList s).utf8ByteSize

theorem bytes_append (s s' : List Char) : bytes (s ++ s') = bytes s + bytes s' := by
  rw [bytes, String.ofList_append, String.utf8ByteSize_append, bytes, bytes]

theorem bytes_trim_le (s : List Char) : bytes (trim s) ≤ bytes s := by
  obtain ⟨b, b', -, -, heq⟩ := exists_trim s
  conv_rhs => rw [heq, bytes_append, bytes_append]
  omega

theorem bytes_body_le (s : List Char) : bytes (body s) ≤ bytes s := by
  refine Nat.le_trans ?_ (bytes_trim_le s)
  rcases trim_eq_body s with heq | heq
  · rw [heq]
  · rw [heq, ← List.singleton_append, List.append_assoc, bytes_append, bytes_append]
    omega

namespace Tree

/-- The bytes of the leaves of a tree and of its delimiters. -/
def written (t : Tree) : Nat :=
  (t.leaves.map (·.value.utf8ByteSize)).sum + (t.connectives.map (bytes ·.delimiter)).sum

theorem written_branch (c : Connective) (left right : Tree) :
    (branch c left right).written = left.written + bytes c.delimiter + right.written := by
  rw [written, leaves_branch, connectives_branch, List.map_append, List.map_cons, List.map_append,
    List.sum_append_nat, List.sum_cons, List.sum_append_nat, written, written]
  omega

/-- A tree takes no more bytes than its text has. -/
theorem written_le (s : List Char) : (ofChars s).written ≤ bytes s := by
  induction s using ofChars.induct with
  | case1 s o ho ihl ihr =>
      have hbody := bytes_body_le s
      rw [body_eq_append ho, bytes_append, bytes_append] at hbody
      rw [ofChars_some ho, written_branch]
      omega
  | case2 s ho =>
      have hbody := bytes_body_le s
      have htrim := bytes_trim_le (body s)
      rw [ofChars_none ho, ofCondition, written, leaves_leaf, connectives_leaf, List.map_singleton,
        value_ofText]
      exact Nat.le_trans htrim hbody

theorem count_or_add_count_and (cs : List Connective) :
    cs.count .or + cs.count .and = cs.length := by
  induction cs with
  | nil => rfl
  | cons c cs ih =>
      cases c with
      | and =>
          rw [List.count_cons_self, List.count_cons_of_ne (by decide), List.length_cons]
          omega
      | or =>
          rw [List.count_cons_self, List.count_cons_of_ne (by decide), List.length_cons]
          omega

theorem total_delimiters (cs : List Connective) :
    (cs.map (bytes ·.delimiter)).sum = 4 * cs.count .or + 5 * cs.count .and := by
  induction cs with
  | nil => rfl
  | cons c cs ih =>
      have hand : bytes Connective.and.delimiter = 5 := by decide
      have hor : bytes Connective.or.delimiter = 4 := by decide
      rw [List.map_cons, List.sum_cons, ih]
      cases c with
      | and =>
          rw [hand, List.count_cons_self, List.count_cons_of_ne (by decide)]
          omega
      | or =>
          rw [hor, List.count_cons_self, List.count_cons_of_ne (by decide)]
          omega

end Tree

/-! ## What every tree that is read looks like -/

namespace Tree

/-- The three parts of a condition are there, or none is. -/
theorem parts_ofText (text : String) :
    (∃ field comparison target, (Condition.ofText text).field = some field ∧
      (Condition.ofText text).comparison = some comparison ∧
      (Condition.ofText text).target = some target) ∨
    Condition.ofText text = .formless text := by
  rw [Condition.ofText]
  split
  · exact Or.inl ⟨_, _, _, rfl, rfl, rfl⟩
  · exact Or.inr rfl

theorem parse_shape (text : String) :
    let t := parse text
    (∀ c left right, branch c left right ∈ t.nodes → left ≠ empty ∧ right ≠ empty) ∧
    (∀ c ∈ t.leaves,
      (∀ ch, c.value.toList.head? = some ch → isBlank ch = false) ∧
      (∀ ch, c.value.toList.getLast? = some ch → isBlank ch = false) ∧
      operands? c.value.toList = none ∧ (∀ i k, ¬ SplitsAt c.value.toList i k) ∧
      c = Condition.ofText c.value ∧
      ((∃ field comparison target,
        c.field = some field ∧ c.comparison = some comparison ∧ c.target = some target) ∨
          c = .formless c.value)) ∧
    t.nodeCount + 1 = 2 * t.leaves.length ∧ t.depth ≤ t.leaves.length ∧
    (t.leaves.map (·.value.utf8ByteSize)).sum +
      (4 * t.connectives.count .or + 5 * t.connectives.count .and) ≤ text.utf8ByteSize ∧
    4 * (t.leaves.length - 1) ≤ text.utf8ByteSize := by
  intro t
  have hwhole : t.Whole := whole_parse text
  have hlength := hwhole.length_connectives (parse_ne_empty text)
  have hcount := nodeCount_eq t
  have hbytes : t.written ≤ text.utf8ByteSize := by
    have h := written_le text.toList
    rw [← parse_eq_ofChars, bytes, String.ofList_toList] at h
    exact h
  rw [written, total_delimiters] at hbytes
  have hconnectives := count_or_add_count_and t.connectives
  refine ⟨hwhole.branches, fun c hc => ?_, by omega, ?_, hbytes, by omega⟩
  · have hofText := hwhole.leaves c hc
    obtain ⟨s, -, ho, rfl⟩ := mem_leaves_parse.1 hc
    rw [value_ofText, String.toList_ofList]
    exact ⟨fun ch => isBlank_head_trim, fun ch => isBlank_getLast_trim, operands?_trim ho,
      operands?_none (operands?_trim ho), rfl, parts_ofText _⟩
  · rw [depth_eq_height]
    exact hwhole.height_le (parse_ne_empty text)

end Tree

end Criteria
