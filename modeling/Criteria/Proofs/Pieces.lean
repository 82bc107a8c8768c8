import Criteria.Proofs.Balance
import Criteria.Proofs.Parsing
import Criteria.Proofs.Walks

/-!
# The pieces of a text

To read a text is to read its pieces: the text itself and, of every piece that
splits, both operands (`Piece`). Each leaf of the tree is written by a piece that
does not split (`mem_conditions_ofChars`).

Three equations say what there is of a piece besides its own pieces: blanks around
it (`exists_trim`), then perhaps a pair of parentheses (`trim_eq_body`), and a
delimiter between the operands (`body_eq_append`). Whatever can be said of a tree
and its text as a sum over the pieces comes from these by induction.
-/

namespace Criteria

open Split Text

namespace Split

theorem scan_append {depth : Int} {before s : List Char} {o : Operands}
    (h : scan depth before s = some o) :
    before.reverse ++ s = o.left ++ o.connective.delimiter ++ o.right := by
  induction s generalizing depth before with
  | nil => cases h
  | cons c rest ih =>
      have hon : ∀ depth, scan depth (c :: before) rest = some o →
          before.reverse ++ c :: rest = o.left ++ o.connective.delimiter ++ o.right := by
        intro depth h
        rw [← ih h, List.reverse_cons, List.append_assoc, List.singleton_append]
      rw [scan] at h
      split at h
      · exact hon _ h
      · split at h
        · exact hon _ h
        · split at h
          · split at h
            · next hd =>
                cases h
                rw [delimiter?_eq_some.1 hd, List.append_assoc]
            · exact hon _ h
          · exact hon _ h

theorem body_eq_append {s : List Char} {o : Operands} (h : operands? (body s) = some o) :
    body s = o.left ++ o.connective.delimiter ++ o.right :=
  scan_append h

/-- Between a trimmed text and its body there is nothing, or one pair of
parentheses. -/
theorem trim_eq_body (s : List Char) :
    trim s = body s ∨ trim s = '(' :: body s ++ [')'] := by
  rw [body]
  generalize trim s = t
  unfold stripOuter
  split
  · next rest =>
      split
      · next hlast =>
          obtain ⟨m, rfl⟩ := List.getLast?_eq_some_iff.1 hlast
          rw [List.dropLast_concat]
          exact Or.inr rfl
      · exact Or.inl rfl
  · exact Or.inl rfl

/-- Trimming makes no new split. -/
theorem operands?_trim {s : List Char} (h : operands? s = none) : operands? (trim s) = none := by
  rw [operands?_eq_none_iff] at h ⊢
  intro i c hsplits
  obtain ⟨b, b', hb, -, heq⟩ := exists_trim s
  have hwhole := (splitsAt_append (nesting_blanks hb)).2 (hsplits.append_right b')
  rw [← List.append_assoc, ← heq] at hwhole
  exact h _ c hwhole

theorem nesting_wrapped (s : List Char) : nesting ('(' :: s ++ [')']) = nesting s := by
  rw [← List.singleton_append, List.append_assoc, nesting_append, nesting_append, nesting_open,
    nesting_close]
  omega

theorem nesting_body (s : List Char) : nesting (body s) = nesting s := by
  rw [← nesting_trim s]
  rcases trim_eq_body s with heq | heq
  · rw [heq]
  · rw [heq, nesting_wrapped]

theorem nesting_delimiter (c : Connective) : nesting c.delimiter = 0 := by
  cases c <;> decide

/-- What splits at a connective splits outside all parentheses. -/
theorem nesting_left {s : List Char} {o : Operands} (h : operands? s = some o) :
    nesting o.left = 0 := by
  obtain ⟨i, hfirst, hleft, -⟩ := operands?_some h
  rw [hleft]
  exact hfirst.splits.outside

theorem nesting_right {s : List Char} {o : Operands} (h : operands? (body s) = some o) :
    nesting o.right = nesting s := by
  rw [← nesting_body s, body_eq_append h, nesting_append, nesting_append, nesting_left h,
    nesting_delimiter]
  omega

end Split

namespace Tree

/-- The texts that are read on the way. -/
inductive Piece (text : List Char) : List Char → Prop where
  | whole : Piece text text
  | left {s : List Char} {o : Operands} (h : Piece text s) (ho : operands? (body s) = some o) :
      Piece text o.left
  | right {s : List Char} {o : Operands} (h : Piece text s) (ho : operands? (body s) = some o) :
      Piece text o.right

variable {text s : List Char}

theorem Piece.trans {s' : List Char} (h : Piece text s) (h' : Piece s s') : Piece text s' := by
  induction h' with
  | whole => exact h
  | left _ ho ih => exact .left ih ho
  | right _ ho ih => exact .right ih ho

theorem Awaits.piece {rest : List Task} {below : List Tree} (h : Awaits text s rest below) :
    Piece text s := by
  induction h with
  | whole => exact .whole
  | left _ ho ih => exact .left ih ho
  | right _ ho ih => exact .right ih ho

theorem Piece.awaits (h : Piece text s) : ∃ rest below, Awaits text s rest below := by
  induction h with
  | whole => exact ⟨[], [], .whole⟩
  | left _ ho ih =>
      obtain ⟨rest, below, h⟩ := ih
      exact ⟨_, _, .left h ho⟩
  | right _ ho ih =>
      obtain ⟨rest, below, h⟩ := ih
      exact ⟨_, _, .right h ho⟩

/-- The pieces are the texts that the loop of the parser comes to read. -/
theorem piece_iff_turns :
    Piece text s ↔ ∃ rest below, Turns ([.read text], []) (.read s :: rest, below) := by
  constructor
  · intro h
    obtain ⟨rest, below, h⟩ := h.awaits
    exact ⟨rest, below, h.turns⟩
  · rintro ⟨rest, below, h⟩
    exact (awaits_of_turns h).piece

theorem Piece.conditions_subset (h : Piece text s) :
    (ofChars s).conditions ⊆ (ofChars text).conditions := by
  induction h with
  | whole => exact List.Subset.refl _
  | left _ ho ih =>
      rw [ofChars_some ho, conditions] at ih
      exact List.Subset.trans (List.subset_append_left _ _) ih
  | right _ ho ih =>
      rw [ofChars_some ho, conditions] at ih
      exact List.Subset.trans (List.subset_append_right _ _) ih

/-- The leaves are the pieces that do not split. -/
theorem mem_conditions_ofChars {c : Condition} :
    c ∈ (ofChars text).conditions ↔
      ∃ s, Piece text s ∧ operands? (body s) = none ∧
        c = Condition.ofText (String.ofList (trim (body s))) := by
  constructor
  · intro h
    induction text using ofChars.induct with
    | case1 text o ho ihl ihr =>
        rw [ofChars_some ho, conditions, List.mem_append] at h
        rcases h with h | h
        · obtain ⟨s, hs, hleaf⟩ := ihl h
          exact ⟨s, (Piece.whole.left ho).trans hs, hleaf⟩
        · obtain ⟨s, hs, hleaf⟩ := ihr h
          exact ⟨s, (Piece.whole.right ho).trans hs, hleaf⟩
    | case2 text ho =>
        rw [ofChars_none ho, ofCondition, conditions, List.mem_singleton] at h
        exact ⟨text, .whole, ho, h⟩
  · rintro ⟨s, hs, ho, rfl⟩
    refine hs.conditions_subset ?_
    rw [ofChars_none ho, ofCondition, conditions]
    exact List.mem_singleton_self _

theorem mem_leaves_parse {text : String} {c : Condition} :
    c ∈ (parse text).leaves ↔
      ∃ s, Piece text.toList s ∧ operands? (body s) = none ∧
        c = Condition.ofText (String.ofList (trim (body s))) := by
  rw [leaves_eq_conditions, parse_eq_ofChars, mem_conditions_ofChars]

end Tree

end Criteria
