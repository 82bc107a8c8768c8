import Criteria.Connective
import Criteria.Text.Blank

/-!
Where a text of criteria splits. There is no precedence: the first connective that stands outside all
parentheses is the root, what is before it is the left operand and what is after it the right one.
One pair of parentheses around the whole text is dropped first, whether or not the two belong
together.
-/

namespace Criteria.Split

open Text

/-- The text without its first and last character if these are an opening and a closing parenthesis. -/
def stripOuter (s : List Char) : List Char :=
  match s with
  | '(' :: rest => if rest.getLast? = some ')' then rest.dropLast else s
  | _ => s

/-- What a text is split or read as. -/
def body (s : List Char) : List Char :=
  stripOuter (trim s)

/-- The connective that a text starts with, between single spaces, and what follows it. -/
def delimiter? : List Char → Option (Connective × List Char)
  | ' ' :: 'A' :: 'N' :: 'D' :: ' ' :: rest => some (.and, rest)
  | ' ' :: 'O' :: 'R' :: ' ' :: rest => some (.or, rest)
  | _ => none

/-- The two operands and the connective between them. -/
structure Operands where
  left : List Char
  connective : Connective
  right : List Char
  deriving DecidableEq, Repr

/-- Looks for the first connective at depth zero, `depth` parentheses being open; `before` is what has
been passed, in reverse order. -/
def scan (depth : Int) (before : List Char) : List Char → Option Operands
  | [] => none
  | c :: rest =>
    if c = '(' then scan (depth + 1) (c :: before) rest
    else if c = ')' then scan (depth - 1) (c :: before) rest
    else if depth = 0 then
      match delimiter? (c :: rest) with
      | some (connective, right) => some ⟨before.reverse, connective, right⟩
      | none => scan depth (c :: before) rest
    else scan depth (c :: before) rest

/-- Splits a body at its root connective; `none` if it is a single condition. -/
def operands? (s : List Char) : Option Operands :=
  scan 0 [] s

theorem stripOuter_length_le (s : List Char) : (stripOuter s).length ≤ s.length := by
  unfold stripOuter
  split
  · split
    · simp only [List.length_dropLast, List.length_cons]
      omega
    · exact Nat.le_refl _
  · exact Nat.le_refl _

theorem body_length_le (s : List Char) : (body s).length ≤ s.length :=
  Nat.le_trans (stripOuter_length_le _) (trim_length_le _)

theorem delimiter?_length {s right : List Char} {c : Connective}
    (h : delimiter? s = some (c, right)) : right.length + 4 ≤ s.length := by
  unfold delimiter? at h
  split at h
  · obtain ⟨-, rfl⟩ := Prod.mk.inj (Option.some.inj h)
    exact Nat.le_succ _
  · obtain ⟨-, rfl⟩ := Prod.mk.inj (Option.some.inj h)
    exact Nat.le_refl _
  · exact absurd h (by simp)

theorem scan_length {depth : Int} {before s : List Char} {o : Operands}
    (h : scan depth before s = some o) :
    o.left.length + o.right.length + 4 ≤ before.length + s.length := by
  induction s generalizing depth before with
  | nil => simp [scan] at h
  | cons c rest ih =>
    unfold scan at h
    split at h
    · have := ih h
      simp only [List.length_cons] at this ⊢
      omega
    · split at h
      · have := ih h
        simp only [List.length_cons] at this ⊢
        omega
      · split at h
        · split at h
          · next hd =>
            have := delimiter?_length hd
            simp only [Option.some.injEq] at h
            subst h
            simp only [List.length_reverse, List.length_cons] at this ⊢
            omega
          · have := ih h
            simp only [List.length_cons] at this ⊢
            omega
        · have := ih h
          simp only [List.length_cons] at this ⊢
          omega

/-- The operands are shorter than the text they come from, by at least the delimiter. -/
theorem operands?_length {s : List Char} {o : Operands} (h : operands? s = some o) :
    o.left.length + o.right.length + 4 ≤ s.length := by
  simpa using scan_length h

theorem operands?_body_length {s : List Char} {o : Operands} (h : operands? (body s) = some o) :
    o.left.length + o.right.length + 4 ≤ s.length :=
  Nat.le_trans (operands?_length h) (body_length_le s)

end Criteria.Split
