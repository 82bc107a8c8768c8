/-!
Blanks: the white space that separates the words of a condition and pads a rule's text. A text is
read as a list of characters. `trim` drops the blanks at both ends and `words` cuts a text at its
blanks, so neither ever yields a blank at an end.
-/

namespace Criteria.Text

/-- The characters with the Unicode property `White_Space`. -/
def isBlank (c : Char) : Bool :=
  let n := c.toNat
  (0x09 ≤ n && n ≤ 0x0D) || n == 0x20 || n == 0x85 || n == 0xA0 || n == 0x1680
    || (0x2000 ≤ n && n ≤ 0x200A) || n == 0x2028 || n == 0x2029 || n == 0x202F || n == 0x205F
    || n == 0x3000

def trimStart (s : List Char) : List Char :=
  s.dropWhile isBlank

/-- The text without the blanks it ends with. Only a text that ends in a blank is turned around. -/
def trimEnd (s : List Char) : List Char :=
  match s.getLast? with
  | none => []
  | some c => if isBlank c then (s.reverse.dropWhile isBlank).reverse else s

def trim (s : List Char) : List Char :=
  trimEnd (trimStart s)

/-- Puts one more character in front of a text cut into the word that is still open and the
finished words after it. -/
def consWord (c : Char) : List Char × List (List Char) → List Char × List (List Char)
  | ([], ws) => if isBlank c then ([], ws) else ([c], ws)
  | (w, ws) => if isBlank c then ([], w :: ws) else (c :: w, ws)

/-- The maximal runs of characters that are not blank, from left to right. -/
def words (s : List Char) : List (List Char) :=
  match s.foldr consWord ([], []) with
  | ([], ws) => ws
  | (w, ws) => w :: ws

theorem trimEnd_eq (s : List Char) : trimEnd s = (s.reverse.dropWhile isBlank).reverse := by
  unfold trimEnd
  cases h : s.getLast? with
  | none => simp [List.getLast?_eq_none_iff.1 h]
  | some c =>
    obtain ⟨t, rfl⟩ := List.getLast?_eq_some_iff.1 h
    by_cases hc : isBlank c <;> simp [hc]

theorem trimStart_length_le (s : List Char) : (trimStart s).length ≤ s.length :=
  (List.dropWhile_sublist isBlank).length_le

theorem trimEnd_length_le (s : List Char) : (trimEnd s).length ≤ s.length := by
  rw [trimEnd_eq, List.length_reverse]
  simpa using (List.dropWhile_sublist isBlank (l := s.reverse)).length_le

theorem trim_length_le (s : List Char) : (trim s).length ≤ s.length :=
  Nat.le_trans (trimEnd_length_le _) (trimStart_length_le _)

end Criteria.Text
