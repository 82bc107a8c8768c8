import Criteria.Settings.Toml.Node
import Criteria.Settings.Toml.Scalar
import Criteria.Settings.Toml.Token

/-!
The lines of a TOML text: headers, and keys with their values. A line ends where its last token ends
a line, so a value in brackets may go on for several. What is read from the front of some tokens comes
with the rest of them, which is shorter; that is why reading ends.
-/

namespace Criteria.Settings.Toml

open Text

inductive Line where
  /-- The header of a table. -/
  | table (key : Key)
  /-- The header of one of the tables that share it. -/
  | next (key : Key)
  | entry (key : Key) (v : Value)

/-- What the front of some tokens is read as, and the tokens after it. -/
abbrev Taken (α : Type) (s : List Token) :=
  Option (α × { rest : List Token // rest.length < s.length })

namespace Token

def isBlank : Token → Bool
  | blank _ => true
  | _ => false

def isSpace : Token → Bool
  | blank _ | newline => true
  | _ => false

/-- The characters of a part of a value without quotes; other tokens are no such part. -/
def piece? : Token → Option (List Char)
  | word s => some s
  | mark '.' => some ['.']
  | _ => none

def isPiece (t : Token) : Bool :=
  t.piece?.isSome

end Token

theorem length_lt_of_dropWhile {p : Token → Bool} {s rest : List Token} {t : Token}
    (h : s.dropWhile p = t :: rest) : rest.length < s.length := by
  have := (List.dropWhile_sublist p (l := s)).length_le
  rw [h, List.length_cons] at this
  omega

/-! ### Keys -/

def isBareChar (c : Char) : Bool :=
  c.isAlphanum || c == '_' || c == '-'

/-- One name of a key, between blanks. -/
def name? (s : List Token) : Option String :=
  match s.filter (!·.isBlank) with
  | [.word w] => if w.all isBareChar then some (String.ofList w) else none
  | [.text t false] => some (String.ofList t)
  | _ => none

def key? (s : List Token) : Option Key := do
  let names ← (s.splitOn (.mark '.')).mapM name?
  return ⟨names.dropLast, ← names.getLast?⟩

/-! ### Values -/

/-- A value without quotes. A date and a time may have one blank between them. -/
def takeScalar? : (s : List Token) → Taken Value s
  | .word w :: s =>
    let word (w : List Char) (s : List Token) : List Char :=
      w ++ ((s.takeWhile Token.isPiece).filterMap Token.piece?).flatten
    match h : s.dropWhile Token.isPiece with
    | .blank ' ' :: .word t :: rest =>
      if isDate (word w s) then
        (scalar? (word w s ++ ' ' :: word t rest)).map fun v =>
          (v, ⟨rest.dropWhile Token.isPiece, by
            have := length_lt_of_dropWhile h
            have := (List.dropWhile_sublist Token.isPiece (l := rest)).length_le
            simp only [List.length_cons] at *
            omega⟩)
      else
        (scalar? (word w s)).map fun v =>
          (v, ⟨.blank ' ' :: .word t :: rest, by
            have := (List.dropWhile_sublist Token.isPiece (l := s)).length_le
            rw [h] at this
            simp only [List.length_cons] at *
            omega⟩)
    | rest =>
      (scalar? (word w s)).map fun v =>
        (v, ⟨rest, by
          have := (List.dropWhile_sublist Token.isPiece (l := s)).length_le
          rw [h] at this
          simp only [List.length_cons]
          omega⟩)
  | _ => none

/-- Items with commas between them, up to a closing bracket. There may be a comma after the last one,
and lines may end anywhere between them. -/
def takeItems? {α : Type} (close : Char) (item? : (s : List Token) → Taken α s) (s : List Token) :
    Taken (List α) s :=
  match h : s.dropWhile Token.isSpace with
  | [] => none
  | t :: s' =>
    if t = .mark close then some ([], ⟨s', length_lt_of_dropWhile h⟩)
    else
      match item? (t :: s') with
      | none => none
      | some (a, ⟨r, hr⟩) =>
        have hr : r.length < s.length := by
          have := length_lt_of_dropWhile h
          simp only [List.length_cons] at hr
          omega
        match h' : r.dropWhile Token.isSpace with
        | [] => none
        | t :: r' =>
          have hr' := length_lt_of_dropWhile h'
          if t = .mark close then some ([a], ⟨r', by omega⟩)
          else if t = .mark ',' then
            (takeItems? close item? r').map fun (items, ⟨rest, hrest⟩) =>
              (a :: items, ⟨rest, by omega⟩)
          else none
termination_by s.length

def takePair? (value? : (s : List Token) → Taken Value s) (s : List Token) :
    Taken (Key × Value) s :=
  match h : s.dropWhile (· != .mark '=') with
  | [] => none
  | _ :: r => do
    let key ← key? (s.takeWhile (· != .mark '='))
    let (v, ⟨rest, hrest⟩) ← value? (r.dropWhile Token.isBlank)
    some ((key, v), ⟨rest, by
      have := length_lt_of_dropWhile h
      have := (List.dropWhile_sublist Token.isBlank (l := r)).length_le
      omega⟩)

/-- A value. Brackets may be nested up to some depth. -/
def takeValue? : (depth : Nat) → (s : List Token) → Taken Value s
  | _, .text t _ :: s => some (.text (String.ofList t), ⟨s, by simp⟩)
  | depth + 1, .mark '[' :: s =>
    (takeItems? ']' (takeValue? depth) s).map fun (vs, ⟨rest, h⟩) =>
      (.array vs, ⟨rest, by simp only [List.length_cons]; omega⟩)
  | depth + 1, .mark '\x7b' :: s => do
    let (entries, ⟨rest, h⟩) ← takeItems? '\x7d' (takePair? (takeValue? depth)) s
    let table ← entries.foldlM (fun n (k, v) => n.define? k v) Node.empty
    some (table.toValue, ⟨rest, by simp only [List.length_cons]; omega⟩)
  | _, s => takeScalar? s

def nestingLimit : Nat := 80

/-! ### Lines -/

def takeLine? : (s : List Token) → Taken Line s
  | .mark '[' :: .mark '[' :: s =>
    match h : s.dropWhile (· != .mark ']') with
    | .mark ']' :: .mark ']' :: rest =>
      (key? (s.takeWhile (· != .mark ']'))).map fun key =>
        (.next key, ⟨rest, by
          have := length_lt_of_dropWhile h
          simp only [List.length_cons] at *
          omega⟩)
    | _ => none
  | .mark '[' :: s =>
    match h : s.dropWhile (· != .mark ']') with
    | .mark ']' :: rest =>
      (key? (s.takeWhile (· != .mark ']'))).map fun key =>
        (.table key, ⟨rest, by
          have := length_lt_of_dropWhile h
          simp only [List.length_cons]
          omega⟩)
    | _ => none
  | s => (takePair? (takeValue? nestingLimit) s).map fun ((key, v), rest) => (.entry key v, rest)

def lines? (s : List Token) : Option (List Line) :=
  match h : s.dropWhile Token.isSpace with
  | [] => some []
  | t :: s' =>
    match takeLine? (t :: s') with
    | none => none
    | some (line, ⟨r, hr⟩) =>
      have : r.length < s.length := by
        have := length_lt_of_dropWhile h
        simp only [List.length_cons] at hr
        omega
      match r.dropWhile Token.isBlank with
      | [] => some [line]
      | .newline :: _ => (lines? r).map (line :: ·)
      | _ => none
termination_by s.length

end Criteria.Settings.Toml
