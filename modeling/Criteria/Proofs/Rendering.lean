import Criteria.Json.Printer
import Criteria.Rule.Json
import Mathlib.Data.List.Basic

/-!
# What can be seen in the JSON text of a rule

`Json.write` puts the text of a value in front of any other text, so the text of
a value is a part of the text it stands in (`Json.write_append`). Two things
follow that a client can rely on without reading JSON in full: a list is written
as the texts of its items with commas between them (`Json.render_array`), and the
text of a rule starts with its number (`Rule.shownId?_render`).
-/

namespace Criteria

/-! ## Decimal digits -/

namespace Text

theorem digitValue?_of_isDigit {c : Char} (h : c.isDigit = true) :
    digitValue? c = some (c.toNat - '0'.toNat) := by
  rw [Char.isDigit, Bool.and_eq_true, decide_eq_true_iff, decide_eq_true_iff] at h
  exact if_pos h

theorem foldl_pushDigit {s : List Char} (h : ∀ c ∈ s, c.isDigit = true) (n : Nat) :
    s.foldl pushDigit (some n) = some (Nat.ofDigitChars 10 s n) := by
  induction s generalizing n with
  | nil => rfl
  | cons c rest ih =>
      obtain ⟨hc, hrest⟩ := List.forall_mem_cons.1 h
      have hpush : pushDigit (some n) c = some (10 * n + (c.toNat - '0'.toNat)) := by
        rw [pushDigit, digitValue?_of_isDigit hc]
        rfl
      rw [List.foldl_cons, hpush]
      exact ih hrest _

theorem readDigits?_toDigits (n : Nat) : readDigits? (Nat.toDigits 10 n) = some n := by
  have hne : (Nat.toDigits 10 n).isEmpty = false := by
    rw [List.isEmpty_eq_false_iff]
    exact Nat.toDigits_ne_nil
  rw [readDigits?, hne, if_neg Bool.false_ne_true,
    foldl_pushDigit (fun c => Nat.isDigit_of_mem_toDigits (by decide) (by decide)),
    Nat.ofDigitChars_toDigits (by decide) (by decide)]

/-- The decimal text of an integer. -/
def decimal (n : Int) : List Char :=
  (if n < 0 then ['-'] else []) ++ Nat.toDigits 10 n.natAbs

theorem ne_comma_of_mem_decimal {n : Int} {c : Char} (h : c ∈ decimal n) : c ≠ ',' := by
  rintro rfl
  rcases List.mem_append.1 h with h | h
  · split at h <;> simp at h
  · exact absurd (Nat.isDigit_of_mem_toDigits (by decide) (by decide) h) (by decide)

theorem takeSign_toDigits (n : Nat) : takeSign (Nat.toDigits 10 n) = (false, Nat.toDigits 10 n) := by
  have hdigit : ∀ c ∈ Nat.toDigits 10 n, c.isDigit = true := fun c =>
    Nat.isDigit_of_mem_toDigits (by decide) (by decide)
  unfold takeSign
  split
  · next s h => exact absurd (hdigit '-' (h ▸ List.mem_cons_self)) (by decide)
  · next s h => exact absurd (hdigit '+' (h ▸ List.mem_cons_self)) (by decide)
  · rfl

theorem readInt?_decimal (n : Int) : readInt? (decimal n) = some n := by
  rw [decimal]
  by_cases hn : n < 0
  · have hneg : -(n.natAbs : Int) = n := by omega
    rw [if_pos hn, readInt?]
    simp only [List.cons_append, List.nil_append, takeSign, readDigits?_toDigits]
    exact congrArg some hneg
  · have hpos : (n.natAbs : Int) = n := by omega
    rw [if_neg hn, List.nil_append, readInt?, takeSign_toDigits]
    simp only [readDigits?_toDigits]
    exact congrArg some hpos

theorem readInt64?_decimal (id : Int64) : readInt64? (decimal id.toInt) = some id := by
  rw [readInt64?, readInt?_decimal, Option.bind_some, toInt64?_toInt]

end Text

/-! ## The text of a value inside another text -/

namespace Json

theorem writeText_append (s : String) (rest more : List Char) :
    writeText s (rest ++ more) = writeText s rest ++ more := by
  rw [writeText, writeText, List.foldr_append_eq_append, List.foldr_append_eq_append]
  simp

theorem writeItems_cons_cons (j j' : Json) (items : List Json) (rest : List Char) :
    writeItems (j :: j' :: items) rest = write j (',' :: writeItems (j' :: items) rest) := by
  rw [writeItems]
  exact List.cons_ne_nil _ _

theorem writeMembers_cons_cons (k : String) (j : Json) (member : String × Json)
    (members : List (String × Json)) (rest : List Char) :
    writeMembers ((k, j) :: member :: members) rest =
      writeText k (':' :: write j (',' :: writeMembers (member :: members) rest)) := by
  rw [writeMembers]
  exact List.cons_ne_nil _ _

mutual

theorem write_append (j : Json) (rest more : List Char) :
    write j (rest ++ more) = write j rest ++ more := by
  match j with
  | .null | .bool _ | .number _ => simp [write]
  | .text s => exact writeText_append s rest more
  | .array items =>
      rw [write, write, ← List.cons_append, writeItems_append]
      rfl
  | .object members =>
      rw [write, write, ← List.cons_append, writeMembers_append]
      rfl

theorem writeItems_append (items : List Json) (rest more : List Char) :
    writeItems items (rest ++ more) = writeItems items rest ++ more := by
  match items with
  | [] => rfl
  | [j] => exact write_append j rest more
  | j :: j' :: items =>
      rw [writeItems_cons_cons, writeItems_cons_cons, writeItems_append, ← List.cons_append,
        write_append]

theorem writeMembers_append (members : List (String × Json)) (rest more : List Char) :
    writeMembers members (rest ++ more) = writeMembers members rest ++ more := by
  match members with
  | [] => rfl
  | [(k, j)] =>
      rw [writeMembers, writeMembers, write_append, ← List.cons_append, writeText_append]
  | (k, j) :: member :: members =>
      rw [writeMembers_cons_cons, writeMembers_cons_cons, writeMembers_append, ← List.cons_append,
        write_append, ← List.cons_append, writeText_append]

end

theorem write_eq (j : Json) (rest : List Char) : write j rest = j.render.toList ++ rest := by
  rw [render, String.toList_ofList, ← write_append, List.nil_append]

theorem write_ofInt64 (id : Int64) (rest : List Char) :
    write (ofInt64 id) rest = Text.decimal id.toInt ++ rest := by
  rw [ofInt64, ofInt, write, Number.Numeral.chars, Text.decimal]
  simp

theorem writeItems_eq (items : List Json) (rest : List Char) :
    writeItems items rest = [','].intercalate (items.map (·.render.toList)) ++ rest := by
  induction items with
  | nil => rfl
  | cons j items ih =>
      cases items with
      | nil =>
          rw [writeItems, write_eq]
          simp
      | cons j' items =>
          rw [writeItems_cons_cons, write_eq, ih]
          simp [List.intercalate_cons_cons]

theorem render_array (items : List Json) :
    (array items).render = "[" ++ ",".intercalate (items.map render) ++ "]" := by
  rw [← String.toList_inj, render, String.toList_ofList, write, writeItems_eq]
  simp [String.toList_intercalate, Function.comp_def]

end Json

/-! ## The number of a rule -/

namespace Rule

/-- The number that the text of a rule starts with. -/
def shownId? (text : String) : Option Int64 :=
  ("\x7b\"id\":".toList.isPrefixOf? text.toList).bind fun rest =>
    Text.readInt64? (rest.takeWhile (· != ','))

theorem shownId?_render (r : Rule) : shownId? r.toJson.render = some r.id := by
  obtain ⟨more, htext⟩ : ∃ more, r.toJson.render.toList =
      "\x7b\"id\":".toList ++ (Text.decimal r.id.toInt ++ ',' :: more) := by
    rw [Json.render, String.toList_ofList, toJson, Json.write, Json.writeMembers_cons_cons,
      Json.write_ofInt64]
    exact ⟨_, rfl⟩
  have hdecimal : (Text.decimal r.id.toInt ++ ',' :: more).takeWhile (· != ',') =
      Text.decimal r.id.toInt := by
    rw [List.takeWhile_append_of_pos fun c hc => bne_iff_ne.2 (Text.ne_comma_of_mem_decimal hc)]
    simp
  rw [shownId?, List.isPrefixOf?_eq_some_iff_append_eq.2 htext.symm, Option.bind_some, hdecimal,
    Text.readInt64?_decimal]

end Rule

end Criteria
