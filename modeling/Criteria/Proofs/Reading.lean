import Criteria.Json.Reader
import Criteria.Proofs.Rendering

/-!
# JSON text is read back

A reader sees a text one character at a time, and what is still to come of a value
that it is in the middle of is all on its stack. So a value that is written in front
of another text is read as if it had been put on the stack at once, and reading goes
on behind it (`Reader.feedAll_write`). The weak spot is a number, of which nothing
but the next character says that it has come to its end; hence the text behind a
value must start with one of those that may stand there (`Delimits`).
-/

namespace Criteria

mutual

/-- What a reader makes of a value. -/
def Draft.ofJson : Json → Draft
  | .null => .null
  | .bool b => .bool b
  | .number n => .number n
  | .text s => .text (some s)
  | .array items => .array (ofItems items) true
  | .object members => .object (ofMembers members) true

def Draft.ofItems : List Json → List Draft
  | [] => []
  | j :: items => ofJson j :: ofItems items

def Draft.ofMembers : List (String × Json) → List (Option String × Draft)
  | [] => []
  | (k, j) :: members => (some k, ofJson j) :: ofMembers members

end

/-- Values in which every number is an integer of 64 bits. -/
inductive Json.Integral : Json → Prop where
  | null : Integral .null
  | bool (b : Bool) : Integral (.bool b)
  | number (i : Int64) : Integral (.ofInt64 i)
  | text (s : String) : Integral (.text s)
  | array {items : List Json} (h : ∀ j ∈ items, Integral j) : Integral (.array items)
  | object {members : List (String × Json)} (h : ∀ m ∈ members, Integral m.2) :
      Integral (.object members)

namespace Text

theorem hexValue?_hexDigit : ∀ n < 16, hexValue? (hexDigit n) = some n := by
  decide

theorem exists_toDigits (n : Nat) :
    ∃ d ds, Nat.toDigits 10 n = d :: ds ∧ (d = '0' → ds = []) := by
  have hfirst : ∃ d ds, Nat.toDigits 10 n = d :: ds ∧ (d = '0' → n = 0) := by
    induction n using Nat.strongRecOn with
    | ind n ih =>
        rw [Nat.toDigits_eq_if (by decide)]
        split
        · next hlt => exact ⟨_, [], rfl, (by decide : ∀ n < 10, n.digitChar = '0' → n = 0) n hlt⟩
        · next hge =>
            obtain ⟨d, ds, hdigits, hzero⟩ := ih (n / 10) (by omega)
            rw [hdigits]
            exact ⟨d, ds ++ [(n % 10).digitChar], rfl, fun hd => by have := hzero hd; omega⟩
  obtain ⟨d, ds, hdigits, hzero⟩ := hfirst
  refine ⟨d, ds, hdigits, fun hd => ?_⟩
  rw [hzero hd, Nat.toDigits_zero] at hdigits
  exact (List.cons.inj hdigits).2.symm

end Text

namespace Reader

/-- A text that may stand behind a value. -/
def Delimits (s : List Char) : Prop :=
  ∃ c rest, s = c :: rest ∧ (c = ',' ∨ c = ']' ∨ c = '\x7d' ∨ c = ' ')

theorem feedAll_cons (r : Reader) (c : Char) (s : List Char) :
    r.feedAll (c :: s) = (r.feed c).feedAll s :=
  rfl

theorem feedAll_append (r : Reader) (s t : List Char) :
    r.feedAll (s ++ t) = (r.feedAll s).feedAll t :=
  List.foldl_append

/-! ## Strings -/

section Strings

variable {stack : List Frame} {isKey : Bool}

/-- A character that does not close the string moves on what is known of it. -/
theorem feed_escape {done done' : Option (List Char)} {escape escape' : Escape} {c : Char}
    (hopen : ¬ (c = '"' ∧ escape.closes = true))
    (h : feedEscape done escape c = some (done', escape')) :
    (⟨stack, .text isKey done escape⟩ : Reader).feed c = ⟨stack, .text isKey done' escape'⟩ := by
  rw [feed]
  simp only [if_neg hopen, h]

theorem feedEscape_code {done : List Char} {left value n : Nat} (hn : n < 16) :
    feedEscape (some done) (.code none left value) (Text.hexDigit n) =
      some (if left ≤ 1 then finishCode (some done) none (16 * value + n)
        else (some done, .code none (left - 1) (16 * value + n))) := by
  rw [feedEscape, Text.hexValue?_hexDigit n hn, Option.map_some]

theorem finishCode_of_lt {done : List Char} {c : Char} (h : c.toNat < 0x20) :
    finishCode (some done) none c.toNat = (some (c :: done), .none) := by
  have hhigh : isHighSurrogate c.toNat = false := by
    rw [isHighSurrogate, Bool.and_eq_false_iff, decide_eq_false_iff_not]
    omega
  have hlow : isLowSurrogate c.toNat = false := by
    rw [isLowSurrogate, Bool.and_eq_false_iff, decide_eq_false_iff_not]
    omega
  simp only [finishCode, hhigh, hlow, Option.map_some, Char.ofNat_toNat]
  rfl

theorem feedAll_escapeCode {done : List Char} {c : Char} (h : c.toNat < 0x20) :
    (⟨stack, .text isKey (some done) .none⟩ : Reader).feedAll (Json.escapeCode c) =
      ⟨stack, .text isKey (some (c :: done)) .none⟩ := by
  have hstart : ∀ s : List Char,
      (⟨stack, .text isKey (some done) .none⟩ : Reader).feedAll
          ('\\' :: 'u' :: '0' :: '0' :: s) =
        (⟨stack, .text isKey (some done) (.code none 2 0)⟩ : Reader).feedAll s := fun _ => rfl
  have hopen : ∀ d left value,
      ¬ (d = '"' ∧ (Escape.code none left value).closes = true) :=
    fun _ _ _ hclosed => Bool.false_ne_true hclosed.2
  have hunit : 16 * (16 * 0 + c.toNat / 16) + c.toNat % 16 = c.toNat := by omega
  have hfirst : feedEscape (some done) (.code none 2 0) (Text.hexDigit (c.toNat / 16)) =
      some (some done, .code none 1 (16 * 0 + c.toNat / 16)) := by
    rw [feedEscape_code (by omega), if_neg (by omega)]
  have hlast : feedEscape (some done) (.code none 1 (16 * 0 + c.toNat / 16))
      (Text.hexDigit (c.toNat % 16)) = some (some (c :: done), .none) := by
    rw [feedEscape_code (by omega), if_pos (Nat.le_refl 1), hunit, finishCode_of_lt h]
  rw [Json.escapeCode, hstart, feedAll_cons, feed_escape (hopen _ _ _) hfirst,
    feedAll_cons, feed_escape (hopen _ _ _) hlast]
  rfl

theorem feedAll_escapeChar (done : List Char) (c : Char) :
    (⟨stack, .text isKey (some done) .none⟩ : Reader).feedAll (Json.escapeChar c) =
      ⟨stack, .text isKey (some (c :: done)) .none⟩ := by
  rw [Json.escapeChar]
  by_cases hquote : c = '"'
  · rw [if_pos hquote, hquote]
    rfl
  by_cases hbackslash : c = '\\'
  · rw [if_neg hquote, if_pos hbackslash, hbackslash]
    rfl
  rw [if_neg hquote, if_neg hbackslash]
  split
  · next h => rw [h]; rfl
  split
  · next h => rw [h]; rfl
  split
  · next h => rw [h]; rfl
  split
  · next h => rw [h]; rfl
  split
  · next h => rw [h]; rfl
  split
  · next h => exact feedAll_escapeCode h
  · next h =>
      refine feed_escape (fun hclosed => hquote hclosed.1) ?_
      rw [feedEscape, feedPlain, if_neg hbackslash, if_neg h]
      rfl

theorem feedAll_chars (s done rest : List Char) :
    (⟨stack, .text isKey (some done) .none⟩ : Reader).feedAll
        (s.foldr (fun c r => Json.escapeChar c ++ r) rest) =
      (⟨stack, .text isKey (some (s.reverse ++ done)) .none⟩ : Reader).feedAll rest := by
  induction s generalizing done with
  | nil => rfl
  | cons c s ih =>
      rw [List.foldr_cons, feedAll_append, feedAll_escapeChar, ih, List.reverse_cons,
        List.append_assoc]
      rfl

theorem feedAll_text (s : String) (rest : List Char) :
    (⟨stack, .text isKey (some []) .none⟩ : Reader).feedAll
        (s.toList.foldr (fun c r => Json.escapeChar c ++ r) ('"' :: rest)) =
      (if isKey then finishKey stack (some s) else finishValue stack (.text (some s))).feedAll
        rest := by
  have htext : finishText (some (s.toList.reverse ++ [])) .none = some s := by
    rw [finishText, List.append_nil, Option.map_some, List.reverse_reverse, String.ofList_toList]
  have hquote : ∀ done, (⟨stack, .text isKey done .none⟩ : Reader).feed '"' =
      if isKey then finishKey stack (finishText done .none)
      else finishValue stack (.text (finishText done .none)) := fun _ => rfl
  rw [feedAll_chars, feedAll_cons, hquote, htext]

/-- A key is read, and the colon behind it. -/
theorem feedAll_key {done : List (Option String × Draft)} {key : Option String} (closable : Bool)
    (k : String) (rest : List Char) :
    (⟨.object done key :: stack, .key closable⟩ : Reader).feedAll (Json.writeText k (':' :: rest)) =
      (⟨.object done (some k) :: stack, .value false⟩ : Reader).feedAll rest := by
  rw [Json.writeText, feedAll_cons]
  exact feedAll_text k (':' :: rest)

end Strings

/-! ## Numbers -/

section Numbers

variable {stack : List Frame} {negative : Bool}

/-- What a number is in after its first digit. -/
def Digits.first (d : Char) : Digits :=
  if d = '0' then .zero else .whole

theorem feed_value_digit {d : Char} (hd : d.isDigit = true) (closable : Bool) :
    (⟨stack, .value closable⟩ : Reader).feed d =
      ⟨stack, .number (.first d) ⟨false, [d], [], none⟩⟩ := by
  have hspace : isSpace d = false := by
    rw [isSpace]
    by_contra h
    simp only [Bool.not_eq_false, Bool.or_eq_true, beq_iff_eq] at h
    rcases h with ((rfl | rfl) | rfl) | rfl <;> exact absurd hd (by decide)
  have hclose : ¬ (closable = true ∧ d = ']') := by
    rintro ⟨-, rfl⟩
    exact absurd hd (by decide)
  have hopen : openValue stack d = some ⟨stack, .number (.first d) ⟨false, [d], [], none⟩⟩ := by
    unfold openValue
    split
    all_goals first
      | exact absurd hd (by decide)
      | rw [if_pos hd]; rfl
  show feedBetween _ d = _
  rw [feedBetween, if_neg (by rw [hspace]; decide)]
  simp only [if_neg hclose, hopen, Option.getD_some]

theorem feed_sign_digit {d : Char} (hd : d.isDigit = true) (negative : Bool) :
    (⟨stack, .number .sign ⟨negative, [], [], none⟩⟩ : Reader).feed d =
      ⟨stack, .number (.first d) ⟨negative, [d], [], none⟩⟩ := by
  rw [feed]
  simp only [feedNumber, if_pos hd]
  rfl

theorem feedAll_whole {s : List Char} (h : ∀ c ∈ s, c.isDigit = true) (read : List Char) :
    (⟨stack, .number .whole ⟨negative, read, [], none⟩⟩ : Reader).feedAll s =
      ⟨stack, .number .whole ⟨negative, s.reverse ++ read, [], none⟩⟩ := by
  induction s generalizing read with
  | nil => rfl
  | cons c s ih =>
      obtain ⟨hc, hs⟩ := List.forall_mem_cons.1 h
      have hfeed : (⟨stack, .number .whole ⟨negative, read, [], none⟩⟩ : Reader).feed c =
          ⟨stack, .number .whole ⟨negative, c :: read, [], none⟩⟩ := by
        rw [feed]
        simp [feedNumber, hc]
      rw [feedAll_cons, hfeed, ih hs, List.reverse_cons, List.append_assoc]
      rfl

theorem feed_finishValue (d : Draft) (c : Char) :
    (finishValue stack d).feed c = feedBetween (finishValue stack d) c := by
  rcases stack with _ | ⟨_ | _, _⟩ <;> rfl

theorem Delimits.feedAll_number {s : List Char} (h : Delimits s) (d : Char) (n : Number.Numeral) :
    (⟨stack, .number (.first d) n⟩ : Reader).feedAll s =
      (finishValue stack (.number (inOrder n))).feedAll s := by
  obtain ⟨c, rest, rfl, hc⟩ := h
  rw [feedAll_cons, feedAll_cons, feed_finishValue, Digits.first]
  congr 1
  split
  · rcases hc with rfl | rfl | rfl | rfl <;> rfl
  · rcases hc with rfl | rfl | rfl | rfl <;> rfl

/-- The digits of a number are read, wherever its first one has been taken for
what it is. -/
theorem feedAll_toDigits {r : Reader} (n : Nat) {s : List Char} (hs : Delimits s)
    (hfirst : ∀ d, d.isDigit = true →
      r.feed d = ⟨stack, .number (.first d) ⟨negative, [d], [], none⟩⟩) :
    r.feedAll (Nat.toDigits 10 n ++ s) =
      (finishValue stack (.number ⟨negative, Nat.toDigits 10 n, [], none⟩)).feedAll s := by
  have hdigits : ∀ c ∈ Nat.toDigits 10 n, c.isDigit = true := fun c =>
    Nat.isDigit_of_mem_toDigits (by decide) (by decide)
  obtain ⟨d, ds, hn, hzero⟩ := Text.exists_toDigits n
  rw [hn] at hdigits ⊢
  obtain ⟨hd, hds⟩ := List.forall_mem_cons.1 hdigits
  have hrest : (⟨stack, .number (.first d) ⟨negative, [d], [], none⟩⟩ : Reader).feedAll ds =
      ⟨stack, .number (.first d) ⟨negative, (d :: ds).reverse, [], none⟩⟩ := by
    by_cases h : d = '0'
    · rw [hzero h]
      rfl
    · rw [Digits.first, if_neg h, feedAll_whole hds, List.reverse_cons]
  rw [List.cons_append, feedAll_cons, hfirst d hd, feedAll_append, hrest, hs.feedAll_number,
    inOrder]
  simp only [List.reverse_reverse]
  rfl

theorem feedAll_decimal (i : Int64) (closable : Bool) {s : List Char} (hs : Delimits s) :
    (⟨stack, .value closable⟩ : Reader).feedAll (Json.write (.ofInt64 i) s) =
      (finishValue stack (.ofJson (.ofInt64 i))).feedAll s := by
  rw [Json.write_ofInt64, Text.decimal, Json.ofInt64, Json.ofInt, Draft.ofJson]
  by_cases h : i.toInt < 0
  · have hminus : (⟨stack, .value closable⟩ : Reader).feed '-' =
        ⟨stack, .number .sign ⟨true, [], [], none⟩⟩ := by
      cases closable <;> rfl
    rw [if_pos h, decide_eq_true h, List.append_assoc, List.singleton_append, feedAll_cons, hminus]
    exact feedAll_toDigits _ hs fun d hd => feed_sign_digit hd true
  · rw [if_neg h, decide_eq_false h, List.nil_append]
    exact feedAll_toDigits _ hs fun d hd => feed_value_digit hd closable

end Numbers

/-! ## Values -/

section Values

variable {stack : List Frame}

theorem delimits_cons {c : Char} (h : c = ',' ∨ c = ']' ∨ c = '\x7d' ∨ c = ' ') (s : List Char) :
    Delimits (c :: s) :=
  ⟨c, s, rfl, h⟩

/-- What is read of a value in front of a text. -/
def Reads (j : Json) : Prop :=
  ∀ (stack : List Frame) (closable : Bool) (s : List Char), Delimits s →
    (⟨stack, .value closable⟩ : Reader).feedAll (Json.write j s) =
      (finishValue stack (.ofJson j)).feedAll s

theorem feedAll_items {items : List Json} (h : ∀ j ∈ items, Reads j) (hne : items ≠ [])
    (done : List Draft) (closable : Bool) (s : List Char) :
    (⟨.array done :: stack, .value closable⟩ : Reader).feedAll (Json.writeItems items (']' :: s)) =
      (finishValue stack (.array (done.reverse ++ Draft.ofItems items) true)).feedAll s := by
  induction items generalizing done closable with
  | nil => exact absurd rfl hne
  | cons j items ih =>
      obtain ⟨hj, hitems⟩ := List.forall_mem_cons.1 h
      cases items with
      | nil =>
          rw [Json.writeItems, hj _ _ _ (delimits_cons (by decide) s), Draft.ofItems, Draft.ofItems]
          show (finishValue stack (.array (.ofJson j :: done).reverse true)).feedAll s = _
          rw [List.reverse_cons]
      | cons j' items =>
          rw [Json.writeItems_cons_cons, hj _ _ _ (delimits_cons (by decide) _), Draft.ofItems]
          show (⟨.array (.ofJson j :: done) :: stack, .value false⟩ : Reader).feedAll _ = _
          rw [ih hitems (List.cons_ne_nil _ _), List.reverse_cons, List.append_assoc]
          rfl

theorem feedAll_members {members : List (String × Json)} (h : ∀ m ∈ members, Reads m.2)
    (hne : members ≠ []) (done : List (Option String × Draft)) (key : Option String)
    (closable : Bool) (s : List Char) :
    (⟨.object done key :: stack, .key closable⟩ : Reader).feedAll
        (Json.writeMembers members ('\x7d' :: s)) =
      (finishValue stack (.object (done.reverse ++ Draft.ofMembers members) true)).feedAll s := by
  induction members generalizing done key closable with
  | nil => exact absurd rfl hne
  | cons member members ih =>
      obtain ⟨k, j⟩ := member
      obtain ⟨hj, hmembers⟩ := List.forall_mem_cons.1 h
      cases members with
      | nil =>
          rw [Json.writeMembers, feedAll_key, hj _ _ _ (delimits_cons (by decide) s),
            Draft.ofMembers, Draft.ofMembers]
          show (finishValue stack
            (.object ((some k, .ofJson j) :: done).reverse true)).feedAll s = _
          rw [List.reverse_cons]
      | cons member members =>
          rw [Json.writeMembers_cons_cons, feedAll_key, hj _ _ _ (delimits_cons (by decide) _),
            Draft.ofMembers]
          show (⟨.object ((some k, .ofJson j) :: done) (some k) :: stack, .key false⟩ :
            Reader).feedAll _ = _
          rw [ih hmembers (List.cons_ne_nil _ _), List.reverse_cons, List.append_assoc]
          rfl

/-- A value is read as it was written, and reading goes on behind it. -/
theorem feedAll_write {j : Json} (h : j.Integral) : Reads j := by
  induction h with
  | null =>
      intro stack closable s _
      cases closable <;> rfl
  | bool b =>
      intro stack closable s _
      cases b <;> cases closable <;> rfl
  | number i => exact fun stack closable s hs => feedAll_decimal i closable hs
  | text t =>
      intro stack closable s _
      have hquote : (⟨stack, .value closable⟩ : Reader).feed '"' =
          ⟨stack, .text false (some []) .none⟩ := by
        cases closable <;> rfl
      rw [Json.write, Json.writeText, feedAll_cons, hquote, feedAll_text]
      rfl
  | @array items _ ih =>
      intro stack closable s _
      have hbracket : (⟨stack, .value closable⟩ : Reader).feed '[' =
          ⟨.array [] :: stack, .value true⟩ := by
        cases closable <;> rfl
      rw [Json.write, feedAll_cons, hbracket]
      cases items with
      | nil => rfl
      | cons j items => exact feedAll_items ih (List.cons_ne_nil _ _) [] true s
  | @object members _ ih =>
      intro stack closable s _
      have hbrace : (⟨stack, .value closable⟩ : Reader).feed '\x7b' =
          ⟨.object [] none :: stack, .key true⟩ := by
        cases closable <;> rfl
      rw [Json.write, feedAll_cons, hbrace]
      cases members with
      | nil => rfl
      | cons m members => exact feedAll_members ih (List.cons_ne_nil _ _) [] none true s

end Values

end Reader

theorem Document.ofText_render {j : Json} (h : j.Integral) :
    Document.ofText j.render = ⟨.ofJson j, true⟩ := by
  have hread : Reader.start.feedAll (Json.write j [' ']) =
      (Reader.finishValue [] (.ofJson j)).feedAll [' '] :=
    Reader.feedAll_write h [] false [' '] (Reader.delimits_cons (by decide) [])
  have hlast : ∀ (r : Reader) (s : List Char), (r.feedAll s).feed ' ' = r.feedAll (s ++ [' ']) :=
    fun r s => (Reader.feedAll_append r s [' ']).symm
  rw [Document.ofText, hlast, ← Json.write_eq, hread]
  rfl

/-! ## Depth -/

theorem Json.toInt64?_ofInt64 (i : Int64) :
    (⟨i.toInt < 0, Nat.toDigits 10 i.toInt.natAbs, [], none⟩ : Number.Numeral).toInt64? =
      some i := by
  have hvalue : Number.Numeral.value (Nat.toDigits 10 i.toInt.natAbs) = i.toInt.natAbs := by
    rw [Number.Numeral.value, Text.readDigits?_toDigits, Option.getD_some]
  have hwhole : (⟨i.toInt < 0, Nat.toDigits 10 i.toInt.natAbs, [], none⟩ :
      Number.Numeral).isWhole = true := rfl
  rw [Number.Numeral.toInt64?, if_pos hwhole]
  simp only [hvalue, decide_eq_true_eq]
  by_cases h : i.toInt < 0
  · have hint : -(i.toInt.natAbs : Int) = i.toInt := by omega
    rw [if_pos h, if_neg (by omega), hint, Text.toInt64?_toInt]
  · have hint : (i.toInt.natAbs : Int) = i.toInt := by omega
    rw [if_neg h, hint, Text.toInt64?_toInt]

namespace Draft

theorem mapM_ofItems {limit : Nat} {items : List Json}
    (h : ∀ j ∈ items, (ofJson j).toJson? limit = if j.nesting ≤ limit then some j else none) :
    (ofItems items).mapM (toJson? limit) =
      if Json.nestingItems items ≤ limit then some items else none := by
  induction items with
  | nil => rfl
  | cons j items ih =>
      obtain ⟨hj, hitems⟩ := List.forall_mem_cons.1 h
      rw [ofItems, List.mapM_cons, hj, ih hitems, Json.nestingItems]
      simp only [Nat.max_le]
      by_cases hfirst : j.nesting ≤ limit <;> by_cases hrest : Json.nestingItems items ≤ limit <;>
        simp [hfirst, hrest]

theorem mapM_ofMembers {limit : Nat} {members : List (String × Json)}
    (h : ∀ m ∈ members,
      (ofJson m.2).toJson? limit = if m.2.nesting ≤ limit then some m.2 else none) :
    (ofMembers members).mapM (fun (k, d) => do return (← k, ← toJson? limit d)) =
      if Json.nestingMembers members ≤ limit then some members else none := by
  induction members with
  | nil => rfl
  | cons member members ih =>
      obtain ⟨k, j⟩ := member
      obtain ⟨hj, hmembers⟩ := List.forall_mem_cons.1 h
      rw [ofMembers, List.mapM_cons, ih hmembers, Json.nestingMembers]
      simp only [hj, Nat.max_le]
      by_cases hfirst : j.nesting ≤ limit <;>
        by_cases hrest : Json.nestingMembers members ≤ limit <;>
        simp [hfirst, hrest]

/-- A value that was read can be used if it nests no deeper than is allowed. -/
theorem toJson?_ofJson {j : Json} (h : j.Integral) (limit : Nat) :
    (ofJson j).toJson? limit = if j.nesting ≤ limit then some j else none := by
  induction h generalizing limit with
  | null | bool b | text t =>
      rw [ofJson, toJson?, if_pos]
      exact Nat.zero_le limit
  | number i =>
      have husable : usable ⟨i.toInt < 0, Nat.toDigits 10 i.toInt.natAbs, [], none⟩ = true := by
        rw [usable, Json.toInt64?_ofInt64]
        rfl
      rw [Json.ofInt64, Json.ofInt, ofJson, toJson?, if_pos husable, if_pos]
      exact Nat.zero_le limit
  | @array items _ ih =>
      rw [ofJson, Json.nesting]
      cases limit with
      | zero => rfl
      | succ limit =>
          rw [toJson?, mapM_ofItems fun j hj => ih j hj limit]
          by_cases hnesting : Json.nestingItems items ≤ limit <;> simp [hnesting]
  | @object members _ ih =>
      rw [ofJson, Json.nesting]
      cases limit with
      | zero => rfl
      | succ limit =>
          rw [toJson?, mapM_ofMembers fun m hm => ih m hm limit]
          by_cases hnesting : Json.nestingMembers members ≤ limit <;> simp [hnesting]

theorem readAny_ofJson {j : Json} (h : j.Integral) (limit : Nat) :
    (ofJson j).readAny limit = if j.nesting ≤ limit then .ok j else .error .malformed := by
  rw [readAny, toJson?_ofJson h]
  by_cases hnesting : j.nesting ≤ limit
  · rw [if_pos hnesting, if_pos hnesting]
  · rw [if_neg hnesting, if_neg hnesting]

end Draft

/-- JSON text is read as the value that it was written from, if it nests no deeper
than 127 arrays and objects. -/
theorem Json.parse_written {j : Json} (h : j.Integral) :
    parse j.render = if j.nesting ≤ nestingLimit then .ok j else .error .malformed := by
  rw [parse, Document.ofText_render h, Document.read, Draft.readAny_ofJson h]
  split <;> rfl

end Criteria
