import Criteria.Proofs.Combining
import Criteria.Proofs.Printing

/-!
# What a joined text means

The rule that combines some texts keeps the chain of their trees, each read by
itself, and the texts joined by `OR`. The joined text is read as a whole, and
there every text goes on behind the last operand of the one before it. If an
`AND` stands outside parentheses in a text, everything behind it is under that
`AND`, and so are then all the texts that follow.

A text is taken as its operands and the connectives between them (`Sequence`).
Joining sequences is appending them, and what the whole means follows from one
equation (`Sequence.meaning_append`): a text that is appended to another counts
if the other one would hold with its last operand true (`Sequence.opens`). From
it comes the exact condition for tree and text to agree, `LeadsToMatch`.

Reading gives back the sequence under three provisos (`Reads`). Operands are not
blank and their parentheses are balanced, and no end of the text, from an operand
on, starts with a parenthesis and ends with one: the two would be dropped, as if
they belonged together. Printed trees meet all of this.
-/

namespace Criteria

open Split Text

/-! ## The first operand of a text -/

/-- The parentheses at the ends of a text, if there are any, are kept. -/
def Unwrapped (s : List Char) : Prop :=
  ¬((trim s).head? = some '(' ∧ (trim s).getLast? = some ')')

/-- A text with as many closing parentheses as opening ones, split nowhere. -/
structure IsOperand (u : List Char) : Prop where
  solid : Solid u
  total : nesting u = 0
  unsplit : Unsplit (trimStart u)

theorem Unwrapped.body {s : List Char} (h : Unwrapped s) : Split.body s = trim s := by
  rw [Tree.body_eq, stripped, if_neg fun hwrapped => h hwrapped.2]

theorem nesting_trimStart (s : List Char) : nesting (trimStart s) = nesting s := by
  have hblanks : Blanks (s.takeWhile isBlank) := fun c hc => List.mem_takeWhile_imp hc
  have hsum := nesting_append (s.takeWhile isBlank) (trimStart s)
  rw [trimStart, List.takeWhile_append_dropWhile, nesting_blanks hblanks, Int.zero_add] at hsum
  exact hsum.symm

theorem ofChars_trim_congr {s s' : List Char} (h : trim s = trim s') :
    Tree.ofChars s = Tree.ofChars s' :=
  ofChars_congr (congrArg stripOuter h)

/-- A text that goes on behind an operand is read as a branch. -/
theorem ofChars_branch {u s : List Char} {c : Connective} (hu : IsOperand u) (hs : Solid s)
    (houter : Unwrapped (u ++ c.delimiter ++ s)) :
    Tree.ofChars (u ++ c.delimiter ++ s) = .branch c (Tree.ofChars u) (Tree.ofChars s) := by
  have htrim : trim (u ++ c.delimiter ++ s) = trimStart u ++ c.delimiter ++ trimEnd s := by
    rw [trim, List.append_assoc, trimStart_append hu.solid, ← List.append_assoc,
      trimEnd_append hs]
  have htotal : nesting (trimStart u) = 0 := (nesting_trimStart u).trans hu.total
  have hsplit := operands?_branch hu.unsplit htotal c (trimEnd s)
  rw [← htrim, ← houter.body] at hsplit
  rw [Tree.ofChars_some hsplit, ofChars_trim_congr (trim_trimStart u),
    ofChars_trim_congr (trim_trimEnd hs)]

/-! ## Operands in a row -/

/-- The operands of a text and the connectives between them. -/
inductive Sequence where
  | last (operand : List Char)
  | link (operand : List Char) (connective : Connective) (rest : Sequence)

namespace Sequence

def chars : Sequence → List Char
  | last u => u
  | link u c rest => u ++ c.delimiter ++ rest.chars

def text (e : Sequence) : String :=
  String.ofList e.chars

/-- The tree that leans to the right, with the trees of the operands in a row. -/
def tree : Sequence → Tree
  | last u => Tree.ofChars u
  | link u c rest => .branch c (Tree.ofChars u) rest.tree

def append (c : Connective) : Sequence → Sequence → Sequence
  | last u, next => link u c next
  | link u k rest, next => link u k (append c rest next)

/-- Whether a text would match if its last operand held. -/
def opens (ctx : Context) : Sequence → Bool
  | last _ => true
  | link u c rest => c.apply ((Tree.ofChars u).meaning ctx) (rest.opens ctx)

/-- No `AND` stands outside the operands. -/
def IsDisjunction : Sequence → Prop
  | last _ => True
  | link _ c rest => c = .or ∧ rest.IsDisjunction

/-- From each operand on, the text is read as that operand and what follows. -/
inductive Reads : Sequence → Prop where
  | last (u : List Char) : Reads (last u)
  | link {u : List Char} {c : Connective} {rest : Sequence} (hu : IsOperand u)
      (hrest : Solid rest.chars) (houter : Unwrapped (link u c rest).chars) (h : rest.Reads) :
      Reads (link u c rest)

theorem Reads.ofChars_eq {e : Sequence} (h : e.Reads) : Tree.ofChars e.chars = e.tree := by
  induction h with
  | last u => rfl
  | link hu hrest houter _ ih => rw [chars, ofChars_branch hu hrest houter, ih, tree]

theorem Reads.parse_eq {e : Sequence} (h : e.Reads) : Tree.parse e.text = e.tree := by
  rw [Tree.parse_eq_ofChars, text, String.toList_ofList, h.ofChars_eq]

theorem chars_append (c : Connective) (e next : Sequence) :
    (e.append c next).chars = e.chars ++ c.delimiter ++ next.chars := by
  induction e with
  | last u => rfl
  | link u k rest ih =>
      rw [append, chars, chars, ih]
      simp only [List.append_assoc]

/-! ## What a sequence means -/

/-- A text counts behind another one that opens. -/
theorem meaning_append (ctx : Context) (e next : Sequence) :
    (e.append .or next).tree.meaning ctx =
      (e.tree.meaning ctx || (e.opens ctx && next.tree.meaning ctx)) := by
  induction e with
  | last u => rfl
  | link u c rest ih =>
      rw [append, tree, tree, Tree.meaning, Tree.meaning, ih, opens]
      cases c with
      | and => simp only [Connective.apply, Bool.and_or_distrib_left, Bool.and_assoc]
      | or =>
          cases hu : (Tree.ofChars u).meaning ctx with
          | true => rfl
          | false => rfl

theorem IsDisjunction.opens {e : Sequence} (h : e.IsDisjunction) (ctx : Context) :
    e.opens ctx = true := by
  induction e with
  | last u => rfl
  | link u c rest ih =>
      obtain ⟨rfl, hrest⟩ := h
      rw [Sequence.opens, ih hrest]
      exact Bool.or_true _

/-- The sequence of the joined text. -/
def joined : List Sequence → Sequence
  | [] => last []
  | [e] => e
  | e :: rest => e.append .or (joined rest)

/-- Each text before the first one that matches would match if its last operand
held. -/
def LeadsToMatch (ctx : Context) (es : List Sequence) : Prop :=
  (∃ e ∈ es, e.tree.meaning ctx = true) →
    ∀ e ∈ es.takeWhile (!·.tree.meaning ctx), e.opens ctx = true

theorem joined_cons {e : Sequence} {rest : List Sequence} (h : rest ≠ []) :
    joined (e :: rest) = e.append .or (joined rest) := by
  cases rest with
  | nil => exact absurd rfl h
  | cons _ _ => rfl

theorem text_joined (es : List Sequence) : Rule.joinTexts (es.map text) = (joined es).text := by
  rw [Rule.joinTexts]
  induction es using joined.induct with
  | case1 => rfl
  | case2 e => exact String.intercalate_singleton
  | case3 e rest hne ih =>
      rw [List.map_cons, String.intercalate_cons_of_ne_nil (by simpa using hne), ih,
        joined_cons hne, text, text, text, chars_append, String.ofList_append,
        String.ofList_append]
      rfl

theorem leadsToMatch_of_meaning {ctx : Context} {e : Sequence} {rest : List Sequence}
    (h : e.tree.meaning ctx = true) : LeadsToMatch ctx (e :: rest) := by
  intro _ e' he'
  rw [List.takeWhile_cons_of_neg (by rw [h]; decide)] at he'
  cases he'

theorem leadsToMatch_cons {ctx : Context} {e : Sequence} {rest : List Sequence}
    (h : e.tree.meaning ctx = false) :
    LeadsToMatch ctx (e :: rest) ↔
      (rest.any (·.tree.meaning ctx) = true → e.opens ctx = true) ∧ LeadsToMatch ctx rest := by
  rw [LeadsToMatch, LeadsToMatch, List.takeWhile_cons_of_pos (by rw [h]; rfl),
    List.exists_mem_cons_iff, h, List.forall_mem_cons, List.any_eq_true, forall_and]
  simp only [Bool.false_eq_true, false_or]

/-- A joined text matches only if one of the texts does. If one does, it depends
on what stands before it. -/
theorem meaning_joined (ctx : Context) {es : List Sequence} (h : es ≠ []) :
    ((joined es).tree.meaning ctx = true → es.any (·.tree.meaning ctx) = true) ∧
      ((joined es).tree.meaning ctx = es.any (·.tree.meaning ctx) ↔ LeadsToMatch ctx es) := by
  induction es using joined.induct with
  | case1 => exact absurd rfl h
  | case2 e =>
      rw [joined, List.any_cons, List.any_nil, Bool.or_false]
      refine ⟨id, fun _ => ?_, fun _ => rfl⟩
      cases he : e.tree.meaning ctx with
      | true => exact leadsToMatch_of_meaning he
      | false =>
          exact (leadsToMatch_cons he).2
            ⟨fun hany => (by cases hany), fun ⟨_, hnil, _⟩ => (by cases hnil)⟩
  | case3 e rest hne ih =>
      obtain ⟨hsound, hexact⟩ := ih hne
      rw [joined_cons hne, meaning_append, List.any_cons]
      cases he : e.tree.meaning ctx with
      | true => exact ⟨fun _ => rfl, fun _ => leadsToMatch_of_meaning he, fun _ => rfl⟩
      | false =>
          rw [leadsToMatch_cons he, ← hexact, Bool.false_or, Bool.false_or]
          -- without a match behind `e`, the rest of the joined text has none either
          cases hany : rest.any (·.tree.meaning ctx) with
          | false =>
              rw [hany, Bool.false_eq_true, imp_false, Bool.not_eq_true] at hsound
              rw [hsound, Bool.and_false]
              simp
          | true => simp

/-! ## Printed trees in a row -/

/-- A row of texts whose operands are all met again where they are joined. -/
structure Joinable (es : List Sequence) : Prop where
  ne_nil : es ≠ []
  reads : ∀ e ∈ es, e.Reads
  joined : (joined es).Reads

/-- An operand as it is printed. -/
structure IsTidy (u : List Char) : Prop where
  balanced : Balanced u
  unsplit : Unsplit u
  start : ∀ c, u.head? = some c → isBlank c = false
  ne_nil : u ≠ []

theorem solid_of_start {s : List Char} (hstart : ∀ c, s.head? = some c → isBlank c = false)
    (hne : s ≠ []) : Solid s := by
  cases s with
  | nil => exact absurd rfl hne
  | cons c s => exact ⟨c, List.mem_cons_self, hstart c rfl⟩

theorem IsTidy.isOperand {u : List Char} (h : IsTidy u) : IsOperand u :=
  ⟨solid_of_start h.start h.ne_nil, h.balanced.total, by
    rw [trimStart_eq_self h.start]
    exact h.unsplit⟩

theorem unwrapped_of_printed {s : List Char} (h : Printed s) : Unwrapped s := by
  rintro ⟨-, hlast⟩
  rw [trim_eq_self h.start fun c hc => (h.finish c hc).1] at hlast
  exact (h.finish _ hlast).2 rfl

inductive Tidy : Sequence → Prop where
  | last {u : List Char} (hu : IsTidy u) (h : Printed u) : Tidy (last u)
  | link {u : List Char} {c : Connective} {rest : Sequence} (hu : IsTidy u) (h : rest.Tidy) :
      Tidy (link u c rest)

theorem Tidy.printed {e : Sequence} (h : e.Tidy) : Printed e.chars := by
  induction h with
  | last hu h => exact h
  | @link u c rest hu _ ih =>
      rw [chars, List.append_assoc]
      exact .of_parts (hu.balanced.append ((balanced_delimiter c).append ih.balanced)) hu.ne_nil
        ih.ne_nil hu.start ih.finish

theorem Tidy.reads {e : Sequence} (h : e.Tidy) : e.Reads := by
  induction h with
  | last hu h => exact .last _
  | link hu hrest ih =>
      have hprinted := hrest.printed
      exact .link hu.isOperand (solid_of_start hprinted.start hprinted.ne_nil)
        (unwrapped_of_printed (Tidy.link hu hrest).printed) ih

theorem Tidy.append {e next : Sequence} (h : e.Tidy) (c : Connective) (hnext : next.Tidy) :
    (e.append c next).Tidy := by
  induction h with
  | last hu _ => exact .link hu hnext
  | link hu _ ih => exact .link hu ih

theorem Tidy.joined {es : List Sequence} (hne : es ≠ []) (h : ∀ e ∈ es, e.Tidy) :
    (joined es).Tidy := by
  induction es using joined.induct with
  | case1 => exact absurd rfl hne
  | case2 e => exact h e List.mem_cons_self
  | case3 e rest hrest ih =>
      rw [joined_cons hrest]
      rw [List.forall_mem_cons] at h
      exact h.1.append .or (ih hrest h.2)

/-- The operands of a printed tree. -/
def ofTree : Tree → Sequence
  | .branch c left right => link (Tree.parenthesize left.isBranch left.chars) c (ofTree right)
  | t => last t.chars

theorem text_ofTree (t : Tree) : (ofTree t).text = t.render := by
  rw [text, Tree.render]
  congr 1
  induction t with
  | empty => rfl
  | leaf _ => rfl
  | branch c left right _ ih => rw [ofTree, chars, ih, Tree.chars]

theorem tidy_ofTree {t : Tree} (h : Expressible t) : (ofTree t).Tidy := by
  induction h with
  | @leaf _ _ c hfield htarget hand hor =>
      have hprinted := printed_conditionText (c := c) hfield htarget
      show Tidy (last (Tree.ofCondition (conditionText _ c _)).chars)
      rw [chars_ofCondition]
      exact .last ⟨hprinted.balanced, unsplit_conditionText hfield htarget hand hor, hprinted.start,
        hprinted.ne_nil⟩ hprinted
  | branch hl hr _ ihr =>
      obtain ⟨hunsplit, hbalanced⟩ := unsplit_parenthesize hl hl.printed
      exact .link ⟨hbalanced, hunsplit, hl.printed.start_parenthesize _,
        hl.printed.parenthesize_ne_nil _⟩ ihr

/-- The texts of printed trees are joinable. -/
theorem joinable_ofTree {ts : List Tree} (hne : ts ≠ []) (h : ∀ t ∈ ts, Expressible t) :
    Joinable (ts.map ofTree) ∧ (ts.map ofTree).map text = ts.map Tree.render := by
  have htidy : ∀ e ∈ ts.map ofTree, e.Tidy := by
    intro e he
    obtain ⟨t, ht, rfl⟩ := List.mem_map.1 he
    exact tidy_ofTree (h t ht)
  have hne : ts.map ofTree ≠ [] := by simpa using hne
  refine ⟨⟨hne, fun e he => (htidy e he).reads, (Tidy.joined hne htidy).reads⟩, ?_⟩
  rw [List.map_map]
  exact List.map_congr_left fun t _ => text_ofTree t

end Sequence

/-! ## Joined texts -/

namespace Service

variable {svc : Service Store}

theorem read_lenient (hmode : svc.mode = .lenient) (text : String) :
    (∃ root, svc.read text = .ok root) ↔ (Tree.parse text).depth ≤ maxDepth := by
  rw [read, hmode, Mode.parse]
  show (∃ root, (if maxDepth < (Tree.parse text).depth then _ else _) = _) ↔ _
  split
  · next hdeep =>
      constructor
      · rintro ⟨_, h⟩
        cases h
      · exact fun h => absurd hdeep (Nat.not_lt.2 h)
  · next hdeep => exact ⟨fun _ => Nat.not_lt.1 hdeep, fun _ => ⟨_, rfl⟩⟩

theorem root_of_create (hmemory : svc.repository = Repository.memory) {text : String}
    {s : ServiceState Store} {r : Rule} (h : (svc.create text s).1 = .ok r) :
    r.root = Tree.parse text := by
  obtain ⟨root, hread⟩ := (create_ok_iff hmemory text).1 ⟨r, h⟩
  obtain ⟨metrics, heq⟩ := create_of_read (s := s) hmemory hread
  rw [heq] at h
  cases h
  exact read_ok hread

theorem eq_of_combine (hmemory : svc.repository = Repository.memory) {texts : List String}
    {s : ServiceState Store} {r : Rule} (h : (svc.combine texts s).1 = .ok r) :
    (r.text, r.root) = Rule.combineTexts texts := by
  have hread := (combine_ok_iff hmemory texts).1 ⟨r, h⟩
  obtain ⟨metrics, heq⟩ := combine_of_readAll (s := s) hmemory (readAll_ok_iff.2 ⟨hread, rfl⟩)
  rw [heq] at h
  cases h
  rfl

end Service

namespace Sequence

variable {es : List Sequence}

theorem Joinable.map_parse (h : Joinable es) : (es.map text).map Tree.parse = es.map tree := by
  rw [List.map_map]
  exact List.map_congr_left fun e he => (h.reads e he).parse_eq

theorem Joinable.parse_joinTexts (h : Joinable es) :
    Tree.parse (Rule.joinTexts (es.map text)) = (Sequence.joined es).tree := by
  rw [text_joined, h.joined.parse_eq]

theorem Joinable.meaning_orChain (h : Joinable es) (ctx : Context) :
    (Tree.orChain ((es.map text).map Tree.parse)).meaning ctx = es.any (·.tree.meaning ctx) := by
  rw [h.map_parse, Tree.meaning_orChain, List.any_map]
  rfl

/-- What stands before the first match are texts from before the last. -/
theorem leadsToMatch_of_isDisjunction (ctx : Context) (h : ∀ e ∈ es.dropLast, e.IsDisjunction) :
    LeadsToMatch ctx es := by
  induction es with
  | nil => exact fun ⟨_, hnil, _⟩ => (by cases hnil)
  | cons e rest ih =>
      cases he : e.tree.meaning ctx with
      | true => exact leadsToMatch_of_meaning he
      | false =>
          cases rest with
          | nil => exact (leadsToMatch_cons he).2 ⟨fun hany => (by cases hany), ih h⟩
          | cons e' rest =>
              rw [List.dropLast_cons_cons, List.forall_mem_cons] at h
              exact (leadsToMatch_cons he).2 ⟨fun _ => h.1.opens ctx, ih h.2⟩

end Sequence

open Sequence

/-- The joined text matches only what the combined tree matches. It matches all
of that on a context if and only if the texts before the first match open on it,
in particular if only the last text may have an `AND` outside its operands. The
same goes for the rule that is created from the text of a combined one, if its
tree is not too deep now that it is read as a whole. -/
theorem evaluate_joinTexts_eq_iff {es : List Sequence} (h : Joinable es) (ctx : Context) :
    let texts := es.map text
    let combined := Rule.combineTexts texts
    let svc : Service Store := ⟨.memory, .lenient⟩
    (∀ e ∈ es, Tree.parse e.text = e.tree) ∧
    ((Tree.parse combined.1).evaluate ctx = true → combined.2.evaluate ctx = true) ∧
    ((Tree.parse combined.1).evaluate ctx = combined.2.evaluate ctx ↔ LeadsToMatch ctx es) ∧
    ((∀ e ∈ es.dropLast, e.IsDisjunction) →
      (Tree.parse combined.1).evaluate ctx = combined.2.evaluate ctx) ∧
    ∀ s r, (svc.combine texts s).1 = .ok r → (r.text, r.root) = combined ∧
      ∀ s', ((∃ r', (svc.create r.text s').1 = .ok r') ↔ (Tree.parse r.text).depth ≤ maxDepth) ∧
        ∀ r', (svc.create r.text s').1 = .ok r' →
          (r'.evaluate ctx = r.evaluate ctx ↔ LeadsToMatch ctx es) := by
  intro texts combined svc
  have hmemory : svc.repository = Repository.memory := rfl
  have hwhole : (Tree.parse combined.1).evaluate ctx = (Sequence.joined es).tree.meaning ctx := by
    rw [Tree.evaluate_eq]
    exact congrArg (Tree.meaning ctx) h.parse_joinTexts
  have hchain : combined.2.evaluate ctx = es.any (·.tree.meaning ctx) := by
    rw [Tree.evaluate_eq]
    exact h.meaning_orChain ctx
  obtain ⟨hsound, hexact⟩ := meaning_joined ctx h.ne_nil
  rw [← hwhole, ← hchain] at hsound hexact
  refine ⟨fun e he => (h.reads e he).parse_eq, hsound, hexact,
    fun hdisjunction => hexact.2 (leadsToMatch_of_isDisjunction ctx hdisjunction),
    fun s r hcombine => ?_⟩
  have hr := Service.eq_of_combine hmemory hcombine
  refine ⟨hr, fun s' => ⟨?_, fun r' hcreate => ?_⟩⟩
  · rw [Service.create_ok_iff hmemory, Service.read_lenient rfl]
  · obtain ⟨htext, hroot⟩ := Prod.mk.inj hr
    rw [← hexact, r'.evaluate_eq, r.evaluate_eq, Service.root_of_create hmemory hcreate, htext,
      hroot, Tree.evaluate_eq, Tree.evaluate_eq]
    rfl

/-- An `AND` in the first of two texts: a rule that is created from the text of the
combined one misses a match. The other way round the two rules are alike. -/
theorem evaluate_joinTexts_eq_iff_two_texts :
    let svc : Service Store := ⟨.memory, .lenient⟩
    let s : ServiceState Store := ⟨.empty, .empty⟩
    let ctx := Context.empty.insert "age" (.integer 35)
    let texts := ["age > 40 AND salary > 100", "age > 30"]
    let swapped := Rule.combineTexts ["age > 30", "age > 40 AND salary > 100"]
    (∃ r r', (svc.combine texts s).1 = .ok r ∧
      (svc.create r.text (svc.combine texts s).2).1 = .ok r' ∧
      r.evaluate ctx = true ∧ r'.evaluate ctx = false) ∧
    ∀ ctx', (Tree.parse swapped.1).evaluate ctx' = swapped.2.evaluate ctx' := by
  intro svc s ctx texts swapped
  let conjunction : Tree := .branch .and (.ofCondition "age > 40") (.ofCondition "salary > 100")
  let condition : Tree := .ofCondition "age > 30"
  have hconjunction : Expressible conjunction := isExpressible_iff.1 (by decide +kernel)
  have hcondition : Expressible condition := isExpressible_iff.1 (by decide +kernel)
  constructor
  · have hjoinable : Joinable [ofTree conjunction, ofTree condition] :=
      (@joinable_ofTree [conjunction, condition] (List.cons_ne_nil _ _)
        (List.forall_mem_cons.2 ⟨hconjunction, List.forall_mem_singleton.2 hcondition⟩)).1
    obtain ⟨-, -, -, -, hservice⟩ := evaluate_joinTexts_eq_iff hjoinable ctx
    have hread : ∀ text ∈ texts, (Tree.parse text).depth ≤ maxDepth := by decide +kernel
    obtain ⟨r, hr⟩ : ∃ r, (svc.combine texts s).1 = .ok r :=
      (Service.combine_ok_iff rfl texts).2 fun text h =>
        (Service.read_lenient rfl text).2 (hread text h)
    obtain ⟨hcombined, hcreated⟩ := hservice s r hr
    obtain ⟨htext, hroot⟩ := Prod.mk.inj hcombined
    obtain ⟨haccepted, hagree⟩ := hcreated (svc.combine texts s).2
    obtain ⟨r', hr'⟩ := haccepted.2 (by rw [htext]; decide +kernel)
    have hmatch : r.evaluate ctx = true := by
      rw [Rule.evaluate, hroot]
      decide +kernel
    refine ⟨r, r', hr, hr', hmatch, Bool.not_eq_true _ ▸ fun hmatch' => ?_⟩
    have hleads := (hagree r' hr').1 (hmatch'.trans hmatch.symm)
    have hshut : (ofTree conjunction).opens ctx = false := by decide +kernel
    have hopens := hleads
      ⟨ofTree condition, List.mem_cons_of_mem _ (List.mem_singleton_self _), by decide +kernel⟩
      (ofTree conjunction) (by
        rw [List.takeWhile_cons_of_pos (by decide +kernel)]
        exact List.mem_cons_self)
    rw [hshut] at hopens
    cases hopens
  · intro ctx'
    have hjoinable : Joinable [ofTree condition, ofTree conjunction] :=
      (@joinable_ofTree [condition, conjunction] (List.cons_ne_nil _ _)
        (List.forall_mem_cons.2 ⟨hcondition, List.forall_mem_singleton.2 hconjunction⟩)).1
    refine (evaluate_joinTexts_eq_iff hjoinable ctx').2.2.2.1 ?_
    exact List.forall_mem_singleton.2 trivial

end Criteria
