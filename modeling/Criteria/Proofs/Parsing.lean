import Criteria.Proofs.Splitting
import Criteria.Tree.Parse
import Mathlib.Logic.Relation

/-!
# The parser and its grammar

`Writes` is the grammar: which tree a text writes, stated by where the text
splits and without mention of a scan or a stack. Every text writes exactly one
tree, which is the one that `parse` returns (`writes_iff_eq_parse`).

The parser is a loop over a stack of tasks, with the trees that are finished on
a second stack. `turn?` is one turn of that loop. Two things are proved about
it, which together leave nothing open. Reading a text, whatever else is on the
stacks, ends with the tree of that text on top and the rest as it was
(`turns_read`). And in every state that is ever reached the tasks below the
text at hand are those of texts that were split to get to it (`Awaits`), so
that a join always finds the trees of its own two operands.
-/

namespace Criteria.Tree

open Split Text

/-- The tree that a text writes. -/
inductive Writes : List Char → Tree → Prop where
  | branch {s : List Char} {i : Nat} {c : Connective} {left right : Tree}
      (h : FirstSplit (stripped (trim s)) i c)
      (hl : Writes ((stripped (trim s)).take i) left)
      (hr : Writes ((stripped (trim s)).drop (i + c.delimiter.length)) right) :
      Writes s (.branch c left right)
  | leaf {s : List Char} (h : ∀ i c, ¬ SplitsAt (stripped (trim s)) i c) :
      Writes s (ofCondition (String.ofList (trim (stripped (trim s)))))

theorem body_eq (s : List Char) : body s = stripped (trim s) :=
  stripOuter_eq (trim s)

theorem ofChars_some {s : List Char} {o : Operands} (h : operands? (body s) = some o) :
    ofChars s = branch o.connective (ofChars o.left) (ofChars o.right) := by
  rw [ofChars]
  split
  · next h' => rw [h] at h'; cases h'; rfl
  · next h' => rw [h] at h'; cases h'

theorem ofChars_none {s : List Char} (h : operands? (body s) = none) :
    ofChars s = ofCondition (String.ofList (trim (body s))) := by
  rw [ofChars]
  split
  · next h' => rw [h] at h'; cases h'
  · rfl

theorem writes_ofChars (s : List Char) : Writes s (ofChars s) := by
  induction s using ofChars.induct with
  | case1 s o ho ihl ihr =>
      rw [ofChars_some ho]
      obtain ⟨i, hfirst, hleft, hright⟩ := operands?_some ho
      rw [body_eq] at hfirst hleft hright
      rw [hleft] at ihl
      rw [hright] at ihr
      rw [hleft, hright]
      exact .branch hfirst ihl ihr
  | case2 s ho =>
      rw [ofChars_none ho, body_eq]
      rw [body_eq] at ho
      exact .leaf (operands?_none ho)

theorem Writes.eq_ofChars {s : List Char} {t : Tree} (h : Writes s t) : t = ofChars s := by
  induction h with
  | branch h _ _ ihl ihr =>
      have ho := operands?_of_firstSplit h
      rw [← body_eq] at ho
      rw [ofChars_some ho, ihl, ihr, body_eq]
  | leaf h =>
      have ho := operands?_eq_none_iff.2 h
      rw [← body_eq] at ho
      rw [ofChars_none ho, body_eq]

/-! ## The loop -/

/-- A loop gives in a state what it gives in the states that come of it. -/
theorem eq_of_turns {σ β : Type} {turn? : σ → Option σ} {out run : σ → β}
    (hrun : ∀ a, run a = (turn? a).elim (out a) run) {a b : σ}
    (h : Relation.ReflTransGen (fun a b => turn? a = some b) a b) : run a = run b := by
  induction h with
  | refl => rfl
  | tail _ hturn ih => rw [ih, hrun, hturn, Option.elim_some]

/-- One turn of the loop; `none` if there is no task left. -/
def turn? : List Task × List Tree → Option (List Task × List Tree)
  | ([], _) => none
  | (.read s :: tasks, finished) =>
    match operands? (body s) with
    | some o => some (.read o.left :: .read o.right :: .join o.connective :: tasks, finished)
    | none => some (tasks, ofCondition (String.ofList (trim (body s))) :: finished)
  | (.join connective :: tasks, finished) =>
    let (right, finished) := popTree finished
    let (left, finished) := popTree finished
    some (tasks, .branch connective left right :: finished)

theorem runTasks_eq (a : List Task × List Tree) :
    runTasks a.1 a.2 = (turn? a).elim a.2 fun b => runTasks b.1 b.2 := by
  rcases a with ⟨_ | ⟨s | c, tasks⟩, finished⟩
  · rw [runTasks]
    rfl
  · rw [runTasks, turn?]
    split
    · next ho => rw [ho]; rfl
    · next ho => rw [ho]; rfl
  · rw [runTasks]
    rfl

/-- What comes of a state after any number of turns. -/
abbrev Turns : List Task × List Tree → List Task × List Tree → Prop :=
  Relation.ReflTransGen fun a b => turn? a = some b

theorem turn?_some {s : List Char} {o : Operands} (ho : operands? (body s) = some o)
    (rest : List Task) (below : List Tree) :
    turn? (.read s :: rest, below) =
      some (.read o.left :: .read o.right :: .join o.connective :: rest, below) := by
  rw [turn?, ho]

theorem turn?_none {s : List Char} (ho : operands? (body s) = none) (rest : List Task)
    (below : List Tree) : turn? (.read s :: rest, below) = some (rest, ofChars s :: below) := by
  rw [turn?, ho, ofChars_none ho]

/-- Reading a text puts its tree on top and leaves the rest of both stacks
alone. -/
theorem turns_read (s : List Char) (rest : List Task) (below : List Tree) :
    Turns (.read s :: rest, below) (rest, ofChars s :: below) := by
  induction s using ofChars.induct generalizing rest below with
  | case1 s o ho ihl ihr =>
      rw [ofChars_some ho]
      refine .head (turn?_some ho rest below) ?_
      refine (ihl (.read o.right :: .join o.connective :: rest) below).trans ?_
      refine (ihr (.join o.connective :: rest) (ofChars o.left :: below)).trans ?_
      exact .single rfl
  | case2 s ho => exact .single (turn?_none ho rest below)

theorem parse_eq_ofChars (text : String) : parse text = ofChars text.toList := by
  have h := eq_of_turns runTasks_eq (turns_read text.toList [] [])
  rw [parse, h, runTasks]
  rfl

/-! ## What is on the stacks -/

/-- The text `s` is being read. Below it on the stack of tasks is what is still
to be done with its tree, and on the stack of trees are the left operands that
wait for their right ones. -/
inductive Awaits (text : List Char) : (s : List Char) → List Task → List Tree → Prop where
  | whole : Awaits text text [] []
  | left {s : List Char} {o : Operands} {rest : List Task} {below : List Tree}
      (h : Awaits text s rest below) (ho : operands? (body s) = some o) :
      Awaits text o.left (.read o.right :: .join o.connective :: rest) below
  | right {s : List Char} {o : Operands} {rest : List Task} {below : List Tree}
      (h : Awaits text s rest below) (ho : operands? (body s) = some o) :
      Awaits text o.right (.join o.connective :: rest) (ofChars o.left :: below)

def Loops (text : List Char) (state : List Task × List Tree) : Prop :=
  (∃ s rest, state.1 = .read s :: rest ∧ Awaits text s rest state.2) ∨
    ∃ s below, state.2 = ofChars s :: below ∧ Awaits text s state.1 below

section Stacks

variable {text s : List Char} {rest : List Task} {below : List Tree}

theorem Awaits.turns (h : Awaits text s rest below) :
    Turns ([.read text], []) (.read s :: rest, below) := by
  induction h with
  | whole => exact .refl
  | left _ ho ih => exact ih.tail (turn?_some ho _ _)
  | right _ ho ih => exact (ih.tail (turn?_some ho _ _)).trans (turns_read _ _ _)

theorem Awaits.length_le (h : Awaits text s rest below) : s.length ≤ text.length := by
  induction h with
  | whole => exact Nat.le_refl _
  | left _ ho ih =>
      have := operands?_body_length ho
      omega
  | right _ ho ih =>
      have := operands?_body_length ho
      omega

theorem Loops.turn {a b : List Task × List Tree} (h : Loops text a) (hturn : turn? a = some b) :
    Loops text b := by
  have hread : ∀ s rest, a.1 = .read s :: rest → Awaits text s rest a.2 → Loops text b := by
    intro s rest htasks hawaits
    obtain ⟨tasks, finished⟩ := a
    obtain rfl := htasks
    cases ho : operands? (body s) with
    | some o =>
        rw [turn?_some ho] at hturn
        cases hturn
        exact Or.inl ⟨_, _, rfl, .left hawaits ho⟩
    | none =>
        rw [turn?_none ho] at hturn
        cases hturn
        exact Or.inr ⟨_, _, rfl, hawaits⟩
  rcases h with ⟨s, rest, htasks, hawaits⟩ | ⟨s, below, hfinished, hawaits⟩
  · exact hread s rest htasks hawaits
  · obtain ⟨tasks, finished⟩ := a
    obtain rfl := hfinished
    cases hawaits with
    | whole => cases hturn
    | left h ho => exact hread _ _ rfl (.right h ho)
    | right h ho =>
        cases hturn
        refine Or.inr ⟨_, _, ?_, h⟩
        rw [ofChars_some ho]

theorem loops_of_turns {state : List Task × List Tree} (h : Turns ([.read text], []) state) :
    Loops text state := by
  induction h with
  | refl => exact Or.inl ⟨text, [], rfl, .whole⟩
  | tail _ hturn ih => exact ih.turn hturn

/-- A join finds the trees of the two operands of a text that was read before,
and puts their branch where the tree of that text belongs. -/
theorem join_of_turns {c : Connective} {tasks : List Task} {finished : List Tree}
    (h : Turns ([.read text], []) (.join c :: tasks, finished)) :
    ∃ s o below, Turns ([.read text], []) (.read s :: tasks, below) ∧
      operands? (body s) = some o ∧ o.connective = c ∧
      finished = ofChars o.right :: ofChars o.left :: below := by
  rcases loops_of_turns h with ⟨s, rest, htasks, -⟩ | ⟨s, below, hfinished, hawaits⟩
  · cases htasks
  · cases hawaits with
    | right h ho => exact ⟨_, _, _, h.turns, ho, rfl, hfinished⟩

theorem finished_of_turns {finished : List Tree} (h : Turns ([.read text], []) ([], finished)) :
    finished = [ofChars text] := by
  rcases loops_of_turns h with ⟨s, rest, htasks, -⟩ | ⟨s, below, hfinished, hawaits⟩
  · cases htasks
  · cases hawaits
    exact hfinished

theorem awaits_of_turns (h : Turns ([.read text], []) (.read s :: rest, below)) :
    Awaits text s rest below := by
  rcases loops_of_turns h with ⟨s', rest', htasks, hawaits⟩ | ⟨s', below', hfinished, hawaits⟩
  · cases htasks
    exact hawaits
  · cases hawaits with
    | left hawaits ho =>
        obtain rfl := hfinished
        exact .right hawaits ho

end Stacks

/-! ## The count of parentheses -/

theorem natAbs_nesting_le (s : List Char) : (nesting s).natAbs ≤ s.length := by
  have hopen := List.count_le_length (a := '(') (l := s)
  have hclose := List.count_le_length (a := ')') (l := s)
  rw [nesting]
  omega

theorem length_toList_le (text : String) : text.toList.length ≤ text.utf8ByteSize := by
  rw [← String.ofList_toList (s := text), String.toList_ofList]
  induction text.toList with
  | nil => exact Nat.zero_le _
  | cons c s ih =>
      have hpos := c.utf8Size_pos
      rw [← List.singleton_append, String.ofList_append, String.utf8ByteSize_append,
        ← String.singleton_eq_ofList, String.utf8ByteSize_singleton, List.length_append,
        List.length_singleton]
      omega

/-- The parser follows the grammar. A text writes one tree, and the loop, which
goes turn by turn, comes to its end with that tree alone. A join on its way
finds the trees of its own operands, above what was there when the text that
they come from was read. The count of parentheses, in a text of less than two
gigabytes, has 32 bits. -/
theorem writes_iff_eq_parse (text : String) :
    (∀ t, Writes text.toList t ↔ t = parse text) ∧
    (∀ a, runTasks a.1 a.2 = (turn? a).elim a.2 fun b => runTasks b.1 b.2) ∧
    Turns ([.read text.toList], []) ([], [parse text]) ∧
    (∀ finished, Turns ([.read text.toList], []) ([], finished) → finished = [parse text]) ∧
    (∀ c tasks finished, Turns ([.read text.toList], []) (.join c :: tasks, finished) →
      ∃ s i left right below, Turns ([.read text.toList], []) (.read s :: tasks, below) ∧
        FirstSplit (stripped (trim s)) i c ∧
        Writes ((stripped (trim s)).take i) left ∧
        Writes ((stripped (trim s)).drop (i + c.delimiter.length)) right ∧
        finished = right :: left :: below) ∧
    (text.utf8ByteSize < 2147483648 → ∀ s tasks below,
      Turns ([.read text.toList], []) (.read s :: tasks, below) →
      ∀ before, before <+: stripped (trim s) →
        Int32.minValue.toInt ≤ nesting before ∧ nesting before ≤ Int32.maxValue.toInt) := by
  rw [parse_eq_ofChars]
  refine ⟨fun t => ?_, runTasks_eq, turns_read _ _ _, fun finished => finished_of_turns, ?_, ?_⟩
  · exact ⟨Writes.eq_ofChars, fun h => h ▸ writes_ofChars _⟩
  · intro c tasks finished h
    obtain ⟨s, o, below, hread, ho, rfl, hfinished⟩ := join_of_turns h
    obtain ⟨i, hfirst, hleft, hright⟩ := operands?_some ho
    rw [body_eq] at hfirst hleft hright
    refine ⟨s, i, ofChars o.left, ofChars o.right, below, hread, hfirst, ?_, ?_, hfinished⟩
    · rw [← hleft]
      exact writes_ofChars _
    · rw [← hright]
      exact writes_ofChars _
  · intro hsize s tasks below hread before hbefore
    have hnesting := natAbs_nesting_le before
    have hlen := hbefore.length_le
    have hbody := body_length_le s
    have hread := (awaits_of_turns hread).length_le
    have htext := length_toList_le text
    rw [body_eq] at hbody
    rw [Int32.toInt_minValue, Int32.toInt_maxValue]
    omega

/-- A text of two operands: what it writes, what the join finds, and the count
inside the parentheses. -/
theorem writes_iff_eq_parse_two_operands :
    Writes "(x) AND y".toList (.branch .and (ofCondition "x") (ofCondition "y")) ∧
    (∃ s i, FirstSplit (stripped (trim s)) i .and ∧
      Writes ((stripped (trim s)).take i) (ofCondition "x") ∧
      Writes ((stripped (trim s)).drop (i + 5)) (ofCondition "y")) ∧
    nesting "(x".toList ≤ Int32.maxValue.toInt := by
  obtain ⟨hwrites, -, -, -, hjoin, hnesting⟩ := writes_iff_eq_parse "(x) AND y"
  refine ⟨(hwrites _).2 (by decide +kernel), ?_, ?_⟩
  · have hturns : Turns ([.read "(x) AND y".toList], [])
        ([.join .and], [ofCondition "y", ofCondition "x"]) :=
      .tail (.tail (.single rfl) rfl) rfl
    obtain ⟨s, i, left, right, below, -, hfirst, hleft, hright, hfinished⟩ := hjoin _ _ _ hturns
    cases hfinished
    exact ⟨s, i, hfirst, hleft, hright⟩
  · exact (hnesting (by decide) _ [] [] .refl _ (by decide)).2

end Criteria.Tree
