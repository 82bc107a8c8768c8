import Criteria.Proofs.Parsing
import Criteria.Trace

/-!
# Every way of deciding comes to the meaning

`Tree.meaning` says what a tree means by recursion. What runs are two loops over
a stack of steps, with the values decided so far on a second stack: a plain one
(`Tree.evaluate`) and one that carries paths and takes notes (`Trace.run`). This
file proves that both come to the meaning, and says of the traced one what all
of its notes are.

`Tree.step?` and `Trace.step?` are one turn of these loops, which go like that of
the parser. From any stacks a subtree is decided with its meaning on top and the
rest as it was. What is said of all the states on the way (`Pending`) is said of
the plain loop alone: without its paths and notes the traced loop makes the same
turns (`plain_of_steps`), so that in both of them a connective finds the meanings
of its own two operands.
-/

namespace Criteria

namespace Tree

/-! ## The plain loop -/

/-- One turn of the loop; `none` if there is no step left. -/
def step? (ctx : Context) : List Step × List Bool → Option (List Step × List Bool)
  | ([], _) => none
  | (.visit empty :: steps, values) => some (steps, false :: values)
  | (.visit (leaf c) :: steps, values) => some (steps, c.holds ctx :: values)
  | (.visit (branch c left right) :: steps, values) =>
    some (.visit left :: .visit right :: .combine c :: steps, values)
  | (.combine c :: steps, values) =>
    let (right, values) := popValue values
    let (left, values) := popValue values
    some (steps, c.apply left right :: values)

abbrev Steps (ctx : Context) : List Step × List Bool → List Step × List Bool → Prop :=
  Relation.ReflTransGen fun a b => step? ctx a = some b

section Plain

variable {ctx : Context}

theorem runSteps_eq (ctx : Context) (a : List Step × List Bool) :
    runSteps ctx a.1 a.2 = (step? ctx a).elim a.2 fun b => runSteps ctx b.1 b.2 := by
  rcases a with ⟨_ | ⟨⟨_ | c | ⟨c, left, right⟩⟩ | c, steps⟩, values⟩
  all_goals
    rw [runSteps]
    rfl

/-- Deciding a subtree puts its meaning on top and leaves the rest of both
stacks alone. -/
theorem steps_visit (t : Tree) (rest : List Step) (below : List Bool) :
    Steps ctx (.visit t :: rest, below) (rest, t.meaning ctx :: below) := by
  induction t generalizing rest below with
  | empty => exact .single rfl
  | leaf c => exact .single rfl
  | branch c left right ihl ihr =>
      have hleft := ihl (.visit right :: .combine c :: rest) below
      have hright := ihr (.combine c :: rest) (left.meaning ctx :: below)
      exact .head rfl (hleft.trans (hright.trans (.single rfl)))

theorem evaluate_eq (t : Tree) (ctx : Context) : t.evaluate ctx = t.meaning ctx := by
  have h := eq_of_turns (runSteps_eq ctx) (steps_visit t [] [])
  rw [evaluate, h, runSteps]
  rfl

/-- The subtree `t` of `whole` is being decided. Below it on the stack of steps
is what is still to be done with its value, and on the stack of values are the
left operands that wait for their right ones. -/
inductive Pending (ctx : Context) (whole : Tree) :
    (t : Tree) → List Step → List Bool → Prop where
  | whole : Pending ctx whole whole [] []
  | left {c : Connective} {left right : Tree} {rest : List Step} {below : List Bool}
      (h : Pending ctx whole (.branch c left right) rest below) :
      Pending ctx whole left (.visit right :: .combine c :: rest) below
  | right {c : Connective} {left right : Tree} {rest : List Step} {below : List Bool}
      (h : Pending ctx whole (.branch c left right) rest below) :
      Pending ctx whole right (.combine c :: rest) (left.meaning ctx :: below)

def Decides (ctx : Context) (whole : Tree) (state : List Step × List Bool) : Prop :=
  (∃ t rest, state.1 = .visit t :: rest ∧ Pending ctx whole t rest state.2) ∨
    ∃ t below, state.2 = t.meaning ctx :: below ∧ Pending ctx whole t state.1 below

variable {whole t : Tree} {rest : List Step} {below : List Bool}

theorem Pending.steps (h : Pending ctx whole t rest below) :
    Steps ctx ([.visit whole], []) (.visit t :: rest, below) := by
  induction h with
  | whole => exact .refl
  | left _ ih => exact ih.tail rfl
  | right _ ih => exact (ih.tail rfl).trans (steps_visit _ _ _)

theorem Decides.step {a b : List Step × List Bool} (h : Decides ctx whole a)
    (hstep : step? ctx a = some b) : Decides ctx whole b := by
  have hvisit : ∀ t rest, a.1 = .visit t :: rest → Pending ctx whole t rest a.2 →
      Decides ctx whole b := by
    intro t rest hsteps hpending
    obtain ⟨steps, values⟩ := a
    obtain rfl := hsteps
    cases t with
    | empty =>
        cases hstep
        exact Or.inr ⟨_, _, rfl, hpending⟩
    | leaf c =>
        cases hstep
        exact Or.inr ⟨_, _, rfl, hpending⟩
    | branch c left right =>
        cases hstep
        exact Or.inl ⟨_, _, rfl, .left hpending⟩
  rcases h with ⟨t, rest, hsteps, hpending⟩ | ⟨t, below, hvalues, hpending⟩
  · exact hvisit t rest hsteps hpending
  · obtain ⟨steps, values⟩ := a
    obtain rfl := hvalues
    cases hpending with
    | whole => cases hstep
    | left h => exact hvisit _ _ rfl (.right h)
    | right h =>
        cases hstep
        exact Or.inr ⟨_, _, rfl, h⟩

theorem decides_of_steps {state : List Step × List Bool}
    (h : Steps ctx ([.visit whole], []) state) : Decides ctx whole state := by
  induction h with
  | refl => exact Or.inl ⟨whole, [], rfl, .whole⟩
  | tail _ hstep ih => exact ih.step hstep

/-- A connective finds the meanings of the two operands of a branch that was met
before, and puts the meaning of that branch where it belongs. -/
theorem combine_of_steps {c : Connective} {steps : List Step} {values : List Bool}
    (h : Steps ctx ([.visit whole], []) (.combine c :: steps, values)) :
    ∃ left right below, values = right.meaning ctx :: left.meaning ctx :: below ∧
      Steps ctx ([.visit whole], []) (.visit (.branch c left right) :: steps, below) := by
  rcases decides_of_steps h with ⟨t, rest, hsteps, -⟩ | ⟨t, below, hvalues, hpending⟩
  · cases hsteps
  · cases hpending with
    | right h => exact ⟨_, _, _, hvalues, h.steps⟩

theorem values_of_steps {values : List Bool}
    (h : Steps ctx ([.visit whole], []) ([], values)) : values = [whole.meaning ctx] := by
  rcases decides_of_steps h with ⟨t, rest, hsteps, -⟩ | ⟨t, below, hvalues, hpending⟩
  · cases hsteps
  · cases hpending
    exact hvalues

end Plain

/-! ## What a trace holds -/

/-- The conditions that hold, with their paths, from left to right. -/
def matched (ctx : Context) (path : String) : Tree → List String
  | empty => []
  | leaf c => if c.holds ctx then [path ++ ": " ++ c.value] else []
  | branch _ left right =>
    left.matched ctx (path ++ ".left") ++ right.matched ctx (path ++ ".right")

/-- One line for each node, a branch after its two subtrees. -/
def explained (ctx : Context) (path : String) : Tree → List String
  | empty => []
  | leaf c => [Trace.conditionLine path c (c.holds ctx)]
  | branch c left right =>
    left.explained ctx (path ++ ".left") ++ right.explained ctx (path ++ ".right") ++
      [Trace.branchLine path c (left.meaning ctx) (right.meaning ctx)]

end Tree

namespace Trace

/-! ## The traced loop -/

abbrev State := List Step × List Bool × Notes

def step? (ctx : Context) (wanted : Bool) : State → Option State
  | ([], _, _) => none
  | (.visit .empty _ :: steps, values, notes) => some (steps, false :: values, notes)
  | (.visit (.leaf c) path :: steps, values, notes) =>
    some (steps, c.holds ctx :: values, notes.condition wanted path c (c.holds ctx))
  | (.visit (.branch c left right) path :: steps, values, notes) =>
    some (.visit left (path ++ ".left") :: .visit right (path ++ ".right") ::
      .combine c path :: steps, values, notes)
  | (.combine c path :: steps, values, notes) =>
    let (right, values) := Tree.popValue values
    let (left, values) := Tree.popValue values
    some (steps, c.apply left right :: values, notes.line wanted (branchLine path c left right))

abbrev Steps (ctx : Context) (wanted : Bool) : State → State → Prop :=
  Relation.ReflTransGen fun a b => step? ctx wanted a = some b

/-- The notes after a subtree has been decided. -/
def Notes.after (notes : Notes) (wanted : Bool) (ctx : Context) (path : String) (t : Tree) :
    Notes :=
  ⟨(t.matched ctx path).reverse ++ notes.conditions,
    if wanted then (t.explained ctx path).reverse ++ notes.lines else notes.lines⟩

def Step.plain : Step → Tree.Step
  | visit t _ => .visit t
  | combine c _ => .combine c

/-- A state of the traced loop as the plain one has it. -/
def plain (a : State) : List Tree.Step × List Bool :=
  (a.1.map Step.plain, a.2.1)

section Traced

variable {ctx : Context} {wanted : Bool}

theorem runSteps_eq (ctx : Context) (wanted : Bool) (a : State) :
    runSteps ctx wanted a.1 a.2.1 a.2.2 =
      (step? ctx wanted a).elim a.2 fun b => runSteps ctx wanted b.1 b.2.1 b.2.2 := by
  rcases a with ⟨_ | ⟨⟨_ | c | ⟨c, left, right⟩, path⟩ | ⟨c, path⟩, steps⟩, values, notes⟩
  all_goals
    rw [runSteps]
    rfl

/-- Without paths and notes a turn of the traced loop is one of the plain loop. -/
theorem plain_of_steps {a b : State} (h : Steps ctx wanted a b) :
    Tree.Steps ctx (plain a) (plain b) := by
  induction h with
  | refl => exact .refl
  | @tail a b _ hstep ih =>
      refine ih.tail ?_
      rcases a with ⟨_ | ⟨⟨_ | c | ⟨c, left, right⟩, path⟩ | ⟨c, path⟩, steps⟩, values, notes⟩
      all_goals
        cases hstep
      all_goals
        rfl

theorem condition_eq_after (notes : Notes) (path : String) (c : Condition) :
    notes.condition wanted path c (c.holds ctx) = notes.after wanted ctx path (.leaf c) := by
  rw [Notes.condition, Notes.line, Notes.after, Tree.matched, Tree.explained]
  cases wanted <;> cases c.holds ctx <;> rfl

theorem line_eq_after (notes : Notes) (path : String) (c : Connective) (left right : Tree) :
    ((notes.after wanted ctx (path ++ ".left") left).after wanted ctx (path ++ ".right") right).line
        wanted (branchLine path c (left.meaning ctx) (right.meaning ctx)) =
      notes.after wanted ctx path (.branch c left right) := by
  rw [Notes.line, Notes.after, Notes.after, Notes.after, Tree.matched, Tree.explained]
  cases wanted <;> simp

/-- Deciding a subtree puts its meaning on top, takes the notes of all its nodes
and leaves the rest of both stacks alone. -/
theorem steps_visit (t : Tree) (path : String) (rest : List Step) (below : List Bool)
    (notes : Notes) : Steps ctx wanted (.visit t path :: rest, below, notes)
      (rest, t.meaning ctx :: below, notes.after wanted ctx path t) := by
  induction t generalizing path rest below notes with
  | empty =>
      have hafter : notes.after wanted ctx path .empty = notes := by
        rw [Notes.after]
        cases wanted <;> rfl
      rw [hafter]
      exact .single rfl
  | leaf c =>
      rw [← condition_eq_after]
      exact .single rfl
  | branch c left right ihl ihr =>
      have hleft := ihl (path ++ ".left")
        (.visit right (path ++ ".right") :: .combine c path :: rest) below notes
      have hright := ihr (path ++ ".right") (.combine c path :: rest) (left.meaning ctx :: below)
        (notes.after wanted ctx (path ++ ".left") left)
      rw [← line_eq_after]
      exact .head rfl (hleft.trans (hright.trans (.single rfl)))

/-- All that a traced run returns. -/
theorem run_eq (wanted : Bool) (r : Rule) (ctx : Context) :
    run wanted r ctx = ⟨r.id, r.root.meaning ctx, r.root.matched ctx "root",
      if wanted then
        if r.root.isEmpty then [rootlessLine] else r.root.explained ctx "root"
      else []⟩ := by
  rw [run]
  split
  · next hempty =>
      have hroot : r.root = .empty := by
        cases h : r.root with
        | empty => rfl
        | leaf c => rw [h] at hempty; cases hempty
        | branch c left right => rw [h] at hempty; cases hempty
      rw [hroot]
      rfl
  · have h := Tree.eq_of_turns (runSteps_eq ctx wanted) (steps_visit r.root "root" [] [] ⟨[], []⟩)
    rw [h, runSteps, Notes.after]
    cases wanted <;> simp [Tree.popValue]

end Traced

end Trace

theorem Rule.evaluate_eq (r : Rule) (ctx : Context) : r.evaluate ctx = r.root.meaning ctx := by
  rw [Rule.evaluate, Tree.evaluate_eq]
  cases r.root <;> rfl

/-- Whatever decides a rule comes to the meaning of its tree, traced or not, and
what is noted of the conditions is the same whether the lines are wanted or not.
Both loops come to their end with that value alone, and in every state that they
come to a connective finds the meanings of its two operands on top. -/
theorem evaluate_run_eq_meaning (r : Rule) (ctx : Context) :
    (r.root.evaluate ctx = r.root.meaning ctx ∧ r.evaluate ctx = r.root.meaning ctx ∧
      ∀ wanted, (Trace.run wanted r ctx).isMatch = r.root.meaning ctx ∧
        (Trace.run wanted r ctx).matchedConditions = r.root.matched ctx "root") ∧
    ((∀ a, Tree.runSteps ctx a.1 a.2 =
        (Tree.step? ctx a).elim a.2 fun b => Tree.runSteps ctx b.1 b.2) ∧
      Tree.Steps ctx ([.visit r.root], []) ([], [r.root.meaning ctx]) ∧
      (∀ values, Tree.Steps ctx ([.visit r.root], []) ([], values) →
        values = [r.root.meaning ctx]) ∧
      ∀ c steps values, Tree.Steps ctx ([.visit r.root], []) (.combine c :: steps, values) →
        ∃ left right below, values = right.meaning ctx :: left.meaning ctx :: below ∧
          Tree.Steps ctx ([.visit r.root], []) (.visit (.branch c left right) :: steps, below)) ∧
    ∀ wanted path notes,
      (∀ a, Trace.runSteps ctx wanted a.1 a.2.1 a.2.2 =
        (Trace.step? ctx wanted a).elim a.2 fun b => Trace.runSteps ctx wanted b.1 b.2.1 b.2.2) ∧
      (∃ notes', Trace.Steps ctx wanted ([.visit r.root path], [], notes)
        ([], [r.root.meaning ctx], notes')) ∧
      (∀ values notes', Trace.Steps ctx wanted ([.visit r.root path], [], notes)
        ([], values, notes') → values = [r.root.meaning ctx]) ∧
      ∀ c path' steps values notes', Trace.Steps ctx wanted ([.visit r.root path], [], notes)
          (.combine c path' :: steps, values, notes') →
        ∃ left right below, values = right.meaning ctx :: left.meaning ctx :: below ∧
          Tree.Steps ctx ([.visit r.root], [])
            (.visit (.branch c left right) :: steps.map Trace.Step.plain, below) := by
  refine ⟨⟨Tree.evaluate_eq _ _, r.evaluate_eq ctx, fun wanted => ?_⟩,
    ⟨Tree.runSteps_eq ctx, Tree.steps_visit _ _ _, fun _ => Tree.values_of_steps,
      fun _ _ _ => Tree.combine_of_steps⟩, fun wanted path notes =>
    ⟨Trace.runSteps_eq ctx wanted, ⟨_, Trace.steps_visit _ _ _ _ _⟩, ?_, ?_⟩⟩
  · rw [Trace.run_eq]
    exact ⟨rfl, rfl⟩
  · exact fun values notes' h => Tree.values_of_steps (Trace.plain_of_steps h)
  · exact fun c path' steps values notes' h => Tree.combine_of_steps (Trace.plain_of_steps h)

/-- A branch without its left child under one whose operands differ. -/
theorem evaluate_run_eq_meaning_missing_child :
    let t : Tree :=
      .branch .and (.branch .or .empty (.ofCondition "age > 30")) (.ofCondition "age >")
    let ctx := Context.empty.insert "age" (.integer 35)
    (Trace.run false ⟨1, "", t⟩ ctx).isMatch = false ∧
      (Trace.run true ⟨1, "", t⟩ ctx).matchedConditions = ["root.left.right: age > 30"] ∧
      ∀ steps values, Tree.Steps ctx ([.visit t], []) (.combine .or :: steps, values) →
        ∃ left right below, values = right :: left :: below := by
  intro t ctx
  obtain ⟨⟨-, -, hrun⟩, ⟨-, -, -, hcombine⟩, -⟩ := evaluate_run_eq_meaning ⟨1, "", t⟩ ctx
  refine ⟨(hrun false).1.trans (by decide +kernel), (hrun true).2.trans (by decide +kernel), ?_⟩
  intro steps values h
  obtain ⟨left, right, below, hvalues, -⟩ := hcombine _ _ _ h
  exact ⟨_, _, _, hvalues⟩

end Criteria
