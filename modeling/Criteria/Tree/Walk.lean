import Criteria.Tree.Basic

/-!
Walks over a tree with an explicit stack of subtrees. A rule may be a chain of any length, so nothing
that runs on stored trees recurses into them: a walk pops a subtree, deals with its root and
pushes the children that are present. The measures of `Criteria.Tree.Basic` say what the walks
compute.
-/

namespace Criteria.Tree

def stackWeight (stack : List Tree) : Nat :=
  stack.foldr (·.weight + ·) 0

/-- Pushes a subtree unless it is empty. -/
def pushPresent (t : Tree) (stack : List Tree) : List Tree :=
  if t.isEmpty then stack else t :: stack

theorem stackWeight_pushPresent_le (t : Tree) (stack : List Tree) :
    stackWeight (pushPresent t stack) ≤ t.weight + stackWeight stack := by
  unfold pushPresent
  split
  · exact Nat.le_add_left ..
  · simp [stackWeight]

/-- The next subtree of a walk and what is left on the stack. -/
def next? : List Tree → Option (Tree × List Tree)
  | [] => none
  | branch c left right :: stack =>
    some (branch c left right, pushPresent left (pushPresent right stack))
  | t :: stack => some (t, stack)

theorem stackWeight_next?_lt {stack rest : List Tree} {t : Tree}
    (h : next? stack = some (t, rest)) : stackWeight rest < stackWeight stack := by
  match stack with
  | [] => simp [next?] at h
  | empty :: stack =>
    simp only [next?, Option.some.injEq, Prod.mk.injEq] at h
    simp [← h.2, stackWeight, weight]
  | leaf c :: stack =>
    simp only [next?, Option.some.injEq, Prod.mk.injEq] at h
    simp [← h.2, stackWeight, weight]
  | branch c left right :: stack =>
    simp only [next?, Option.some.injEq, Prod.mk.injEq] at h
    have h₁ := stackWeight_pushPresent_le left (pushPresent right stack)
    have h₂ := stackWeight_pushPresent_le right stack
    rw [← h.2]
    simp only [stackWeight, List.foldr_cons, weight] at h₁ h₂ ⊢
    omega

/-- The subtrees that a walk meets from a stack on, after those met before in reverse order. -/
def walkFrom (stack met : List Tree) : List Tree :=
  match _h : next? stack with
  | none => met.reverse
  | some (t, rest) => walkFrom rest (t :: met)
termination_by stackWeight stack
decreasing_by exact stackWeight_next?_lt _h

/-- The nodes of a tree as subtrees, in the order of a walk that goes left first. -/
def nodes (t : Tree) : List Tree :=
  walkFrom (pushPresent t []) []

def nodeCount (t : Tree) : Nat :=
  t.nodes.length

/-- The children of a node that stands at `level`, with their level; the right one is on top. -/
def levelled (t : Tree) (level : Nat) : List (Tree × Nat) :=
  (t.children.map (·, level + 1)).reverse

theorem stackWeight_levelled_lt (t : Tree) (level : Nat) (stack : List Tree) :
    stackWeight ((t.levelled level).map (·.1) ++ stack) < t.weight + stackWeight stack := by
  cases t with
  | empty => simp [levelled, children, weight]
  | leaf c => simp [levelled, children, weight]
  | branch c left right =>
    cases hleft : left.isEmpty <;> cases hright : right.isEmpty
    all_goals
      simp only [levelled, children, List.filter, hleft, hright, Bool.not_true, Bool.not_false,
        List.map_cons, List.map_nil, List.reverse_cons, List.reverse_nil, List.nil_append,
        List.cons_append, stackWeight, List.foldr_cons, weight]
      omega

/-- The deepest level that a walk meets, given the deepest one so far. -/
def depthFrom (stack : List (Tree × Nat)) (deepest : Nat) : Nat :=
  match stack with
  | [] => deepest
  | (t, level) :: rest => depthFrom (t.levelled level ++ rest) (max deepest level)
termination_by stackWeight (stack.map (·.1))
decreasing_by
  rw [List.map_append]
  exact stackWeight_levelled_lt t level (rest.map (·.1))

/-- The depth of a tree: its root is at level one. -/
def depth (t : Tree) : Nat :=
  if t.isEmpty then 0 else depthFrom [(t, 1)] 0

def leaves (t : Tree) : List Condition :=
  t.nodes.filterMap condition?

end Criteria.Tree
