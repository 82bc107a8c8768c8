import Criteria.Tree.Walk

/-!
# What a walk meets

A walk keeps a stack of subtrees, none of them empty, and meets what the
recursion on the tree would meet: from any stack on, the nodes of the subtrees
in the order of the stack. The walk that looks for the deepest level has the levels
of its subtrees on the stack, and finds the height of the tree.
-/

namespace Criteria.Tree

def Present (stack : List Tree) : Prop :=
  ∀ t ∈ stack, t.isEmpty = false

theorem present_pushPresent {stack : List Tree} (h : Present stack) (t : Tree) :
    Present (pushPresent t stack) := by
  rw [pushPresent]
  split
  · exact h
  · next hne =>
      intro t' ht'
      rcases List.mem_cons.1 ht' with rfl | ht'
      · simpa using hne
      · exact h t' ht'

theorem flatMap_preorder_pushPresent (t : Tree) (stack : List Tree) :
    (pushPresent t stack).flatMap preorder = t.preorder ++ stack.flatMap preorder := by
  cases t <;> rfl

theorem next?_none {stack : List Tree} (h : next? stack = none) : stack = [] := by
  rcases stack with _ | ⟨_ | c | ⟨c, left, right⟩, stack⟩
  · rfl
  · cases h
  · cases h
  · cases h

/-- One step of a walk takes the first of the nodes that are left to meet. -/
theorem next?_some {stack rest : List Tree} {t : Tree} (hstack : Present stack)
    (h : next? stack = some (t, rest)) :
    Present rest ∧ stack.flatMap preorder = t :: rest.flatMap preorder := by
  rcases stack with _ | ⟨_ | c | ⟨c, left, right⟩, stack⟩
  · cases h
  · exact absurd (hstack empty List.mem_cons_self) (by simp [isEmpty])
  · cases h
    exact ⟨fun t ht => hstack t (List.mem_cons_of_mem _ ht), rfl⟩
  · cases h
    have hpresent : Present stack := fun t ht => hstack t (List.mem_cons_of_mem _ ht)
    refine ⟨present_pushPresent (present_pushPresent hpresent right) left, ?_⟩
    rw [flatMap_preorder_pushPresent, flatMap_preorder_pushPresent, List.flatMap_cons, preorder,
      List.cons_append, List.append_assoc]

theorem walkFrom_eq {stack met : List Tree} (h : Present stack) :
    walkFrom stack met = met.reverse ++ stack.flatMap preorder := by
  induction stack, met using walkFrom.induct with
  | case1 stack met hnext =>
      obtain rfl := next?_none hnext
      rw [walkFrom]
      simp [next?]
  | case2 stack met t rest hnext ih =>
      obtain ⟨hrest, hmeet⟩ := next?_some h hnext
      rw [walkFrom]
      split
      · next h' => rw [h'] at hnext; cases hnext
      · next h' =>
          rw [h'] at hnext
          cases hnext
          rw [ih hrest, hmeet, List.reverse_cons, List.append_assoc, List.singleton_append]

theorem nodes_eq_preorder (t : Tree) : t.nodes = t.preorder := by
  have hstack : Present (pushPresent t []) := present_pushPresent (fun _ h => by cases h) t
  rw [nodes, walkFrom_eq hstack, flatMap_preorder_pushPresent]
  simp

theorem leaves_eq_conditions (t : Tree) : t.leaves = t.conditions := by
  rw [leaves, nodes_eq_preorder]
  induction t with
  | empty => rfl
  | leaf c => rfl
  | branch c left right ihl ihr =>
      rw [preorder, List.filterMap_cons, List.filterMap_append, ihl, ihr]
      rfl

theorem nodes_empty : empty.nodes = [] :=
  nodes_eq_preorder _

theorem nodes_leaf (c : Condition) : (leaf c).nodes = [leaf c] :=
  nodes_eq_preorder _

theorem nodes_branch (c : Connective) (left right : Tree) :
    (branch c left right).nodes = branch c left right :: (left.nodes ++ right.nodes) := by
  rw [nodes_eq_preorder, nodes_eq_preorder, nodes_eq_preorder, preorder]

theorem nodeCount_leaf (c : Condition) : (leaf c).nodeCount = 1 := by
  rw [nodeCount, nodes_leaf, List.length_singleton]

theorem nodeCount_branch (c : Connective) (left right : Tree) :
    (branch c left right).nodeCount = left.nodeCount + right.nodeCount + 1 := by
  rw [nodeCount, nodes_branch, List.length_cons, List.length_append, nodeCount, nodeCount]

theorem leaves_leaf (c : Condition) : (leaf c).leaves = [c] :=
  leaves_eq_conditions _

theorem leaves_branch (c : Connective) (left right : Tree) :
    (branch c left right).leaves = left.leaves ++ right.leaves := by
  rw [leaves_eq_conditions, leaves_eq_conditions, leaves_eq_conditions, conditions]

theorem forall_mem_leaves_branch {c : Connective} {left right : Tree} {p : Condition → Prop} :
    (∀ d ∈ (branch c left right).leaves, p d) ↔
      (∀ d ∈ left.leaves, p d) ∧ ∀ d ∈ right.leaves, p d := by
  rw [leaves_branch, List.forall_mem_append]

/-! ## Levels -/

/-- The deepest level at which the subtrees on a stack have a node. -/
def deepestOf (stack : List (Tree × Nat)) : Nat :=
  stack.foldr (fun p deepest => max (p.2 + p.1.height - 1) deepest) 0

theorem deepestOf_cons (t : Tree) (level : Nat) (stack : List (Tree × Nat)) :
    deepestOf ((t, level) :: stack) = max (level + t.height - 1) (deepestOf stack) :=
  rfl

theorem height_eq_zero {t : Tree} : t.height = 0 ↔ t.isEmpty = true := by
  cases t <;> simp [height, isEmpty]

/-- A node reaches as deep as its own level and its children do. -/
theorem deepestOf_levelled {t : Tree} (ht : t.isEmpty = false) (level : Nat)
    (stack : List (Tree × Nat)) :
    max level (deepestOf (t.levelled level ++ stack)) = deepestOf ((t, level) :: stack) := by
  cases t with
  | empty => cases ht
  | leaf c => rfl
  | branch c left right =>
      have hleft := height_eq_zero (t := left)
      have hright := height_eq_zero (t := right)
      rw [deepestOf_cons, height]
      cases hl : left.isEmpty <;> cases hr : right.isEmpty <;>
        simp only [hl, hr, levelled, children, List.filter, Bool.not_true, Bool.not_false,
          List.map_cons, List.map_nil, List.reverse_cons, List.reverse_nil, List.nil_append,
          List.cons_append, deepestOf_cons, iff_true] at hleft hright ⊢ <;>
        omega

theorem map_fst_levelled (t : Tree) (level : Nat) :
    (t.levelled level).map (·.1) = t.children.reverse := by
  rw [levelled, List.map_reverse, List.map_map]
  exact congrArg List.reverse (List.map_id _)

theorem present_of_mem_levelled {t : Tree} {level : Nat} {p : Tree × Nat}
    (hp : p ∈ t.levelled level) : p.1.isEmpty = false := by
  have hchild : p.1 ∈ t.children := by
    rw [← List.mem_reverse, ← map_fst_levelled t level]
    exact List.mem_map_of_mem hp
  cases t with
  | empty | leaf c => cases hchild
  | branch c left right => simpa using (List.mem_filter.1 hchild).2

theorem depthFrom_eq {stack : List (Tree × Nat)} {deepest : Nat}
    (h : ∀ p ∈ stack, p.1.isEmpty = false) :
    depthFrom stack deepest = max deepest (deepestOf stack) := by
  induction stack, deepest using depthFrom.induct with
  | case1 deepest =>
      rw [depthFrom]
      exact (Nat.max_zero deepest).symm
  | case2 deepest t level rest ih =>
      obtain ⟨ht, hrest⟩ := List.forall_mem_cons.1 h
      have hstack : ∀ p ∈ t.levelled level ++ rest, p.1.isEmpty = false := fun p hp =>
        (List.mem_append.1 hp).elim present_of_mem_levelled (hrest p)
      rw [depthFrom, ih hstack, Nat.max_assoc, deepestOf_levelled ht]

theorem depth_eq_height (t : Tree) : t.depth = t.height := by
  rw [depth]
  split
  · next hempty => exact (height_eq_zero.2 hempty).symm
  · next hne =>
      rw [depthFrom_eq (by simpa using hne), deepestOf_cons]
      show max 0 (max (1 + t.height - 1) 0) = _
      omega

end Criteria.Tree
