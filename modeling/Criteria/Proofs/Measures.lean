import Criteria.Proofs.Faults
import Criteria.Proofs.Tracing
import Criteria.Service

/-!
# What is measured of a tree

No measure of a tree is taken by recursion on it: a walk has the pending subtrees
on a stack and deals with one of them at a time. What the walks find is
nevertheless what recursion over the children that are present would find
(`nodes_eq_preorder`, `depth_eq_height`), whichever of them is visited first
(`depthFrom_perm`).

The paths of a tree say the same without any recursion. `Tree.paths` lists those
that lead to a node, each before the longer ones through it and the left before the
right; the nodes of a walk are what they lead to, and the depth is one more than the
longest of them. So a text is refused for its depth only if one of its nodes does
lie too deep, and the condition that strict mode finds fault with is the first of
the tree.
-/

namespace Criteria

/-- The order in which a node comes before its subtrees, and the left one of them before
the right one. -/
inductive Path.Ahead : Path → Path → Prop where
  | above (s : Side) (p : Path) : Ahead [] (s :: p)
  | across (p q : Path) : Ahead (.left :: p) (.right :: q)
  | under (s : Side) {p q : Path} (h : Ahead p q) : Ahead (s :: p) (s :: q)

theorem Path.Ahead.irrefl {p : Path} (h : Ahead p p) : False := by
  induction p with
  | nil => cases h
  | cons s p ih =>
      cases h with
      | under _ h => exact ih h

namespace Tree

/-! ## Paths in the order of a walk -/

/-- The paths that lead to a node, in the order in which a walk meets the nodes. -/
def paths : Tree → List Path
  | empty => []
  | leaf _ => [[]]
  | branch _ left right => [] :: (left.paths.map (.left :: ·) ++ right.paths.map (.right :: ·))

/-- A list of the paths to all nodes of a tree, none of them twice, in the order in which
a walk that goes left first meets the nodes. -/
structure IsPreorder (t : Tree) (paths : List Path) : Prop where
  mem_iff : ∀ p, p ∈ paths ↔ (t.at? p).isSome
  ordered : paths.Pairwise Path.Ahead

theorem mem_paths {t : Tree} {p : Path} : p ∈ t.paths ↔ (t.at? p).isSome := by
  induction t generalizing p with
  | empty => simp [paths, at?]
  | leaf c => cases p <;> simp [paths, at?]
  | branch c left right ihl ihr =>
      rcases p with _ | ⟨_ | _, p⟩
      · simp [paths, at?]
      · simp [paths, at?, ihl]
      · simp [paths, at?, ihr]

theorem ordered_paths (t : Tree) : t.paths.Pairwise Path.Ahead := by
  induction t with
  | empty => exact .nil
  | leaf c => exact List.pairwise_singleton _ _
  | branch c left right ihl ihr =>
      rw [paths, List.pairwise_cons, List.pairwise_append]
      refine ⟨fun p hp => ?_, ?_, ?_, ?_⟩
      · rcases List.mem_append.1 hp with hp | hp
        · obtain ⟨p, -, rfl⟩ := List.mem_map.1 hp
          exact .above .left p
        · obtain ⟨p, -, rfl⟩ := List.mem_map.1 hp
          exact .above .right p
      · exact List.pairwise_map.2 (ihl.imp fun h => .under .left h)
      · exact List.pairwise_map.2 (ihr.imp fun h => .under .right h)
      · intro p hp q hq
        obtain ⟨p, -, rfl⟩ := List.mem_map.1 hp
        obtain ⟨q, -, rfl⟩ := List.mem_map.1 hq
        exact .across p q

theorem isPreorder_paths (t : Tree) : t.IsPreorder t.paths :=
  ⟨fun _ => mem_paths, t.ordered_paths⟩

theorem nodup_paths (t : Tree) : t.paths.Nodup :=
  t.ordered_paths.imp fun h heq => (heq ▸ h).irrefl

theorem map_at?_paths (t : Tree) : t.paths.map t.at? = t.preorder.map some := by
  induction t with
  | empty => rfl
  | leaf c => rfl
  | branch c left right ihl ihr =>
      rw [paths, preorder, List.map_cons, List.map_append, List.map_map, List.map_map, List.map_cons,
        List.map_append, ← ihl, ← ihr]
      rfl

theorem length_paths (t : Tree) : t.paths.length = t.size := by
  induction t with
  | empty => rfl
  | leaf c => rfl
  | branch c left right ihl ihr =>
      rw [paths, List.length_cons, List.length_append, List.length_map, List.length_map, ihl, ihr, size]

theorem length_lt_height {t : Tree} {p : Path} (h : (t.at? p).isSome) : p.length < t.height := by
  induction t generalizing p with
  | empty => cases h
  | leaf c =>
      cases p with
      | nil => exact Nat.zero_lt_one
      | cons s p => cases h
  | branch c left right ihl ihr =>
      rw [height]
      rcases p with _ | ⟨_ | _, p⟩
      · exact Nat.succ_pos _
      · have := ihl h
        rw [List.length_cons]
        omega
      · have := ihr h
        rw [List.length_cons]
        omega

theorem exists_length_height {t : Tree} (ht : 0 < t.height) :
    ∃ p ∈ t.paths, p.length + 1 = t.height := by
  induction t with
  | empty => cases ht
  | leaf c => exact ⟨[], List.mem_cons_self, rfl⟩
  | branch c left right ihl ihr =>
      rw [paths, height]
      -- The way goes on into the higher child, or ends at a branch that has none.
      by_cases hl : 0 < left.height ∧ right.height ≤ left.height
      · obtain ⟨p, hp, hlength⟩ := ihl hl.1
        refine ⟨.left :: p, List.mem_cons_of_mem _ (List.mem_append_left _
          (List.mem_map_of_mem hp)), ?_⟩
        rw [List.length_cons]
        omega
      · by_cases hr : 0 < right.height
        · obtain ⟨p, hp, hlength⟩ := ihr hr
          refine ⟨.right :: p, List.mem_cons_of_mem _ (List.mem_append_right _
            (List.mem_map_of_mem hp)), ?_⟩
          rw [List.length_cons]
          omega
        · refine ⟨[], List.mem_cons_self, ?_⟩
          rw [List.length_nil]
          omega

theorem height_pos {t : Tree} (ht : t ≠ empty) : 0 < t.height := by
  cases t with
  | empty => exact absurd rfl ht
  | leaf c => exact Nat.zero_lt_one
  | branch c left right => exact Nat.succ_pos _

/-! ## Recursion over the children that are present -/

theorem isEmpty_eq_false {t : Tree} (ht : t ≠ empty) : t.isEmpty = false := by
  cases t with
  | empty => exact absurd rfl ht
  | leaf c | branch c left right => rfl

theorem preorder_eq_children {t : Tree} (ht : t ≠ empty) :
    t.preorder = t :: t.children.flatMap preorder := by
  cases t with
  | empty => exact absurd rfl ht
  | leaf c => rfl
  | branch c left right =>
      cases left <;> cases right <;> simp [preorder, children, isEmpty]

theorem size_eq_children {t : Tree} (ht : t ≠ empty) :
    t.size = (t.children.map size).sum + 1 := by
  cases t with
  | empty => exact absurd rfl ht
  | leaf c => rfl
  | branch c left right =>
      cases left <;> cases right <;> simp [size, children, isEmpty]

theorem height_eq_children {t : Tree} (ht : t ≠ empty) :
    t.height = (t.children.map height).foldr max 0 + 1 := by
  cases t with
  | empty => exact absurd rfl ht
  | leaf c => rfl
  | branch c left right =>
      cases left <;> cases right <;> simp [height, children, isEmpty]

theorem nodeCount_eq_size (t : Tree) : t.nodeCount = t.size := by
  rw [nodeCount, nodes_eq_preorder, ← length_paths, ← List.length_map t.at?, map_at?_paths,
    List.length_map]

/-- The walk finds the same depth whichever of the pending subtrees it visits first. -/
theorem depthFrom_perm {stack stack' : List (Tree × Nat)} (hperm : stack.Perm stack')
    (h : ∀ p ∈ stack, p.1.isEmpty = false) (deepest : Nat) :
    depthFrom stack deepest = depthFrom stack' deepest := by
  rw [depthFrom_eq h, depthFrom_eq fun p hp => h p (hperm.mem_iff.2 hp), deepestOf, deepestOf]
  refine congrArg (max deepest) (hperm.foldr_eq' (fun p _ q _ rest => ?_) 0)
  exact Nat.max_left_comm _ _ rest

theorem depthFrom_levelled {t : Tree} (ht : t ≠ empty) {stack : List (Tree × Nat)}
    (hstack : stack.Perm (t.levelled 1)) : depthFrom stack 1 = t.depth := by
  rw [depthFrom_perm hstack fun p hp => present_of_mem_levelled (hstack.mem_iff.1 hp),
    depth, if_neg (by simp [isEmpty_eq_false ht]), depthFrom, List.append_nil]
  rfl

/-! ## The first condition with a fault -/

theorem findSome?_filterMap_condition? {α : Type} (check : Condition → Option α) (nodes : List Tree) :
    (nodes.filterMap condition?).findSome? check = nodes.findSome? (·.condition?.bind check) := by
  induction nodes with
  | nil => rfl
  | cons t nodes ih =>
      rw [List.filterMap_cons, List.findSome?_cons, ← ih]
      cases t.condition? with
      | none => rfl
      | some c => rw [List.findSome?_cons, Option.bind_some]

/-- What is found among the leaves is found at the first node that is a leaf of that kind. -/
theorem findSome?_leaves {α : Type} {t : Tree} {check : Condition → Option α} {found : α} :
    t.leaves.findSome? check = some found ↔ ∃ before c after,
      t.preorder = before ++ leaf c :: after ∧ check c = some found ∧
        ∀ b, leaf b ∈ before → check b = none := by
  rw [leaves, nodes_eq_preorder, findSome?_filterMap_condition?, List.findSome?_eq_some_iff]
  constructor
  · rintro ⟨before, s, after, hsplit, hfound, hbefore⟩
    cases s with
    | empty | branch c left right => cases hfound
    | leaf c => exact ⟨before, c, after, hsplit, hfound, fun b hb => hbefore _ hb⟩
  · rintro ⟨before, c, after, hsplit, hfound, hbefore⟩
    refine ⟨before, leaf c, after, hsplit, hfound, fun s hs => ?_⟩
    cases s with
    | empty | branch c left right => rfl
    | leaf b => exact hbefore b hs

theorem strict_parse_error_iff_first {text : String}
    (hparentheses : checkParentheses 0 0 text.toList = none) {fault : ParseFault} :
    Mode.strict.parse text = .error fault ↔ ∃ before c after,
      (parse text).preorder = before ++ leaf c :: after ∧ checkCondition c = some fault ∧
        ∀ b, leaf b ∈ before → checkCondition b = none := by
  rw [strict_parse_error_iff, fault?, hparentheses, Option.none_or, findSome?_leaves]

end Tree

/-- A tree is too deep if a path leads too deep, and only then. -/
theorem Tree.lt_depth_iff {t : Tree} {limit : Nat} (ht : t ≠ .empty) :
    limit < t.depth ↔ ∃ p ∈ t.paths, limit ≤ p.length := by
  rw [depth_eq_height]
  constructor
  · intro h
    obtain ⟨p, hp, hlength⟩ := exists_length_height (height_pos ht)
    exact ⟨p, hp, by omega⟩
  · rintro ⟨p, hp, hlimit⟩
    exact Nat.lt_of_le_of_lt hlimit (length_lt_height (mem_paths.1 hp))

/-- What the walks over a tree find is what recursion finds: the nodes are the root, then those of
the left subtree if there is one, then those of the right one; they are as many as the nodes of the
children and one more; and the depth is one more than the greatest of the children's, in whatever
order these are visited. The nodes are what the paths lead to, and a longest path is one shorter
than the depth. So a text is refused for its depth just if one of its nodes has too many above
it, and the fault that strict mode finds with a condition is that of the first node that
has one. -/
theorem walks_measure_tree {t : Tree} (ht : t ≠ .empty) :
    (t.nodes = t.preorder ∧ t.nodes = t :: t.children.flatMap Tree.nodes) ∧
    (t.nodeCount = t.size ∧ t.nodeCount = (t.children.map Tree.nodeCount).sum + 1) ∧
    (t.depth = t.height ∧ t.depth = (t.children.map Tree.depth).foldr max 0 + 1 ∧
      ∀ stack, stack.Perm (t.levelled 1) → Tree.depthFrom stack 1 = t.depth) ∧
    (t.IsPreorder t.paths ∧ t.nodes.map some = t.paths.map t.at?) ∧
    ((∀ p ∈ t.paths, p.length < t.depth) ∧ ∃ p ∈ t.paths, p.length + 1 = t.depth) ∧
    (∀ {σ : Type} (svc : Service σ) (text : String), svc.mode.parse text = .ok t →
      svc.read text =
        if ∃ p ∈ t.paths, maxDepth ≤ p.length then .error (Service.tooDeep t.depth) else .ok t) ∧
    ∀ (text : String) (fault : ParseFault), Tree.parse text = t →
      Tree.checkParentheses 0 0 text.toList = none →
      (Mode.strict.parse text = .error fault ↔ ∃ before c after,
        t.nodes = before ++ .leaf c :: after ∧ Tree.checkCondition c = some fault ∧
          ∀ b, .leaf b ∈ before → Tree.checkCondition b = none) := by
  have hnodes : Tree.nodes = Tree.preorder := funext Tree.nodes_eq_preorder
  have hcount : Tree.nodeCount = Tree.size := funext Tree.nodeCount_eq_size
  have hdepth : Tree.depth = Tree.height := funext Tree.depth_eq_height
  refine ⟨⟨t.nodes_eq_preorder, ?_⟩, ⟨t.nodeCount_eq_size, ?_⟩,
    ⟨t.depth_eq_height, ?_, fun stack => Tree.depthFrom_levelled ht⟩,
    ⟨t.isPreorder_paths, ?_⟩, ⟨fun p hp => ?_, ?_⟩, fun svc text hparse => ?_,
    fun text fault hparse hparentheses => ?_⟩
  · rw [hnodes]
    exact Tree.preorder_eq_children ht
  · rw [hcount]
    exact Tree.size_eq_children ht
  · rw [hdepth]
    exact Tree.height_eq_children ht
  · rw [hnodes, Tree.map_at?_paths]
  · exact (Tree.lt_depth_iff ht).2 ⟨p, hp, Nat.le_refl _⟩
  · rw [hdepth]
    exact Tree.exists_length_height (Tree.height_pos ht)
  · simp only [Service.read, hparse, Tree.lt_depth_iff ht]
  · rw [hnodes, ← hparse]
    exact Tree.strict_parse_error_iff_first hparentheses

/-- A branch without its left child, beside a condition in two words that strict mode refuses
for it. -/
theorem walks_measure_tree_missing_child :
    let t : Tree := .branch .or (.branch .and .empty (.ofCondition "age > 30")) (.ofCondition "age >")
    t ≠ .empty ∧ t.nodes = [t, .branch .and .empty (.ofCondition "age > 30"),
      .ofCondition "age > 30", .ofCondition "age >"] ∧ t.nodeCount = 4 ∧ t.depth = 3 := by
  intro t
  have ht : t ≠ .empty := by decide
  obtain ⟨⟨hnodes, -⟩, ⟨hcount, -⟩, ⟨hdepth, -⟩, -⟩ := walks_measure_tree ht
  exact ⟨ht, hnodes, hcount, hdepth⟩

end Criteria
