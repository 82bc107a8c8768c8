import Criteria.Proofs.Deciding
import Criteria.Proofs.Walks

/-!
# A trace is complete and truthful

`Trace.run_eq` gives the notes of a traced run by recursion on the tree, with the
path of each node put together on the way down. This file says where the nodes
are: a path is a list of steps to the left or right, `Tree.at?` follows it from the
root, and `Tree.postorder` lists all paths that lead to a node, in the order in
which nodes are decided (`Tree.IsPostorder`). The lines of a trace are those of
these nodes one by one, each with the value that `Tree.evaluate` has at its node.

No path has a colon in it, so the path of a line is what stands before its first
colon, and two lines never have the same one.
-/

namespace Criteria

/-- A step from a node down to one of its children. -/
inductive Side where
  | left
  | right
  deriving DecidableEq, Repr

/-- The steps from the root of a tree down to a node. -/
abbrev Path := List Side

def Side.text : Side → String
  | left => ".left"
  | right => ".right"

namespace Path

/-! ## Paths -/

/-- A path in writing, below a node whose own path is written already. -/
def textFrom (above : String) : Path → String
  | [] => above
  | s :: p => textFrom (above ++ s.text) p

def text (p : Path) : String :=
  textFrom "root" p

/-- The order in which a node comes after its subtrees, and the left one of them before
the right one. -/
inductive Before : Path → Path → Prop where
  | inside (s : Side) (p : Path) : Before (s :: p) []
  | across (p q : Path) : Before (.left :: p) (.right :: q)
  | under (s : Side) {p q : Path} (h : Before p q) : Before (s :: p) (s :: q)

theorem Before.irrefl {p : Path} (h : Before p p) : False := by
  induction p with
  | nil => cases h
  | cons s p ih =>
      cases h with
      | under _ h => exact ih h

theorem toList_textFrom (above : String) (p : Path) :
    (textFrom above p).toList = above.toList ++ p.flatMap fun s => s.text.toList := by
  induction p generalizing above with
  | nil => simp [textFrom]
  | cons s p ih => rw [textFrom, ih, String.toList_append, List.flatMap_cons, List.append_assoc]

theorem text_injective : Function.Injective text := by
  intro p q h
  have hsteps := congrArg String.toList h
  rw [text, text, toList_textFrom, toList_textFrom] at hsteps
  replace hsteps := List.append_cancel_left hsteps
  clear h
  induction p generalizing q with
  | nil =>
      cases q with
      | nil => rfl
      | cons s q => cases s <;> cases hsteps
  | cons s p ih =>
      cases q with
      | nil => cases s <;> cases hsteps
      | cons s' q =>
          rw [List.flatMap_cons, List.flatMap_cons] at hsteps
          -- The two steps differ in their second character.
          have hside : s = s' := by
            cases s <;> cases s'
            · rfl
            · exact absurd hsteps (by simp [Side.text])
            · exact absurd hsteps (by simp [Side.text])
            · rfl
          subst hside
          rw [ih (List.append_cancel_left hsteps)]

theorem not_colon_of_mem_text {p : Path} {ch : Char} (h : ch ∈ p.text.toList) : ch ≠ ':' := by
  rw [text, toList_textFrom, List.mem_append, List.mem_flatMap] at h
  rintro rfl
  rcases h with h | ⟨s, -, h⟩
  · exact absurd h (by decide)
  · revert h
    cases s <;> decide

end Path

namespace Tree

/-! ## Nodes in the order in which they are decided -/

/-- The node that a path leads to. -/
def at? : Tree → Path → Option Tree
  | empty, _ => none
  | leaf c, [] => some (leaf c)
  | leaf _, _ :: _ => none
  | branch c left right, [] => some (branch c left right)
  | branch _ left _, .left :: p => left.at? p
  | branch _ _ right, .right :: p => right.at? p

/-- The nodes with their paths, each after its left subtree and its right one. -/
def postorder : Tree → List (Path × Tree)
  | empty => []
  | leaf c => [([], leaf c)]
  | branch c left right =>
    left.postorder.map (fun n => (.left :: n.1, n.2)) ++
      right.postorder.map (fun n => (.right :: n.1, n.2)) ++ [([], branch c left right)]

/-- A list of all nodes of a tree at their paths, none of them twice, in the order in which
they are decided. -/
structure IsPostorder (t : Tree) (nodes : List (Path × Tree)) : Prop where
  mem_iff : ∀ p s, (p, s) ∈ nodes ↔ t.at? p = some s
  ordered : nodes.Pairwise fun m n => m.1.Before n.1

theorem mem_postorder {t s : Tree} {p : Path} : (p, s) ∈ t.postorder ↔ t.at? p = some s := by
  induction t generalizing p with
  | empty => simp [postorder, at?]
  | leaf c => cases p <;> simp [postorder, at?, eq_comm]
  | branch c left right ihl ihr =>
      rcases p with _ | ⟨_ | _, p⟩
      · simp [postorder, at?, eq_comm]
      · simp [postorder, at?, ihl]
      · simp [postorder, at?, ihr]

theorem ordered_postorder (t : Tree) : t.postorder.Pairwise fun m n => m.1.Before n.1 := by
  induction t with
  | empty => exact .nil
  | leaf c => exact List.pairwise_singleton _ _
  | branch c left right ihl ihr =>
      rw [postorder, List.pairwise_append, List.pairwise_append]
      refine ⟨⟨?_, ?_, ?_⟩, List.pairwise_singleton _ _, ?_⟩
      · exact List.pairwise_map.2 (ihl.imp fun h => .under .left h)
      · exact List.pairwise_map.2 (ihr.imp fun h => .under .right h)
      · intro m hm n hn
        obtain ⟨m, -, rfl⟩ := List.mem_map.1 hm
        obtain ⟨n, -, rfl⟩ := List.mem_map.1 hn
        exact .across m.1 n.1
      · intro m hm n hn
        obtain rfl := List.mem_singleton.1 hn
        rcases List.mem_append.1 hm with hm | hm
        · obtain ⟨m, -, rfl⟩ := List.mem_map.1 hm
          exact .inside .left m.1
        · obtain ⟨m, -, rfl⟩ := List.mem_map.1 hm
          exact .inside .right m.1

theorem isPostorder_postorder (t : Tree) : t.IsPostorder t.postorder :=
  ⟨fun _ _ => mem_postorder, t.ordered_postorder⟩

theorem length_postorder (t : Tree) : t.postorder.length = t.nodeCount := by
  induction t with
  | empty => rw [postorder, nodeCount, nodes_empty]; rfl
  | leaf c => rw [postorder, nodeCount_leaf, List.length_singleton]
  | branch c left right ihl ihr =>
      rw [postorder, List.length_append, List.length_append, List.length_map, List.length_map,
        List.length_singleton, nodeCount_branch, ihl, ihr]

theorem nodup_texts (t : Tree) : (t.postorder.map fun n => n.1.text).Nodup := by
  rw [List.Nodup, List.pairwise_map]
  refine t.ordered_postorder.imp fun {m n} h htext => ?_
  rw [Path.text_injective htext] at h
  exact h.irrefl

/-! ## What is noted of a node -/

/-- What stands at a node, with the values of its two operands if it joins any. -/
def described (ctx : Context) : Tree → String
  | empty => ""
  | leaf c => c.value ++ if c.isMalformed then " (格式错误)" else ""
  | branch c left right =>
    c.word ++ " (" ++ toString (left.evaluate ctx) ++ ", " ++ toString (right.evaluate ctx) ++ ")"

/-- The line of a node. -/
def line (ctx : Context) (path : String) (t : Tree) : String :=
  path ++ ": " ++ t.described ctx ++ " => " ++ if t.evaluate ctx then "MATCHED" else "NOT_MATCHED"

/-- A node that is a condition and holds, with its path. -/
def matched? (ctx : Context) (path : String) : Tree → Option String
  | leaf c => if (leaf c).evaluate ctx then some (path ++ ": " ++ c.value) else none
  | _ => none

variable {ctx : Context}

theorem conditionLine_eq (path : String) (c : Condition) :
    Trace.conditionLine path c (c.holds ctx) = (leaf c).line ctx path := by
  rw [Trace.conditionLine, line, described, evaluate_eq, meaning]
  simp only [String.append_assoc]
  rfl

theorem branchLine_eq (path : String) (c : Connective) (left right : Tree) :
    Trace.branchLine path c (left.meaning ctx) (right.meaning ctx) =
      (branch c left right).line ctx path := by
  rw [Trace.branchLine, line, described, evaluate_eq, evaluate_eq, evaluate_eq, meaning]
  simp only [String.append_assoc]
  rfl

theorem explained_eq (ctx : Context) (above : String) (t : Tree) :
    t.explained ctx above = t.postorder.map fun n => n.2.line ctx (n.1.textFrom above) := by
  induction t generalizing above with
  | empty => rfl
  | leaf c => rw [explained, conditionLine_eq]; rfl
  | branch c left right ihl ihr =>
      rw [explained, ihl, ihr, branchLine_eq, postorder, List.map_append, List.map_append,
        List.map_map, List.map_map]
      rfl

theorem matched_eq (ctx : Context) (above : String) (t : Tree) :
    t.matched ctx above = t.postorder.filterMap fun n => n.2.matched? ctx (n.1.textFrom above) := by
  induction t generalizing above with
  | empty => rfl
  | leaf c =>
      rw [matched, postorder, List.filterMap_cons, List.filterMap_nil, matched?, evaluate_eq, meaning]
      cases c.holds ctx <;> rfl
  | branch c left right ihl ihr =>
      rw [matched, ihl, ihr, postorder, List.filterMap_append, List.filterMap_append,
        List.filterMap_map, List.filterMap_map, List.filterMap_cons_none rfl, List.filterMap_nil,
        List.append_nil]
      rfl

/-- A tree holds only if one of its conditions does. -/
theorem matched_ne_nil {t : Tree} (h : t.meaning ctx = true) (path : String) :
    t.matched ctx path ≠ [] := by
  induction t generalizing path with
  | empty => cases h
  | leaf c =>
      rw [meaning] at h
      rw [matched, if_pos h]
      exact List.cons_ne_nil _ _
  | branch c left right ihl ihr =>
      rw [matched, Ne, List.append_eq_nil_iff]
      rintro ⟨hleft, hright⟩
      rw [meaning] at h
      have hnone : left.meaning ctx = false ∧ right.meaning ctx = false :=
        ⟨Bool.eq_false_iff.2 fun hl => ihl hl _ hleft, Bool.eq_false_iff.2 fun hr => ihr hr _ hright⟩
      rw [hnone.1, hnone.2] at h
      cases c <;> cases h

end Tree

/-- What stands in a line before its first colon. -/
def Trace.pathOf (line : String) : String :=
  String.ofList (line.toList.takeWhile (· != ':'))

theorem Trace.pathOf_line (ctx : Context) (p : Path) (t : Tree) :
    pathOf (t.line ctx p.text) = p.text := by
  have hline : (t.line ctx p.text).toList = p.text.toList ++ ':' :: ' ' :: ((t.described ctx).toList ++
      (" => " ++ if t.evaluate ctx then "MATCHED" else "NOT_MATCHED").toList) := by
    simp [Tree.line]
  have hpath : ∀ ch ∈ p.text.toList, (ch != ':') = true := fun ch hch =>
    bne_iff_ne.2 (Path.not_colon_of_mem_text hch)
  rw [pathOf, hline, List.takeWhile_append_of_pos hpath, List.takeWhile_cons]
  simp

/-- A trace has one line for each node of the tree, in the order in which nodes are
decided, with the path that leads there from the root, the value of the subtree that is there
and, of a branch, the values of its two operands, of which one that is missing is false. The
conditions that hold are listed with their paths, traced or not, and without one of them
no rule matches. -/
theorem trace_complete (r : Rule) (ctx : Context) :
    let nodes := r.root.postorder
    let lines := (Trace.run true r ctx).lines
    r.root.IsPostorder nodes ∧ nodes.length = r.root.nodeCount ∧
    (r.root ≠ .empty →
      lines = nodes.map (fun n => n.2.line ctx n.1.text) ∧
      lines.map Trace.pathOf = nodes.map (·.1.text) ∧ (lines.map Trace.pathOf).Nodup) ∧
    Tree.empty.evaluate ctx = false ∧
    (Trace.run false r ctx).lines = [] ∧
    ∀ wanted, (Trace.run wanted r ctx).isMatch = r.root.evaluate ctx ∧
      (Trace.run wanted r ctx).matchedConditions =
        nodes.filterMap (fun n => n.2.matched? ctx n.1.text) ∧
      ((Trace.run wanted r ctx).isMatch = true →
        (Trace.run wanted r ctx).matchedConditions ≠ []) := by
  intro nodes lines
  refine ⟨r.root.isPostorder_postorder, r.root.length_postorder, fun hroot => ?_,
    Tree.evaluate_eq _ _, ?_, fun wanted => ?_⟩
  · have hpresent : r.root.isEmpty = false := by
      cases h : r.root with
      | empty => exact absurd h hroot
      | leaf c => rfl
      | branch c left right => rfl
    have hlines : lines = nodes.map fun n => n.2.line ctx n.1.text := by
      -- `Trace.run` works the nodes off a stack; `Trace.run_eq` has its invariant behind it.
      have hrun := congrArg Trace.lines (Trace.run_eq true r ctx)
      rw [if_pos rfl, hpresent, if_neg Bool.false_ne_true, Tree.explained_eq] at hrun
      exact hrun
    have hpaths : lines.map Trace.pathOf = nodes.map (·.1.text) := by
      rw [hlines, List.map_map]
      exact List.map_congr_left fun n _ => Trace.pathOf_line ctx n.1 n.2
    refine ⟨hlines, hpaths, ?_⟩
    rw [hpaths]
    exact r.root.nodup_texts
  · rw [Trace.run_eq]
    rfl
  · rw [Trace.run_eq, Tree.evaluate_eq, Tree.matched_eq]
    refine ⟨rfl, rfl, fun h => ?_⟩
    rw [← Tree.matched_eq]
    exact Tree.matched_ne_nil h "root"

/-- A branch without its right child and a condition of two parts. -/
theorem trace_complete_missing_child :
    let t : Tree :=
      .branch .or (.branch .and (.ofCondition "age > 30") .empty) (.ofCondition "age >")
    let ctx := Context.empty.insert "age" (.integer 35)
    t ≠ .empty ∧
      (Trace.run true ⟨1, "", t⟩ ctx).lines =
        ["root.left.left: age > 30 => MATCHED", "root.left: AND (true, false) => NOT_MATCHED",
          "root.right: age > (格式错误) => NOT_MATCHED", "root: OR (false, false) => NOT_MATCHED"] ∧
      (Trace.run false ⟨1, "", t⟩ ctx).matchedConditions = ["root.left.left: age > 30"] := by
  intro t ctx
  obtain ⟨-, -, hlines, -, -, hrun⟩ := trace_complete ⟨1, "", t⟩ ctx
  have hexplained := Tree.explained_eq ctx "root" t
  have hmatched := Tree.matched_eq ctx "root" t
  refine ⟨by decide, (hlines (by decide)).1.trans (hexplained.symm.trans ?_),
    (hrun false).2.1.trans (hmatched.symm.trans ?_)⟩
  · decide +kernel
  · decide +kernel

end Criteria
