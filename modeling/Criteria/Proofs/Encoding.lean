import Criteria.Database.Assembly
import Criteria.Proofs.Reachability
import Mathlib.Data.List.Nodup

/-!
# The rows of a tree

`Encodes` says which rows stand for a tree: one row a node, each below its
parent, in the order of a walk that goes left first. It is a relation and not
a function because the numbers of the rows are up to the database. What the
rest of the development needs of it is here. The rows hold together: no link
leads out of them, and the root leads to all of them. And they can be read
back: `assemble` gives the very tree, whatever other rows lie around, as long
as no two rows share a number.
-/

namespace Criteria.Database

def NodeRow.linked (r : NodeRow) (left right : Option Int64) : NodeRow :=
  { r with left := left, right := right }

/-- The rows of a tree that stands below `parent`, and the number of its root.
The empty tree has no rows, and so no root. -/
inductive Encodes : (parent : Option Int64) → Tree → (root : Option Int64) →
    List NodeRow → Prop where
  | empty {parent : Option Int64} : Encodes parent .empty none []
  | leaf {parent : Option Int64} {id : Int64} {c : Condition} :
      Encodes parent (.leaf c) (some id) [.ofCondition id c parent]
  | branch {parent : Option Int64} {id : Int64} {c : Connective}
      {left right : Tree} {l r : Option Int64} {ls rs : List NodeRow}
      (hl : Encodes (some id) left l ls) (hr : Encodes (some id) right r rs) :
      Encodes parent (.branch c left right) (some id)
        ((NodeRow.ofConnective id c parent).linked l r :: (ls ++ rs))

namespace Encodes

variable {parent root : Option Int64} {t : Tree} {block rows : List NodeRow}

theorem root_mem (h : Encodes parent t root block) {id : Int64}
    (hid : root = some id) : id ∈ block.map (·.id) := by
  cases h with
  | empty => cases hid
  | leaf => cases hid; exact List.mem_cons_self
  | branch _ _ => cases hid; exact List.mem_cons_self

theorem eq_nil (h : Encodes parent t root block) (hnone : root = none) : block = [] := by
  cases h with
  | empty => rfl
  | leaf => cases hnone
  | branch _ _ => cases hnone

theorem links_linked {r : NodeRow} {left right : Option Int64} {id : Int64} :
    id ∈ (r.linked left right).links ↔ left = some id ∨ right = some id := by
  simp [NodeRow.links, NodeRow.linked]

theorem links_mem (h : Encodes parent t root block) {r : NodeRow}
    (hr : r ∈ block) {id : Int64} (hid : id ∈ r.links) :
    id ∈ block.map (·.id) := by
  induction h with
  | empty => cases hr
  | leaf =>
      rw [List.mem_singleton] at hr
      subst hr
      simp [NodeRow.links, NodeRow.ofCondition] at hid
  | @branch _ _ _ _ _ _ _ ls rs hl hr' ihl ihr =>
      rw [List.map_cons, List.map_append]
      refine List.mem_cons_of_mem _ (List.mem_append.2 ?_)
      rcases List.mem_cons.1 hr with rfl | hr
      · rcases links_linked.1 hid with h | h
        · exact Or.inl (hl.root_mem h)
        · exact Or.inr (hr'.root_mem h)
      · rcases List.mem_append.1 hr with hr | hr
        · exact Or.inl (ihl hr)
        · exact Or.inr (ihr hr)

/-- The parent of a row is another row of the tree, or what the tree stands
below. -/
theorem parent_mem (h : Encodes parent t root block) {r : NodeRow}
    (hr : r ∈ block) {id : Int64} (hid : r.parent = some id) :
    id ∈ block.map (·.id) ∨ parent = some id := by
  induction h with
  | empty => cases hr
  | leaf =>
      rw [List.mem_singleton] at hr
      subst hr
      exact Or.inr hid
  | @branch p n _ _ _ _ _ ls rs hl hr' ihl ihr =>
      have hroot : ∀ m, some n = some m → m ∈ n :: (ls ++ rs).map (·.id) :=
        fun m hm => by cases hm; exact List.mem_cons_self
      rcases List.mem_cons.1 hr with rfl | hr
      · exact Or.inr hid
      · refine Or.inl ?_
        rcases List.mem_append.1 hr with hr | hr
        · rcases ihl hr with h | h
          · rw [List.map_cons, List.map_append]
            exact List.mem_cons_of_mem _ (List.mem_append_left _ h)
          · exact hroot id h
        · rcases ihr hr with h | h
          · rw [List.map_cons, List.map_append]
            exact List.mem_cons_of_mem _ (List.mem_append_right _ h)
          · exact hroot id h

theorem reaches (h : Encodes parent t root block) (hrows : ∀ r ∈ block, r ∈ rows)
    {r : NodeRow} (hr : r ∈ block) : Reaches rows root.toList r := by
  induction h with
  | empty => cases hr
  | leaf =>
      rw [List.mem_singleton] at hr
      subst hr
      exact .start (hrows _ List.mem_cons_self) List.mem_cons_self
  | @branch _ id _ _ _ l r' ls rs hl hr' ihl ihr =>
      have hhead : Reaches rows [id] _ :=
        .start (hrows _ List.mem_cons_self) List.mem_cons_self
      have hrest : ∀ q ∈ ls ++ rs, q ∈ rows := fun q hq =>
        hrows q (List.mem_cons_of_mem _ hq)
      rcases List.mem_cons.1 hr with rfl | hr
      · exact hhead
      · rcases List.mem_append.1 hr with hr | hr
        · refine (ihl (fun q hq => hrest q (List.mem_append_left _ hq)) hr).widen
            (fun _ hq => hq) fun n hn => Or.inr ⟨_, hhead, ?_⟩
          exact links_linked.2 (Or.inl (Option.mem_toList.1 hn))
        · refine (ihr (fun q hq => hrest q (List.mem_append_right _ hq)) hr).widen
            (fun _ hq => hq) fun n hn => Or.inr ⟨_, hhead, ?_⟩
          exact links_linked.2 (Or.inr (Option.mem_toList.1 hn))

end Encodes

/-! ## Reading the rows back

Rebuilding keeps a second list, of the rows that do not stand above the one at
hand, and takes a row off it before it goes to the children. The rows of a
subtree are never taken off before they are needed, because a row's number
comes once among the rows of a tree. -/

def Distinct (rows : List NodeRow) : Prop :=
  (rows.map (·.id)).Nodup

theorem Distinct.eq_of_id {rows : List NodeRow} (h : Distinct rows) {q r : NodeRow}
    (hq : q ∈ rows) (hr : r ∈ rows) (hid : q.id = r.id) : q = r :=
  List.inj_on_of_nodup_map h hq hr hid

theorem Distinct.sublist {rows rows' : List NodeRow} (h : Distinct rows)
    (hs : rows'.Sublist rows) : Distinct rows' :=
  List.Nodup.sublist (hs.map _) h

/-- More rows, under numbers above a bound that the others keep to. -/
theorem Distinct.append {rows block : List NodeRow} {bound : Int64} (hrows : Distinct rows)
    (hle : ∀ r ∈ rows, r.id ≤ bound) (hblock : Distinct block)
    (habove : ∀ id ∈ block.map (·.id), bound < id) : Distinct (rows ++ block) := by
  rw [Distinct, List.map_append]
  refine List.nodup_append.2 ⟨hrows, hblock, fun a ha b hb => ?_⟩
  obtain ⟨r, hr, rfl⟩ := List.mem_map.1 ha
  exact Int64.ne_of_lt (Int64.lt_of_le_of_lt (hle r hr) (habove b hb))

theorem find?_eq_of_mem {rows : List NodeRow} {r : NodeRow}
    (hinj : ∀ q ∈ rows, q.id = r.id → q = r) (hr : r ∈ rows) :
    rows.find? (·.id == r.id) = some r := by
  cases h : rows.find? (·.id == r.id) with
  | none => simpa using List.find?_eq_none.1 h r hr
  | some q =>
      have hid : q.id = r.id := by simpa using List.find?_some h
      rw [hinj q (List.mem_of_find?_eq_some h) hid]

theorem find?_eq_none_of_not_mem {rows : List NodeRow} {id : Int64}
    (h : id ∉ rows.map (·.id)) : rows.find? (·.id == id) = none :=
  List.find?_eq_none.2 fun q hq hid =>
    h (List.mem_map.2 ⟨q, hq, by simpa using hid⟩)

theorem assemble_leaf {rows free : List NodeRow} {row : NodeRow}
    (hfind : rows.find? (·.id == row.id) = some row) (hfree : row ∈ free)
    (hc : row.connective? = none) : assemble rows free row.id = .ok row.leaf := by
  have hne : rowsOf row.id free ≠ [] := List.ne_nil_of_mem (mem_rowsOf.2 ⟨hfree, rfl⟩)
  rw [assemble, hfind]
  simp only [dif_neg hne, hc]

theorem assemble_branch {rows free : List NodeRow} {row : NodeRow} {c : Connective}
    {left right : Tree} (hfind : rows.find? (·.id == row.id) = some row)
    (hfree : row ∈ free) (hc : row.connective? = some c)
    (hl : row.left.elim (.ok .empty) (assemble rows (without row.id free)) = .ok left)
    (hr : row.right.elim (.ok .empty) (assemble rows (without row.id free)) = .ok right) :
    assemble rows free row.id = .ok (.branch c left right) := by
  have hne : rowsOf row.id free ≠ [] := List.ne_nil_of_mem (mem_rowsOf.2 ⟨hfree, rfl⟩)
  rw [assemble, hfind]
  simp only [dif_neg hne, hc, hl, hr]

theorem assemble_eq_empty {rows free : List NodeRow} {id : Int64}
    (h : id ∉ rows.map (·.id)) : assemble rows free id = .ok .empty := by
  rw [assemble, find?_eq_none_of_not_mem h]

theorem connective?_ofCondition {id : Int64} {c : Condition} {parent : Option Int64} :
    (NodeRow.ofCondition id c parent).connective? = none :=
  if_neg (show ¬ NodeRow.conditionType = NodeRow.operatorType by decide)

theorem connective?_ofConnective {id : Int64} {c : Connective} {parent l r : Option Int64} :
    ((NodeRow.ofConnective id c parent).linked l r).connective? = some c := by
  cases c <;> rfl

theorem leaf_ofCondition {id : Int64} {c : Condition} {parent : Option Int64} :
    (NodeRow.ofCondition id c parent).leaf = .leaf c :=
  if_pos rfl

namespace Encodes

/-- Rebuilding gives back the tree that was written. -/
theorem assemble {parent root : Option Int64} {t : Tree} {block rows free : List NodeRow}
    (h : Encodes parent t root block) (hd : Distinct block)
    (hinj : ∀ q ∈ rows, ∀ r ∈ block, q.id = r.id → q = r)
    (hrows : ∀ r ∈ block, r ∈ rows) (hfree : ∀ r ∈ block, r ∈ free) :
    root.elim (.ok .empty) (assemble rows free) = .ok t := by
  induction h generalizing free with
  | empty => rfl
  | @leaf p id c =>
      have hmem : NodeRow.ofCondition id c p ∈ [NodeRow.ofCondition id c p] :=
        List.mem_cons_self
      have hfind := find?_eq_of_mem (fun q hq => hinj q hq _ hmem) (hrows _ hmem)
      have := assemble_leaf hfind (hfree _ hmem) connective?_ofCondition
      rwa [leaf_ofCondition] at this
  | @branch p id c left right l r ls rs hl hr ihl ihr =>
      have hmem := List.mem_cons_self (l := ls ++ rs)
        (a := (NodeRow.ofConnective id c p).linked l r)
      have hfind := find?_eq_of_mem (fun q hq => hinj q hq _ hmem) (hrows _ hmem)
      -- The rows below are still free once the root is not: its number is its own.
      have hbelow : ∀ q ∈ ls ++ rs, q ∈ without id free := fun q hq => by
        refine mem_without.2 ⟨hfree q (List.mem_cons_of_mem _ hq), fun hid => ?_⟩
        have hnot : id ∉ (ls ++ rs).map (·.id) := (List.nodup_cons.1 hd).1
        exact hnot (hid ▸ List.mem_map_of_mem hq)
      have hleft := ihl
        (hd.sublist ((List.sublist_append_left ls rs).cons _))
        (fun q hq r' hr' => hinj q hq r' (by simp [hr']))
        (fun q hq => hrows q (by simp [hq])) (fun q hq => hbelow q (by simp [hq]))
      have hright := ihr
        (hd.sublist ((List.sublist_append_right ls rs).cons _))
        (fun q hq r' hr' => hinj q hq r' (by simp [hr']))
        (fun q hq => hrows q (by simp [hq])) (fun q hq => hbelow q (by simp [hq]))
      exact assemble_branch hfind (hfree _ hmem) connective?_ofConnective hleft hright

end Encodes

end Criteria.Database
