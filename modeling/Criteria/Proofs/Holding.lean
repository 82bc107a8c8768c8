import Criteria.Proofs.Insertion
import Mathlib.Data.List.Flatten

/-!
# The tables hold the rules

`Tables.Holds` is the invariant of the database. The tables hold some rules if
the one table lists them and the other is made up of the rows of their trees,
one block of rows a rule and nothing between the blocks: no row belongs to two
rules, and none to no rule. A rule that is held is a `Stored`, which carries
the proof that its rows encode its tree; so an invalid block cannot be put into
the invariant in the first place.

What follows from the invariant is that the two recursive queries do what they
are for. The one that loads trees gives back every tree (`Holds.assemble`), and
the one that deletes a tree takes out its block and touches no other
(`Holds.delete`), although deleting a row also sets all references to it to
null: no reference leads from one block into another.
-/

namespace Criteria.Database

/-- A rule as the tables hold it: the number of its root and the rows of its
tree. -/
structure Stored where
  rule : Rule
  root : Option Int64
  nodes : List NodeRow
  encodes : Encodes none rule.root root nodes

namespace Stored

def row (x : Stored) : RuleRow :=
  ⟨x.rule.id, x.rule.text, x.root⟩

def nodeIds (x : Stored) : List Int64 :=
  x.nodes.map (·.id)

theorem root_mem (x : Stored) {id : Int64} (h : x.root = some id) : id ∈ x.nodeIds :=
  x.encodes.root_mem h

theorem links_mem (x : Stored) {r : NodeRow} (hr : r ∈ x.nodes) {id : Int64}
    (h : id ∈ r.links) : id ∈ x.nodeIds :=
  x.encodes.links_mem hr h

theorem parent_mem (x : Stored) {r : NodeRow} (hr : r ∈ x.nodes) {id : Int64}
    (h : r.parent = some id) : id ∈ x.nodeIds :=
  (x.encodes.parent_mem hr h).resolve_right fun h => by cases h

theorem nodes_eq_nil (x : Stored) (h : x.root = none) : x.nodes = [] :=
  x.encodes.eq_nil h

end Stored

/-- The tables hold some rules and nothing else. -/
structure Tables.Holds (t : Tables) (xs : List Stored) : Prop where
  rules : t.rules = xs.map Stored.row
  nodes : t.nodes = xs.flatMap Stored.nodes
  ascending : (xs.map (·.rule.id)).Pairwise (· < ·)
  distinct : Distinct t.nodes

namespace Tables.Holds

variable {t : Tables} {xs : List Stored}

theorem empty : (Tables.mk [] []).Holds [] :=
  ⟨rfl, rfl, .nil, List.nodup_nil⟩

theorem mem_nodes (h : t.Holds xs) {x : Stored} (hx : x ∈ xs) {r : NodeRow}
    (hr : r ∈ x.nodes) : r ∈ t.nodes := by
  rw [h.nodes]
  exact List.mem_flatMap.2 ⟨x, hx, hr⟩

theorem eq_of_id (h : t.Holds xs) {x y : Stored} (hx : x ∈ xs) (hy : y ∈ xs)
    (hid : x.rule.id = y.rule.id) : x = y :=
  List.inj_on_of_nodup_map (h.ascending.imp Int64.ne_of_lt) hx hy hid

theorem nodup_nodeIds (h : t.Holds xs) : (xs.flatMap Stored.nodeIds).Nodup := by
  have hd := h.distinct
  rwa [Distinct, h.nodes, List.map_flatMap] at hd

theorem distinct_nodes (h : t.Holds xs) {x : Stored} (hx : x ∈ xs) : Distinct x.nodes :=
  (List.nodup_flatMap.1 h.nodup_nodeIds).1 x hx

theorem not_mem_nodeIds (h : t.Holds xs) {x y : Stored} (hx : x ∈ xs) (hy : y ∈ xs)
    (hne : x ≠ y) {id : Int64} (hid : id ∈ x.nodeIds) : id ∉ y.nodeIds := by
  have hd := h.nodup_nodeIds
  clear h
  induction xs with
  | nil => cases hx
  | cons z xs ih =>
      rw [List.flatMap_cons, List.nodup_append] at hd
      obtain ⟨-, hrest, hapart⟩ := hd
      rcases List.mem_cons.1 hx with hxz | hx <;> rcases List.mem_cons.1 hy with hyz | hy
      · exact absurd (hxz.trans hyz.symm) hne
      · exact fun hid' =>
          hapart id (hxz ▸ hid) id (List.mem_flatMap.2 ⟨y, hy, hid'⟩) rfl
      · exact fun hid' =>
          hapart id (hyz ▸ hid') id (List.mem_flatMap.2 ⟨x, hx, hid⟩) rfl
      · exact ih hx hy hrest

theorem append (h : t.Holds xs) (x : Stored) (hid : ∀ y ∈ xs, y.rule.id < x.rule.id)
    (hd : Distinct (t.nodes ++ x.nodes)) :
    (Tables.mk (t.rules ++ [x.row]) (t.nodes ++ x.nodes)).Holds (xs ++ [x]) where
  rules := by simp [h.rules]
  nodes := by simp [h.nodes]
  ascending := by
    rw [List.map_append, List.pairwise_append]
    refine ⟨h.ascending, List.pairwise_singleton _ _, fun a ha b hb => ?_⟩
    obtain ⟨y, hy, rfl⟩ := List.mem_map.1 ha
    obtain rfl := List.mem_singleton.1 hb
    exact hid y hy
  distinct := hd

/-! ## Loading -/

theorem rulesInOrder_eq (h : t.Holds xs) : Store.rulesInOrder t = xs.map Stored.row := by
  rw [Store.rulesInOrder, List.mergeSort_of_pairwise, h.rules]
  rw [h.rules, List.pairwise_map]
  have hasc := h.ascending
  rw [List.pairwise_map] at hasc
  exact hasc.imp fun hlt => decide_eq_true (Int64.le_of_lt hlt)

theorem mem_treesOf (h : t.Holds xs) {x : Stored} (hx : x ∈ xs) {r : NodeRow}
    (hr : r ∈ x.nodes) : r ∈ Store.treesOf t := by
  refine mem_reachable_iff.2 ((x.encodes.reaches (fun q hq => h.mem_nodes hx hq) hr).widen
    (fun _ hq => hq) fun id hid => Or.inl ?_)
  rw [h.rules]
  exact List.mem_filterMap.2
    ⟨x.row, List.mem_map_of_mem hx, Option.mem_toList.1 hid⟩

theorem treesOf_subset {r : NodeRow} (hr : r ∈ Store.treesOf t) : r ∈ t.nodes :=
  (mem_reachable_iff.1 hr).mem

/-- The tree of a rule that is held is rebuilt as it was. -/
theorem assemble (h : t.Holds xs) {x : Stored} (hx : x ∈ xs) :
    x.root.elim (.ok .empty) (assemble (Store.treesOf t) (Store.treesOf t)) =
      .ok x.rule.root :=
  x.encodes.assemble (h.distinct_nodes hx)
    (fun _ hq _ hr hid => h.distinct.eq_of_id (treesOf_subset hq) (h.mem_nodes hx hr) hid)
    (fun _ hr => h.mem_treesOf hx hr) fun _ hr => h.mem_treesOf hx hr

theorem assemble_gone {id : Int64} (hid : id ∉ t.nodes.map (·.id)) :
    Database.assemble (Store.treesOf t) (Store.treesOf t) id = .ok .empty := by
  refine assemble_eq_empty fun hmem => hid ?_
  obtain ⟨r, hr, rfl⟩ := List.mem_map.1 hmem
  exact List.mem_map_of_mem (treesOf_subset hr)

end Tables.Holds

theorem assembleRules_eq {nodes : List NodeRow} (tree : Stored → Tree) :
    ∀ {ys : List Stored},
      (∀ y ∈ ys, y.root.elim (.ok .empty) (assemble nodes nodes) = .ok (tree y)) →
      assembleRules nodes (ys.map Stored.row) =
        .ok (ys.map fun y => { y.rule with root := tree y }) := by
  intro ys
  induction ys with
  | nil => intro _; rfl
  | cons y ys ih =>
      intro h
      have hy := h y List.mem_cons_self
      have hys := ih fun z hz => h z (List.mem_cons_of_mem _ hz)
      rw [List.map_cons, assembleRules, show y.row.root = y.root from rfl, hy, hys]
      rfl

namespace Tables.Holds

variable {t : Tables} {xs : List Stored}

theorem assembleRules_eq (h : t.Holds xs) :
    assembleRules (Store.treesOf t) (Store.rulesInOrder t) = .ok (xs.map (·.rule)) := by
  rw [h.rulesInOrder_eq,
    Database.assembleRules_eq (fun x => x.rule.root) fun y hy => h.assemble hy]

/-! ## Deleting -/

/-- The query that deletes a tree finds the rows of that tree and no others. -/
theorem mem_deleted (h : t.Holds xs) {x : Stored} (hx : x ∈ xs) {root id : Int64}
    (hroot : x.root = some root) :
    id ∈ (reachable t.nodes [root]).map (·.id) ↔ id ∈ x.nodeIds := by
  constructor
  · intro hid
    obtain ⟨r, hr, rfl⟩ := List.mem_map.1 hid
    refine (mem_reachable_iff.1 hr).id_of_closed (· ∈ x.nodeIds) (fun n hn => ?_)
      fun q hq hqx n hn => ?_
    · obtain rfl := List.mem_singleton.1 hn
      exact x.root_mem hroot
    · obtain ⟨q', hq', hid⟩ := List.mem_map.1 hqx
      obtain rfl := h.distinct.eq_of_id (h.mem_nodes hx hq') hq hid
      exact x.links_mem hq' hn
  · intro hid
    obtain ⟨r, hr, rfl⟩ := List.mem_map.1 hid
    have hreach := x.encodes.reaches (fun q hq => h.mem_nodes hx hq) hr
    rw [hroot] at hreach
    exact List.mem_map_of_mem (mem_reachable_iff.2 hreach)

end Tables.Holds

theorem kept_eq_self {deleted : List Int64} {reference : Option Int64}
    (h : ∀ id, reference = some id → id ∉ deleted) :
    Store.kept deleted reference = reference := by
  cases reference with
  | none => rfl
  | some id => simp [Store.kept, Option.filter, h id rfl]

namespace Stored

variable {x : Stored} {deleted : List Int64}

theorem kept_root (h : ∀ id ∈ x.nodeIds, id ∉ deleted) :
    Store.kept deleted x.root = x.root :=
  kept_eq_self fun id hid => h id (x.root_mem hid)

theorem kept_nodes (h : ∀ id ∈ x.nodeIds, id ∉ deleted) :
    (x.nodes.filter fun r => !deleted.contains r.id).map
      (fun r => { r with
        left := Store.kept deleted r.left
        right := Store.kept deleted r.right
        parent := Store.kept deleted r.parent }) = x.nodes := by
  have hall : ∀ r ∈ x.nodes, (!deleted.contains r.id) = true := fun r hr => by
    simpa using h r.id (List.mem_map_of_mem hr)
  rw [List.filter_eq_self.2 hall]
  refine (List.map_congr_left fun r hr => ?_).trans (List.map_id _)
  have hlink : ∀ id ∈ r.links, id ∉ deleted := fun id hid => h id (x.links_mem hr hid)
  rw [kept_eq_self fun id hid => hlink id (by simp [NodeRow.links, hid]),
    kept_eq_self fun id hid => hlink id (by simp [NodeRow.links, hid]),
    kept_eq_self fun id hid => h id (x.parent_mem hr hid)]
  rfl

theorem filter_nodes_eq_nil (h : ∀ id ∈ x.nodeIds, id ∈ deleted) :
    (x.nodes.filter fun r => !deleted.contains r.id) = [] := by
  refine List.filter_eq_nil_iff.2 fun r hr => ?_
  simpa using h r.id (List.mem_map_of_mem hr)

end Stored

theorem flatMap_eq_filter_flatMap {α β : Type} {f g : α → List β} {p : α → Bool} :
    ∀ {xs : List α}, (∀ x ∈ xs, f x = if p x then g x else []) →
      xs.flatMap f = (xs.filter p).flatMap g := by
  intro xs
  induction xs with
  | nil => intro _; rfl
  | cons x xs ih =>
      intro h
      rw [List.flatMap_cons, h x List.mem_cons_self,
        ih fun y hy => h y (List.mem_cons_of_mem _ hy), List.filter_cons]
      split
      · rw [List.flatMap_cons]
      · rfl

namespace Tables.Holds

variable {t : Tables} {xs : List Stored}

theorem filter_rules (h : t.Holds xs) (id : Int64) :
    t.rules.filter (·.id != id) = (xs.filter (·.rule.id != id)).map Stored.row := by
  rw [h.rules, List.filter_map]
  rfl

theorem ascending_filter (h : t.Holds xs) (p : Stored → Bool) :
    ((xs.filter p).map (·.rule.id)).Pairwise (· < ·) :=
  h.ascending.sublist (List.filter_sublist.map _)

theorem distinct_filter (h : t.Holds xs) (p : Stored → Bool) :
    Distinct ((xs.filter p).flatMap Stored.nodes) := by
  refine h.distinct.sublist ?_
  rw [h.nodes]
  exact List.filter_sublist.flatMap _

/-- A rule without a tree is taken out with its row alone. -/
theorem delete_rootless (h : t.Holds xs) {x : Stored} (hx : x ∈ xs) (hroot : x.root = none) :
    (Tables.mk (t.rules.filter (·.id != x.rule.id)) t.nodes).Holds
      (xs.filter (·.rule.id != x.rule.id)) := by
  have hnodes : t.nodes = (xs.filter (·.rule.id != x.rule.id)).flatMap Stored.nodes := by
    rw [h.nodes]
    refine flatMap_eq_filter_flatMap fun y hy => ?_
    by_cases hid : y.rule.id = x.rule.id
    · obtain rfl := h.eq_of_id hy hx hid
      simp [y.nodes_eq_nil hroot]
    · simp [hid]
  exact ⟨h.filter_rules _, hnodes, h.ascending_filter _, h.distinct⟩

/-- A rule with a tree is taken out with its row and the rows of the tree, and
what is left is as it was. -/
theorem delete (h : t.Holds xs) {x : Stored} (hx : x ∈ xs) {root : Int64}
    (hroot : x.root = some root) :
    (Store.deleteNodes (Tables.mk (t.rules.filter (·.id != x.rule.id)) t.nodes)
        ((reachable t.nodes [root]).map (·.id))).Holds
      (xs.filter (·.rule.id != x.rule.id)) := by
  generalize hdel : (reachable t.nodes [root]).map (·.id) = deleted
  have hmem : ∀ id, id ∈ deleted ↔ id ∈ x.nodeIds := fun id =>
    hdel ▸ h.mem_deleted hx hroot
  have hapart : ∀ y ∈ xs, y.rule.id ≠ x.rule.id → ∀ id ∈ y.nodeIds, id ∉ deleted := by
    intro y hy hne id hid hin
    exact h.not_mem_nodeIds hy hx (fun hyx => hne (hyx ▸ rfl)) hid ((hmem id).1 hin)
  have hrules : (t.rules.filter (·.id != x.rule.id)).map
      (fun r => { r with root := Store.kept deleted r.root }) =
      (xs.filter (·.rule.id != x.rule.id)).map Stored.row := by
    rw [h.filter_rules, List.map_map]
    refine List.map_congr_left fun y hy => ?_
    obtain ⟨hy, hne⟩ := List.mem_filter.1 hy
    have hkept := Stored.kept_root (hapart y hy (by simpa using hne))
    simp [Stored.row, hkept]
  have hnodes : (t.nodes.filter fun r => !deleted.contains r.id).map
      (fun r => { r with
        left := Store.kept deleted r.left
        right := Store.kept deleted r.right
        parent := Store.kept deleted r.parent }) =
      (xs.filter (·.rule.id != x.rule.id)).flatMap Stored.nodes := by
    rw [h.nodes, List.filter_flatMap, List.map_flatMap]
    refine flatMap_eq_filter_flatMap fun y hy => ?_
    by_cases hid : y.rule.id = x.rule.id
    · obtain rfl := h.eq_of_id hy hx hid
      rw [Stored.filter_nodes_eq_nil fun id => (hmem id).2]
      simp
    · rw [Stored.kept_nodes (hapart y hy hid), if_pos (by simpa using hid)]
  refine ⟨hrules, hnodes, h.ascending_filter _, ?_⟩
  rw [Store.deleteNodes, hnodes]
  exact h.distinct_filter _

end Tables.Holds

end Criteria.Database
