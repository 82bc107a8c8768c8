import Criteria.Proofs.Insertion
import Criteria.Proofs.Measures

/-!
# How the nodes of a tree are numbered

A slot is filled in at three moments: its parent is known when the node goes onto the
stack, its place when it comes off again, and its children only when they come off in
their turn. Nothing is said of a tree here but its paths. `Tree.paths` has them in the
order of a walk, so that the place of a node is that of its path, and what a slot has to
know of its neighbours can be put in terms of paths one step longer or shorter
(`Slot.Fits`). `fits_placed` shows that every slot knows it, by induction on the path:
each step leads into a child, whose slots stand behind those that come before it.

The rest follows. The links of the slots are those of the nodes (`IsNumbering`), the two
passes of an insertion look up only numbers that they have (`InRange`), and the rows they
leave name each other by their numbers as the slots do by their places (`Interlinked`).
-/

namespace Criteria

namespace Tree

/-- The child of a node on a side; it is empty if there is none. -/
def child : Tree → Side → Tree
  | branch _ left _, .left => left
  | branch _ _ right, .right => right
  | _, _ => empty

/-- How many nodes of a tree a walk meets before it comes to the child on a side. -/
def offset (t : Tree) : Side → Nat
  | .left => 1
  | .right => 1 + (t.child .left).size

theorem at?_nil (t : Tree) : t.at? [] = if t.isEmpty then none else some t := by
  cases t <;> rfl

theorem at?_cons (t : Tree) (side : Side) (p : Path) : t.at? (side :: p) = (t.child side).at? p := by
  cases t <;> cases side <;> rfl

theorem at?_concat {t s : Tree} {p : Path} (h : t.at? p = some s) (side : Side) :
    t.at? (p ++ [side]) = if (s.child side).isEmpty then none else some (s.child side) := by
  induction p generalizing t with
  | nil =>
      rw [at?_nil] at h
      split at h
      · cases h
      · cases h
        rw [List.nil_append, at?_cons, at?_nil]
  | cons first p ih =>
      rw [at?_cons] at h
      rw [List.cons_append, at?_cons, ih h]

theorem paths_eq {t : Tree} (ht : t.isEmpty = false) :
    t.paths = [] :: ((t.child .left).paths.map (.left :: ·) ++
      (t.child .right).paths.map (.right :: ·)) := by
  cases t with
  | empty => cases ht
  | leaf c => rfl
  | branch c left right => rfl

theorem getElem?_paths_nil {t : Tree} {i : Nat} :
    t.paths[i]? = some [] ↔ i = 0 ∧ t.isEmpty = false := by
  cases ht : t.isEmpty with
  | true =>
      rw [Database.eq_empty_of_isEmpty ht]
      simp [paths]
  | false =>
      rw [paths_eq ht]
      cases i with
      | zero => simp
      | succ i =>
          rw [List.getElem?_cons_succ]
          constructor
          · intro h
            have hmem := List.mem_of_getElem? h
            simp at hmem
          · rintro ⟨h, -⟩
            cases h

theorem getElem?_map_cons {s side : Side} {ps : List Path} {k : Nat} {p : Path} :
    (ps.map (s :: ·))[k]? = some (side :: p) ↔ s = side ∧ ps[k]? = some p := by
  rw [List.getElem?_map, Option.map_eq_some_iff]
  constructor
  · rintro ⟨q, hq, heq⟩
    cases heq
    exact ⟨rfl, hq⟩
  · rintro ⟨rfl, hp⟩
    exact ⟨p, hp, rfl⟩

/-- The paths through a child are those of the child, behind the ones that come before. -/
theorem getElem?_paths_cons {t : Tree} {side : Side} {p : Path} {i : Nat} :
    t.paths[i]? = some (side :: p) ↔
      ∃ k, i = t.offset side + k ∧ (t.child side).paths[k]? = some p := by
  cases ht : t.isEmpty with
  | true =>
      rw [Database.eq_empty_of_isEmpty ht]
      simp [child, paths]
  | false =>
      have hlength := (t.child .left).length_paths
      rw [paths_eq ht]
      cases i with
      | zero => cases side <;> simp [offset] <;> omega
      | succ j =>
          rw [List.getElem?_cons_succ, List.getElem?_append, List.length_map, hlength]
          split
          · next hj =>
              rw [getElem?_map_cons]
              cases side with
              | left =>
                  constructor
                  · exact fun h => ⟨j, Nat.add_comm j 1, h.2⟩
                  · rintro ⟨k, hk, h⟩
                    obtain rfl : j = k := by rw [offset] at hk; omega
                    exact ⟨rfl, h⟩
              | right =>
                  constructor
                  · exact fun h => by cases h.1
                  · rintro ⟨k, hk, -⟩
                    rw [offset] at hk
                    omega
          · next hj =>
              rw [getElem?_map_cons]
              cases side with
              | left =>
                  constructor
                  · exact fun h => by cases h.1
                  · rintro ⟨k, hk, h⟩
                    rw [offset] at hk
                    have := (List.getElem?_eq_some_iff.1 h).1
                    omega
              | right =>
                  constructor
                  · exact fun h => ⟨_, by rw [offset]; omega, h.2⟩
                  · rintro ⟨k, hk, h⟩
                    obtain rfl : j - (t.child .left).size = k := by rw [offset] at hk; omega
                    exact ⟨rfl, h⟩

end Tree

namespace Database

open Criteria.Tree

/-- The place of the child on a side. -/
def Slot.child (slot : Slot) : Side → Option Nat
  | .left => slot.left
  | .right => slot.right

theorem placed_eq {t : Tree} (ht : t.isEmpty = false) (parent : Option Nat) (place : Nat) :
    placed parent place t =
      ⟨t, parent, placeOf (t.child .left) (place + t.offset .left),
          placeOf (t.child .right) (place + t.offset .right)⟩ ::
        (placed (some place) (place + t.offset .left) (t.child .left)
          ++ placed (some place) (place + t.offset .right) (t.child .right)) := by
  cases t with
  | empty => cases ht
  | leaf c => rfl
  | branch c left right =>
      rw [placed, offset, offset, ← Nat.add_assoc]
      rfl

theorem getElem?_placed_child {t : Tree} (ht : t.isEmpty = false) (parent : Option Nat)
    (place : Nat) (side : Side) {k : Nat} (hk : k < (t.child side).size) :
    (placed parent place t)[t.offset side + k]? =
      (placed (some place) (place + t.offset side) (t.child side))[k]? := by
  rw [placed_eq ht]
  cases side with
  | left =>
      rw [show t.offset .left + k = k + 1 from Nat.add_comm 1 k, List.getElem?_cons_succ,
        List.getElem?_append_left (by rwa [length_placed])]
  | right =>
      rw [show t.offset .right + k = (t.child .left).size + k + 1 by rw [offset]; omega,
        List.getElem?_cons_succ, List.getElem?_append_right (by rw [length_placed]; omega),
        length_placed, Nat.add_sub_cancel_left]

/-- What the slot of the node at the end of a path knows of the nodes next to it. The root
of the tree comes at `place`, below `parent`, and the slot `i` places behind. -/
structure Slot.Fits (slot : Slot) (t : Tree) (parent : Option Nat) (place i : Nat) (p : Path) :
    Prop where
  node : t.at? p = some slot.node
  child_iff : ∀ side j, slot.child side = some j ↔
    ∃ k, j = place + k ∧ t.paths[k]? = some (p ++ [side])
  root : p = [] → slot.parent = parent
  below : ∀ above side, p = above ++ [side] →
    ∃ k < i, slot.parent = some (place + k) ∧ t.paths[k]? = some above

theorem placeOf_eq_some {t : Tree} {place j : Nat} :
    placeOf t place = some j ↔ j = place ∧ t.isEmpty = false := by
  rw [placeOf]
  cases t.isEmpty <;> simp [eq_comm]

/-- Each path leads to the slot that fits it. -/
theorem fits_placed {t : Tree} {p : Path} {i : Nat} (ht : t.isEmpty = false)
    (h : t.paths[i]? = some p) (parent : Option Nat) (place : Nat) :
    ∃ slot, (placed parent place t)[i]? = some slot ∧ slot.Fits t parent place i p := by
  induction p generalizing t i parent place with
  | nil =>
      obtain ⟨rfl, -⟩ := getElem?_paths_nil.1 h
      rw [placed_eq ht]
      refine ⟨_, rfl, ?_, fun side j => ?_, fun _ => rfl, fun above side h => ?_⟩
      · rw [at?_nil, ht]
        rfl
      · have hslot : Slot.child ⟨t, parent, placeOf (t.child .left) (place + t.offset .left),
            placeOf (t.child .right) (place + t.offset .right)⟩ side =
              placeOf (t.child side) (place + t.offset side) := by
          cases side <;> rfl
        simp only [hslot, placeOf_eq_some, List.nil_append, getElem?_paths_cons, getElem?_paths_nil]
        constructor
        · rintro ⟨rfl, hchild⟩
          exact ⟨t.offset side, rfl, 0, rfl, rfl, hchild⟩
        · rintro ⟨_, rfl, _, rfl, rfl, hchild⟩
          exact ⟨rfl, hchild⟩
      · cases above <;> cases h
  | cons side p ih =>
      obtain ⟨k, rfl, hk⟩ := getElem?_paths_cons.1 h
      have hchild : (t.child side).isEmpty = false := by
        cases hchild : t.child side with
        | empty => rw [hchild] at hk; cases hk
        | leaf c | branch c left right => rfl
      have hsize : k < (t.child side).size := by
        rw [← length_paths]
        exact (List.getElem?_eq_some_iff.1 hk).1
      obtain ⟨slot, hslot, hfits⟩ := ih hchild hk (some place) (place + t.offset side)
      refine ⟨slot, (getElem?_placed_child ht parent place side hsize).trans hslot, ?_,
        fun last j => ?_, fun h => (by cases h), fun above last h => ?_⟩
      · rw [at?_cons]
        exact hfits.node
      · simp only [hfits.child_iff, List.cons_append, getElem?_paths_cons]
        constructor
        · rintro ⟨m, rfl, hm⟩
          exact ⟨t.offset side + m, Nat.add_assoc _ _ _, m, rfl, hm⟩
        · rintro ⟨_, rfl, m, rfl, hm⟩
          exact ⟨m, (Nat.add_assoc _ _ _).symm, hm⟩
      · cases above with
        | nil =>
            obtain ⟨-, rfl⟩ := List.cons.inj h
            refine ⟨0, ?_, hfits.root rfl, getElem?_paths_nil.2 ⟨rfl, ht⟩⟩
            cases side <;> rw [offset] <;> omega
        | cons first above =>
            obtain ⟨rfl, rfl⟩ := List.cons.inj h
            obtain ⟨m, hm, hparent, habove⟩ := hfits.below above last rfl
            refine ⟨t.offset side + m, Nat.add_lt_add_left hm _, ?_,
              getElem?_paths_cons.2 ⟨m, rfl, habove⟩⟩
            rw [hparent, Nat.add_assoc]

/-! ## What the slots say of each other -/

/-- A list of slots for the nodes of a tree, in the order of a walk, that refer to each other
as the nodes do. Two nodes may be equal as trees; it is their paths that tell them apart. -/
structure IsNumbering (t : Tree) (slots : List Slot) : Prop where
  nodes : slots.map (·.node) = t.nodes
  leads : ∀ {i : Nat} {slot : Slot}, slots[i]? = some slot →
    ∃ p, t.paths[i]? = some p ∧ t.at? p = some slot.node
  child_iff : ∀ {i : Nat} {slot : Slot} {p : Path}, slots[i]? = some slot →
    t.paths[i]? = some p → ∀ side j, slot.child side = some j ↔ t.paths[j]? = some (p ++ [side])
  root : ∀ {slot : Slot}, slots[0]? = some slot → slot.parent = none
  parent : ∀ {i : Nat} {slot : Slot}, slots[i]? = some slot → 0 < i →
    ∃ q < i, ∃ above : Slot, slot.parent = some q ∧ slots[q]? = some above ∧
      ∃! side, above.child side = some i
  child : ∀ {i : Nat} {slot : Slot} (side : Side), slots[i]? = some slot →
    (slot.child side).isSome = !(slot.node.child side).isEmpty ∧
    ∀ j, slot.child side = some j → i < j ∧ ∃ below : Slot, slots[j]? = some below ∧
      below.parent = some i ∧ below.node = slot.node.child side
  once : ∀ {i i' j : Nat} {slot slot' : Slot} {side side' : Side}, slots[i]? = some slot →
    slots[i']? = some slot' → slot.child side = some j → slot'.child side' = some j →
    i = i' ∧ side = side'

theorem map_node_placed (parent : Option Nat) (place : Nat) (t : Tree) :
    (placed parent place t).map (·.node) = t.preorder := by
  induction t generalizing parent place with
  | empty => rfl
  | leaf c => rfl
  | branch c left right ihl ihr =>
      rw [placed, List.map_cons, List.map_append, ihl, ihr, preorder]

theorem place_unique {t : Tree} {i j : Nat} {p : Path} (hi : t.paths[i]? = some p)
    (hj : t.paths[j]? = some p) : i = j :=
  (List.getElem?_inj (List.getElem?_eq_some_iff.1 hi).1 t.nodup_paths).1 (hi.trans hj.symm)

section Layout

variable {t : Tree} (ht : t.isEmpty = false)
include ht

theorem fits_layout {i : Nat} {p : Path} (h : t.paths[i]? = some p) :
    ∃ slot, (layout t)[i]? = some slot ∧ slot.Fits t none 0 i p := by
  rw [layout_eq ht]
  exact fits_placed ht h none 0

theorem exists_fits {i : Nat} {slot : Slot} (h : (layout t)[i]? = some slot) :
    ∃ p, t.paths[i]? = some p ∧ slot.Fits t none 0 i p := by
  have hlt : i < t.paths.length := by
    rw [length_paths, ← length_placed none 0 t, ← layout_eq ht]
    exact (List.getElem?_eq_some_iff.1 h).1
  obtain ⟨slot', hslot, hfits⟩ := fits_layout ht (List.getElem?_eq_getElem hlt)
  obtain rfl := Option.some.inj (h.symm.trans hslot)
  exact ⟨_, List.getElem?_eq_getElem hlt, hfits⟩

omit ht in
theorem Slot.Fits.child_eq {slot : Slot} {i : Nat} {p : Path} (h : slot.Fits t none 0 i p)
    {side : Side} {j : Nat} : slot.child side = some j ↔ t.paths[j]? = some (p ++ [side]) := by
  rw [h.child_iff]
  simp

theorem exists_parent {i : Nat} {slot : Slot} (h : (layout t)[i]? = some slot) (hi : 0 < i) :
    ∃ q < i, ∃ above, slot.parent = some q ∧ (layout t)[q]? = some above ∧
      ∃! side, above.child side = some i := by
  obtain ⟨p, hp, hfits⟩ := exists_fits ht h
  rcases List.eq_nil_or_concat p with rfl | ⟨before, side, rfl⟩
  · exact absurd (place_unique hp (getElem?_paths_nil.2 ⟨rfl, ht⟩)) (Nat.ne_of_gt hi)
  · rw [List.concat_eq_append] at hp hfits
    obtain ⟨q, hq, hparent, hbefore⟩ := hfits.below before side rfl
    obtain ⟨above, habove, hfits'⟩ := fits_layout ht hbefore
    rw [Nat.zero_add] at hparent
    refine ⟨q, hq, above, hparent, habove, side, hfits'.child_eq.2 hp, fun side' hside' => ?_⟩
    have heq := Option.some.inj (hp.symm.trans (hfits'.child_eq.1 hside'))
    simpa using heq.symm

theorem exists_child {i j : Nat} {slot : Slot} {side : Side} (h : (layout t)[i]? = some slot)
    (hj : slot.child side = some j) :
    i < j ∧ ∃ below, (layout t)[j]? = some below ∧ below.parent = some i ∧
      below.node = slot.node.child side := by
  obtain ⟨p, hp, hfits⟩ := exists_fits ht h
  obtain ⟨below, hbelow, hfits'⟩ := fits_layout ht (hfits.child_eq.1 hj)
  obtain ⟨q, hq, hparent, hpath⟩ := hfits'.below p side rfl
  obtain rfl := place_unique hp hpath
  rw [Nat.zero_add] at hparent
  have hnode := hfits'.node
  rw [at?_concat hfits.node] at hnode
  split at hnode
  · cases hnode
  · exact ⟨hq, below, hbelow, hparent, (Option.some.inj hnode).symm⟩

theorem isSome_child {i : Nat} {slot : Slot} (h : (layout t)[i]? = some slot) (side : Side) :
    (slot.child side).isSome = !(slot.node.child side).isEmpty := by
  obtain ⟨p, -, hfits⟩ := exists_fits ht h
  have hat := at?_concat hfits.node side
  rw [Bool.eq_iff_iff, Option.isSome_iff_exists]
  simp only [hfits.child_eq, ← List.mem_iff_getElem?, mem_paths, hat]
  split <;> simp_all

theorem isNumbering_layout : IsNumbering t (layout t) where
  nodes := by rw [layout_eq ht, map_node_placed, nodes_eq_preorder]
  leads h := by
    obtain ⟨p, hp, hfits⟩ := exists_fits ht h
    exact ⟨p, hp, hfits.node⟩
  child_iff h hp side j := by
    obtain ⟨p', hp', hfits⟩ := exists_fits ht h
    obtain rfl := Option.some.inj (hp.symm.trans hp')
    exact hfits.child_eq
  root h := by
    obtain ⟨p, hp, hfits⟩ := exists_fits ht h
    exact hfits.root (Option.some.inj (hp.symm.trans (getElem?_paths_nil.2 ⟨rfl, ht⟩)))
  parent h hi := exists_parent ht h hi
  child side h := ⟨isSome_child ht h side, fun _ hj => exists_child ht h hj⟩
  once h h' hj hj' := by
    obtain ⟨p, hp, hfits⟩ := exists_fits ht h
    obtain ⟨p', hp', hfits'⟩ := exists_fits ht h'
    have heq := Option.some.inj ((hfits.child_eq.1 hj).symm.trans (hfits'.child_eq.1 hj'))
    obtain ⟨rfl, hside⟩ := List.append_inj' heq rfl
    exact ⟨place_unique hp hp', List.singleton_inj.1 hside⟩

end Layout

/-! ## The numbers that are looked up -/

/-- Both passes look up only numbers that have been noted by then. -/
structure InRange (refusals : Refusals) (slots : List Slot) : Prop where
  parent : ∀ {before after : List Slot} {slot : Slot} {ids : Array Int64} {s s' : Session},
    slots = before ++ slot :: after → insertSlots refusals before #[] s = (.ok ids, s') →
    insertSlots refusals slots #[] s = insertSlots refusals (slot :: after) ids s' ∧
      ∀ q, slot.parent = some q → q < ids.size
  child : ∀ {ids : Array Int64} {s s' : Session},
    insertSlots refusals slots #[] s = (.ok ids, s') → 0 < ids.size ∧
      ∀ {i : Nat} {slot : Slot}, slots[i]? = some slot →
        i < ids.size ∧ ∀ side j, slot.child side = some j → j < ids.size

theorem inRange_layout {t : Tree} (ht : t.isEmpty = false) (refusals : Refusals) :
    InRange refusals (layout t) where
  parent {before after slot ids s s'} heq h := by
    obtain ⟨hsize, hmore⟩ := insertSlots_append h
    refine ⟨by rw [heq, hmore], fun q hq => ?_⟩
    have hslot : (layout t)[before.length]? = some slot := by simp [heq]
    rw [hsize, List.size_toArray, List.length_nil, Nat.zero_add]
    cases hlength : before.length with
    | zero =>
        rw [hlength] at hslot
        rw [(isNumbering_layout ht).root hslot] at hq
        cases hq
    | succ n =>
        obtain ⟨q', hlt, -, hparent, -⟩ := exists_parent ht hslot (by omega)
        obtain rfl := Option.some.inj (hq.symm.trans hparent)
        exact hlength ▸ hlt
  child {ids s s'} h := by
    have hsize : ids.size = (layout t).length := by
      simpa using (insertSlots_append h).1
    have hlt {i : Nat} {slot : Slot} (hslot : (layout t)[i]? = some slot) : i < ids.size :=
      hsize ▸ (List.getElem?_eq_some_iff.1 hslot).1
    obtain ⟨slot, hslot, -⟩ := fits_layout ht (getElem?_paths_nil.2 ⟨rfl, ht⟩)
    refine ⟨hlt hslot, fun hi => ⟨hlt hi, fun side j hj => ?_⟩⟩
    obtain ⟨-, below, hbelow, -⟩ := exists_child ht hi hj
    exact hlt hbelow

/-! ## What the rows say of each other -/

/-- The number of the child on a side. -/
def NodeRow.child (r : NodeRow) : Side → Option Int64
  | .left => r.left
  | .right => r.right

/-- A list of rows for the nodes of a tree, in the order of a walk, each of which names as its
parent the one row that links to it. -/
structure Interlinked (t : Tree) (root : Option Int64) (rows : List NodeRow) : Prop where
  length : rows.length = t.nodeCount
  distinct : Distinct rows
  node : ∀ {i : Nat} {r : NodeRow} {node : Tree}, rows[i]? = some r → t.nodes[i]? = some node →
    r = (NodeRow.ofNode node r.parent r.id).linked r.left r.right ∧
      ∀ side, (r.child side).isSome = !(node.child side).isEmpty
  root : ∃ r, rows[0]? = some r ∧ root = some r.id ∧ r.parent = none
  parent : ∀ {i : Nat} {r : NodeRow}, rows[i]? = some r → 0 < i →
    ∃ q < i, ∃ above : NodeRow, rows[q]? = some above ∧ r.parent = some above.id ∧
      ∃! side, above.child side = some r.id
  child : ∀ {i : Nat} {r : NodeRow} {side : Side} {id : Int64}, rows[i]? = some r →
    r.child side = some id →
    ∃ j > i, ∃ below : NodeRow, rows[j]? = some below ∧ below.id = id ∧ below.parent = some r.id

theorem getElem?_rowsFrom (row : Slot → Nat → NodeRow) (slots : List Slot) (place i : Nat) :
    (rowsFrom row slots place)[i]? = slots[i]?.map (row · (place + i)) := by
  induction slots generalizing place i with
  | nil => rfl
  | cons slot slots ih =>
      cases i with
      | zero => rfl
      | succ i =>
          rw [rowsFrom, List.getElem?_cons_succ, List.getElem?_cons_succ, ih, Nat.add_right_comm,
            Nat.add_assoc]

section Rows

variable {ids : Array Int64} {slot : Slot} {place : Nat}

theorem id_written : (slot.written ids place).id = ids.getD place 0 :=
  id_inserted ids slot place

theorem parent_written : (slot.written ids place).parent = slot.parent.bind (ids[·]?) := by
  rw [Slot.written, Slot.inserted]
  cases slot.node <;> rfl

theorem child_written (side : Side) :
    (slot.written ids place).child side = (slot.child side).bind (ids[·]?) := by
  cases side <;> rfl

theorem written_eq {r : NodeRow} (h : slot.written ids place = r) :
    r = (NodeRow.ofNode slot.node r.parent r.id).linked r.left r.right := by
  subst h
  rw [parent_written, id_written]
  rfl

theorem getElem?_written {slots : List Slot} {i : Nat} {r : NodeRow} :
    (rowsFrom (Slot.written ids) slots 0)[i]? = some r ↔
      ∃ slot, slots[i]? = some slot ∧ slot.written ids i = r := by
  rw [getElem?_rowsFrom, Nat.zero_add, Option.map_eq_some_iff]

theorem number_unique (hnodup : ids.toList.Nodup) {i j : Nat} {id : Int64}
    (hi : ids[i]? = some id) (hj : ids[j]? = some id) : i = j := by
  rw [← Array.getElem?_toList] at hi hj
  exact (List.getElem?_inj (List.getElem?_eq_some_iff.1 hi).1 hnodup).1 (hi.trans hj.symm)

/-- The rows of the slots refer to each other by their numbers as the slots do by their
places. -/
theorem interlinked_written {t : Tree} (ht : t.isEmpty = false) (hsize : ids.size = t.size)
    (hnodup : ids.toList.Nodup) :
    Interlinked t ids[0]? (rowsFrom (Slot.written ids) (layout t) 0) := by
  have hlength : (layout t).length = t.size := by rw [layout_eq ht, length_placed]
  have hnumber {i : Nat} {slot : Slot} (h : (layout t)[i]? = some slot) :
      ids[i]? = some (slot.written ids i).id := by
    rw [id_written]
    exact getElem?_number (hsize ▸ hlength ▸ (List.getElem?_eq_some_iff.1 h).1)
  have hids : (rowsFrom (Slot.written ids) (layout t) 0).map (·.id) = ids.toList :=
    map_id_rows (id_inserted ids) (by rw [Array.length_toList, hsize, hlength])
  constructor
  case length =>
    rw [nodeCount_eq_size, ← hsize, ← Array.length_toList, ← hids, List.length_map]
  case distinct =>
    rw [Distinct, hids]
    exact hnodup
  case node =>
    intro i r node hr hnode
    obtain ⟨slot, hslot, hwritten⟩ := getElem?_written.1 hr
    rw [← (isNumbering_layout ht).nodes, List.getElem?_map, hslot] at hnode
    obtain rfl := Option.some.inj hnode
    refine ⟨written_eq hwritten, fun side => ?_⟩
    rw [← hwritten, child_written, ← isSome_child ht hslot side]
    cases hj : slot.child side with
    | none => rfl
    | some j =>
        obtain ⟨-, below, hbelow, -⟩ := exists_child ht hslot hj
        rw [Option.bind_some, hnumber hbelow]
        rfl
  case root =>
    obtain ⟨slot, hslot, hfits⟩ := fits_layout ht (getElem?_paths_nil.2 ⟨rfl, ht⟩)
    refine ⟨_, getElem?_written.2 ⟨slot, hslot, rfl⟩, hnumber hslot, ?_⟩
    rw [parent_written, hfits.root rfl]
    rfl
  case parent =>
    intro i r hr hi
    obtain ⟨slot, hslot, rfl⟩ := getElem?_written.1 hr
    obtain ⟨q, hq, above, hparent, habove, side, hside, honly⟩ := exists_parent ht hslot hi
    refine ⟨q, hq, _, getElem?_written.2 ⟨above, habove, rfl⟩, ?_, side, ?_, fun side' h => ?_⟩
    · rw [parent_written, hparent, Option.bind_some, hnumber habove]
    · show (above.written ids q).child side = _
      rw [child_written, hside, Option.bind_some, hnumber hslot]
    · change (above.written ids q).child side' = _ at h
      rw [child_written, Option.bind_eq_some_iff] at h
      obtain ⟨j, hj, hid⟩ := h
      obtain rfl := number_unique hnodup hid (hnumber hslot)
      exact honly side' hj
  case child =>
    intro i r side id hr hid
    obtain ⟨slot, hslot, rfl⟩ := getElem?_written.1 hr
    rw [child_written, Option.bind_eq_some_iff] at hid
    obtain ⟨j, hj, hid⟩ := hid
    obtain ⟨hlt, below, hbelow, hparent, -⟩ := exists_child ht hslot hj
    refine ⟨j, hlt, _, getElem?_written.2 ⟨below, hbelow, rfl⟩, ?_, ?_⟩
    · exact Option.some.inj ((hnumber hbelow).symm.trans hid)
    · rw [parent_written, hparent, Option.bind_some, hnumber hslot]

end Rows

/-- The layout of a tree numbers its nodes in the order of a walk, and each slot refers to the
next ones above and below it, whichever children are missing. So both passes over it find
every number that they look up; and when they are through, whatever rows were in the table
before, there is a row for each node, and its parent is the row that links to it. -/
theorem layout_numbers_tree {t : Tree} (ht : t ≠ .empty) :
    IsNumbering t (layout t) ∧ ∀ refusals, InRange refusals (layout t) ∧
      ∀ {s s' : Session} {root : Option Int64}, insertTree refusals t s = (.ok root, s') →
        Interlinked t root (s'.store.tables.nodes.drop s.store.tables.nodes.length) := by
  have hne := isEmpty_eq_false ht
  refine ⟨isNumbering_layout hne, fun refusals => ⟨inRange_layout hne refusals, fun h => ?_⟩⟩
  obtain ⟨ids, old, hsize, rfl, hdrawn, hold, -, hs'⟩ := insertTree_written hne h
  have hlength := congrArg List.length hold
  rw [List.length_map, List.length_map] at hlength
  rw [hs', ← layout_eq hne, ← hlength]
  show Interlinked t ids[0]? ((old ++ rowsFrom (Slot.written ids) (layout t) 0).drop old.length)
  rw [List.drop_left]
  exact interlinked_written hne hsize hdrawn.nodup

/-- A branch without its left child, beside a condition, is put into a table that has one row
already. -/
theorem layout_numbers_tree_missing_child :
    let t : Tree :=
      .branch .or (.branch .and .empty (.ofCondition "age > 30")) (.ofCondition "vip == 1")
    let s : Session := ⟨.ofTables ⟨[], [.ofConnective 7 .and none]⟩, []⟩
    t ≠ .empty ∧ IsNumbering t (layout t) ∧
      ∃ root s', insertTree (fun _ _ => none) t s = (.ok root, s') ∧
        Interlinked t root (s'.store.tables.nodes.drop 1) := by
  intro t s
  have ht : t ≠ .empty := by decide
  obtain ⟨hnumbering, hwritten⟩ := layout_numbers_tree ht
  have hroom : s.store.lastNode.toInt + t.size ≤ Int64.maxValue.toInt := by decide
  obtain ⟨root, s', h⟩ : ∃ root s', insertTree (fun _ _ => none) t s = (.ok root, s') :=
    insertTree_unrefused (fun _ _ => rfl) hroom
  exact ⟨ht, hnumbering, root, s', h, (hwritten _).2 h⟩

end Database

end Criteria
