import Criteria.Database.Repository
import Criteria.Proofs.Encoding
import Criteria.Proofs.Placement
import Criteria.Proofs.Sessions

/-!
# A tree is written as its rows

A tree goes into the table in two passes. The first one inserts the nodes in
the order of their slots, each with the number of its parent, which is known
because a parent comes before its children; the second one fills in the numbers
of the children. This file reads off what each pass does. What the two come to
is `insertTree_written`, whatever rows were in the table before: the rows of the
slots have come to it. If the numbers of the earlier rows are apart, these rows
stay as they were, and `insertTree_ok` says the rest: the table has grown by rows
that encode the tree, under numbers never handed out before.

A refusal needs no such account. A transaction that fails is rolled back, and
all that stays of it is that numbers are used up.
-/

namespace Criteria.Database

open Session

variable {refusals : Refusals} {s s' : Session}

/-! ## The rows of slots

The numbers that the slots get are in a list of their own, each at the place of
its slot. `Slot.inserted` is the row after the first pass and `Slot.written`
the row after the second; both look the numbers of other slots up in that
list. -/

/-- The row of a node, before its children are known. -/
def NodeRow.ofNode (t : Tree) (parent : Option Int64) (id : Int64) : NodeRow :=
  match t with
  | .branch c _ _ => .ofConnective id c parent
  | .leaf c => .ofCondition id c parent
  | .empty => .ofCondition id (Condition.formless "") parent

/-- The row of the slot at a place, as it is inserted. -/
def Slot.inserted (ids : Array Int64) (slot : Slot) (place : Nat) : NodeRow :=
  .ofNode slot.node (slot.parent.bind (ids[·]?)) (ids.getD place 0)

/-- The row of the slot at a place, with the numbers of its children. -/
def Slot.written (ids : Array Int64) (slot : Slot) (place : Nat) : NodeRow :=
  (slot.inserted ids place).linked (slot.left.bind (ids[·]?)) (slot.right.bind (ids[·]?))

/-- The rows of some slots, the first of which stands at a place. -/
def rowsFrom (row : Slot → Nat → NodeRow) : List Slot → Nat → List NodeRow
  | [], _ => []
  | slot :: rest, place => row slot place :: rowsFrom row rest (place + 1)

theorem rowsFrom_append (row : Slot → Nat → NodeRow) (slots more : List Slot)
    (place : Nat) :
    rowsFrom row (slots ++ more) place =
      rowsFrom row slots place ++ rowsFrom row more (place + slots.length) := by
  induction slots generalizing place with
  | nil => rfl
  | cons slot slots ih =>
      rw [List.cons_append, rowsFrom, rowsFrom, ih, List.length_cons, List.cons_append,
        Nat.add_right_comm, Nat.add_assoc]

theorem id_ofNode (t : Tree) (parent : Option Int64) (id : Int64) :
    (NodeRow.ofNode t parent id).id = id := by
  cases t <;> rfl

theorem linked_ofNode (t : Tree) (parent : Option Int64) (id : Int64) :
    (NodeRow.ofNode t parent id).linked none none = NodeRow.ofNode t parent id := by
  cases t <;> rfl

theorem id_inserted (ids : Array Int64) (slot : Slot) (place : Nat) :
    (slot.inserted ids place).id = ids.getD place 0 :=
  id_ofNode _ _ _

theorem map_id_rowsFrom {ids old new : List Int64} {row : Slot → Nat → NodeRow}
    (hid : ∀ slot place, (row slot place).id = ids.getD place 0) :
    ∀ {slots : List Slot}, new.length = slots.length → ids = old ++ new →
      (rowsFrom row slots old.length).map (·.id) = new := by
  intro slots
  induction slots generalizing old new with
  | nil =>
      intro hlen _
      exact (List.eq_nil_of_length_eq_zero hlen).symm
  | cons slot slots ih =>
      intro hlen hids
      cases new with
      | nil => cases hlen
      | cons id new =>
          have hnew := ih (Nat.succ.inj hlen)
            (show ids = (old ++ [id]) ++ new by rw [hids, List.append_assoc, List.singleton_append])
          rw [List.length_append, List.length_singleton] at hnew
          have hhead : ids.getD old.length 0 = id := by
            simp [hids, List.getD_eq_getElem?_getD]
          rw [rowsFrom, List.map_cons, hnew, hid, hhead]

theorem map_id_rows {ids : Array Int64} {row : Slot → Nat → NodeRow} {slots : List Slot}
    (hid : ∀ slot place, (row slot place).id = ids.getD place 0)
    (hlen : ids.toList.length = slots.length) :
    (rowsFrom row slots 0).map (·.id) = ids.toList := by
  refine @map_id_rowsFrom ids.toList [] ids.toList row (fun slot place => ?_) slots hlen rfl
  rw [hid, Array.getD_eq_getD_getElem?, List.getD_eq_getElem?_getD, Array.getElem?_toList]

theorem getElem?_number {ids : Array Int64} {place : Nat} (h : place < ids.size) :
    ids[place]? = some (ids.getD place 0) := by
  rw [Array.getD_eq_getD_getElem?, Array.getElem?_eq_getElem h, Option.getD_some]

/-- Once all slots are written, the rows encode the tree. -/
theorem encodes_placed {ids : Array Int64} (t : Tree) :
    ∀ (parent : Option Nat) (place : Nat), place + t.size ≤ ids.size →
      Encodes (parent.bind (ids[·]?)) t ((placeOf t place).bind (ids[·]?))
        (rowsFrom (Slot.written ids) (placed parent place t) place) := by
  induction t with
  | empty => intro parent place _; exact .empty
  | leaf c =>
      intro parent place hle
      rw [Tree.size] at hle
      have hroot := getElem?_number (show place < ids.size by omega)
      rw [placeOf, if_neg (by simp [Tree.isEmpty]), Option.bind_some, hroot]
      exact .leaf
  | branch c left right ihl ihr =>
      intro parent place hle
      rw [Tree.size] at hle
      have hroot := getElem?_number (show place < ids.size by omega)
      have hl := ihl (some place) (place + 1) (by omega)
      have hr := ihr (some place) (place + 1 + left.size) (by omega)
      rw [Option.bind_some, hroot] at hl hr
      rw [placeOf, if_neg (by simp [Tree.isEmpty]), Option.bind_some, hroot, placed,
        rowsFrom, rowsFrom_append, length_placed]
      exact .branch hl hr

/-! ## The first pass -/

/-- Slots that come after the slots of their parents. -/
def Downward : List Slot → Nat → Prop
  | [], _ => True
  | slot :: rest, place => (∀ p, slot.parent = some p → p < place) ∧ Downward rest (place + 1)

theorem Downward.append {slots more : List Slot} {place : Nat} (h : Downward slots place)
    (hmore : Downward more (place + slots.length)) : Downward (slots ++ more) place := by
  induction slots generalizing place with
  | nil => exact hmore
  | cons slot slots ih =>
      rw [List.length_cons] at hmore
      exact ⟨h.1, ih h.2 (by rwa [Nat.add_right_comm, Nat.add_assoc])⟩

theorem downward_placed (t : Tree) :
    ∀ {parent : Option Nat} {place : Nat}, (∀ p, parent = some p → p < place) →
      Downward (placed parent place t) place := by
  induction t with
  | empty => intro parent place _; exact trivial
  | leaf c => intro parent place h; exact ⟨h, trivial⟩
  | branch c left right ihl ihr =>
      intro parent place h
      refine ⟨h, Downward.append (ihl fun p hp => ?_) ?_⟩
      · cases hp; exact Nat.lt_succ_self _
      · rw [length_placed]
        exact ihr fun p hp => by cases hp; omega

theorem run_insertion (t : Tree) (parent : Option Int64) (s : Store) :
    (insertion t parent).run s = s.insertNode (.ofNode t parent) := by
  cases t <;> rfl

/-- Numbers handed out between two moments, in this order. -/
def Drawn (before after : Int64) (ids : List Int64) : Prop :=
  ids.Pairwise (· < ·) ∧ ∀ id ∈ ids, before < id ∧ id ≤ after

theorem Drawn.nodup {before after : Int64} {ids : List Int64} (h : Drawn before after ids) :
    ids.Nodup :=
  h.1.imp Int64.ne_of_lt

theorem Drawn.cons {before id after : Int64} {ids : List Int64} (hid : before < id)
    (hle : id ≤ after) (h : Drawn id after ids) : Drawn before after (id :: ids) := by
  refine ⟨List.pairwise_cons.2 ⟨fun n hn => (h.2 n hn).1, h.1⟩, fun n hn => ?_⟩
  rcases List.mem_cons.1 hn with rfl | hn
  · exact ⟨hid, hle⟩
  · exact ⟨Int64.lt_trans hid (h.2 n hn).1, (h.2 n hn).2⟩

theorem insertSlots_cons (refusals : Refusals) (slot : Slot) (slots : List Slot)
    (ids : Array Int64) :
    insertSlots refusals (slot :: slots) ids =
      andThen (query refusals (insertion slot.node (slot.parent.bind (ids[·]?))))
        fun id => insertSlots refusals slots (ids.push id) := by
  funext s
  rw [insertSlots, andThen]
  split
  · next h => rw [h]
  · next h => rw [h]

/-- The first pass after the slots that it has come through. -/
theorem insertSlots_append {slots : List Slot} {ids ids' : Array Int64}
    (h : insertSlots refusals slots ids s = (.ok ids', s')) :
    ids'.size = ids.size + slots.length ∧ ∀ more,
      insertSlots refusals (slots ++ more) ids s = insertSlots refusals more ids' s' := by
  induction slots generalizing ids s with
  | nil =>
      cases h
      exact ⟨rfl, fun _ => rfl⟩
  | cons slot slots ih =>
      rw [insertSlots_cons] at h
      obtain ⟨id, s₁, hquery, h⟩ := andThen_ok h
      obtain ⟨hsize, hmore⟩ := ih h
      rw [Array.size_push] at hsize
      refine ⟨by rw [hsize, List.length_cons]; omega, fun more => ?_⟩
      rw [List.cons_append, insertSlots_cons, andThen_eq hquery, hmore]

theorem Orderly.insertSlots (refusals : Refusals) (slots : List Slot) (ids : Array Int64) :
    Orderly (insertSlots refusals slots ids) := by
  induction slots generalizing ids with
  | nil => exact .answer ids
  | cons slot slots ih =>
      rw [insertSlots_cons]
      exact .andThen (.query _ _) fun id => ih (ids.push id)

/-- The numbers that come later do not change a row that is inserted. -/
theorem inserted_eq {ids ids' : Array Int64} {new : List Int64} {id : Int64} {slot : Slot}
    (hids : ids'.toList = ids.toList ++ id :: new)
    (hparent : ∀ p, slot.parent = some p → p < ids.size) :
    slot.inserted ids' ids.size = .ofNode slot.node (slot.parent.bind (ids[·]?)) id := by
  have hself : ids'.getD ids.size 0 = id := by
    rw [Array.getD_eq_getD_getElem?, ← Array.getElem?_toList, hids]
    simp
  have hlookup : slot.parent.bind (ids'[·]?) = slot.parent.bind (ids[·]?) := by
    cases hp : slot.parent with
    | none => rfl
    | some p =>
        have hlt : p < ids.toList.length := by simpa using hparent p hp
        show ids'[p]? = ids[p]?
        rw [← Array.getElem?_toList, hids, List.getElem?_append_left hlt, Array.getElem?_toList]
  rw [Slot.inserted, hself, hlookup]

/-- What the first pass has done when it comes to its end. -/
theorem insertSlots_ok {slots : List Slot} {ids ids' : Array Int64}
    (hdown : Downward slots ids.size)
    (h : insertSlots refusals slots ids s = (.ok ids', s')) :
    ∃ new, ids'.toList = ids.toList ++ new ∧ new.length = slots.length ∧
      Drawn s.store.lastNode s'.store.lastNode new ∧
      s'.store = { s.store with
        lastNode := s'.store.lastNode
        tables := { s.store.tables with
          nodes := s.store.tables.nodes ++ rowsFrom (Slot.inserted ids') slots ids.size } } := by
  induction slots generalizing ids s with
  | nil =>
      cases h
      exact ⟨[], by simp, rfl, ⟨.nil, fun _ hn => by cases hn⟩, by simp [rowsFrom]⟩
  | cons slot slots ih =>
      rw [insertSlots_cons] at h
      obtain ⟨id, s₁, hres, h⟩ := andThen_ok h
      have hrun := query_ok hres
      rw [run_insertion] at hrun
      obtain ⟨hid, hstore⟩ := Store.insertNode_ok hrun
      have hlater := (Orderly.insertSlots refusals slots (ids.push id)).later h
      have hlast : s₁.store.lastNode = id := by rw [hstore]
      obtain ⟨new, hids, hlen, hdrawn, hs'⟩ := ih (by rw [Array.size_push]; exact hdown.2) h
      rw [Array.toList_push, List.append_assoc, List.singleton_append] at hids
      rw [hlast] at hdrawn
      refine ⟨id :: new, hids, by rw [List.length_cons, hlen, List.length_cons],
        .cons (next?_eq_some hid).1 (hlast ▸ hlater.node) hdrawn, ?_⟩
      rw [hs', hstore, rowsFrom, inserted_eq hids hdown.1, Array.size_push]
      simp

/-! ## The second pass -/

/-- Rows after the links of those of one number are filled in. -/
def linkRows (id : Int64) (left right : Option Int64) (rows : List NodeRow) : List NodeRow :=
  rows.map fun r => if r.id = id then r.linked left right else r

theorem map_id_linkRows (id : Int64) (left right : Option Int64) (rows : List NodeRow) :
    (linkRows id left right rows).map (·.id) = rows.map (·.id) := by
  rw [linkRows, List.map_map]
  refine List.map_congr_left fun r _ => ?_
  rw [Function.comp_apply]
  split <;> rfl

theorem linkRows_eq_self {id : Int64} {rows : List NodeRow} (h : id ∉ rows.map (·.id))
    (left right : Option Int64) : linkRows id left right rows = rows :=
  (List.map_congr_left fun r hr => if_neg fun hid : r.id = id =>
    h (hid ▸ List.mem_map_of_mem hr)).trans (List.map_id rows)

theorem linkRows_eq {before after : List NodeRow} {row : NodeRow}
    (hd : Distinct (before ++ row :: after)) (left right : Option Int64) :
    linkRows row.id left right (before ++ row :: after) =
      before ++ row.linked left right :: after := by
  rw [Distinct, List.map_append, List.map_cons, List.nodup_middle, List.nodup_cons] at hd
  have hbefore := linkRows_eq_self (fun h => hd.1 (List.mem_append_left _ h)) left right
  have hafter := linkRows_eq_self (fun h => hd.1 (List.mem_append_right _ h)) left right
  rw [linkRows] at hbefore hafter ⊢
  rw [List.map_append, List.map_cons, hbefore, hafter, if_pos rfl]

def linking (ids : Array Int64) (slot : Slot) (place : Nat) : Statement Unit :=
  .linkChildren (ids.getD place 0) (slot.left.bind (ids[·]?)) (slot.right.bind (ids[·]?))

theorem linkSlots_cons (refusals : Refusals) (ids : Array Int64) (slot : Slot)
    (slots : List Slot) (place : Nat) :
    linkSlots refusals ids (slot :: slots) place =
      if slot.left.isNone && slot.right.isNone then linkSlots refusals ids slots (place + 1)
      else
        andThen (query refusals (linking ids slot place))
          fun _ => linkSlots refusals ids slots (place + 1) := by
  funext s
  rw [linkSlots]
  split
  · rfl
  · rw [andThen, linking]
    split
    · next h => rw [h]
    · next h => rw [h]

theorem Orderly.linkSlots (refusals : Refusals) (ids : Array Int64) (slots : List Slot)
    (place : Nat) : Orderly (linkSlots refusals ids slots place) := by
  induction slots generalizing place with
  | nil => exact .answer ()
  | cons slot slots ih =>
      rw [linkSlots_cons]
      split
      · exact ih (place + 1)
      · exact .andThen (.query _ _) fun _ => ih (place + 1)

/-- What the second pass has done when it comes to its end: the rows of the
first pass, which are the last ones of the table, know their children. The rows
before them are as they were, unless one has the number of a new row. -/
theorem linkSlots_ok {slots : List Slot} {ids : Array Int64} {place : Nat}
    {old before : List NodeRow} {u : Unit}
    (hnodes : s.store.tables.nodes =
      old ++ (before ++ rowsFrom (Slot.inserted ids) slots place))
    (hd : Distinct (before ++ rowsFrom (Slot.inserted ids) slots place))
    (h : linkSlots refusals ids slots place s = (.ok u, s')) :
    ∃ old', old'.map (·.id) = old.map (·.id) ∧
      (Distinct s.store.tables.nodes → old' = old) ∧
      s'.store = { s.store with
        tables := { s.store.tables with
          nodes := old' ++ (before ++ rowsFrom (Slot.written ids) slots place) } } := by
  induction slots generalizing place s old before with
  | nil =>
      cases h
      rw [rowsFrom] at hnodes ⊢
      exact ⟨old, rfl, fun _ => rfl, by rw [← hnodes]⟩
  | cons slot slots ih =>
      rw [rowsFrom] at hnodes hd ⊢
      rw [List.append_cons before (slot.written ids place)]
      rw [linkSlots_cons] at h
      split at h
      · next hnone =>
          simp only [Bool.and_eq_true, Option.isNone_iff_eq_none] at hnone
          have hrow : slot.written ids place = slot.inserted ids place := by
            rw [Slot.written, hnone.1, hnone.2, Option.bind_none, Slot.inserted, linked_ofNode]
          rw [List.append_cons before] at hnodes hd
          rw [hrow]
          exact ih hnodes hd h
      · obtain ⟨u, s₁, hres, h⟩ := andThen_ok h
        have hid := id_inserted ids slot place
        have hstore : s₁.store = { s.store with
            tables := { s.store.tables with
              nodes := linkRows (ids.getD place 0) (slot.left.bind (ids[·]?))
                  (slot.right.bind (ids[·]?)) old
                ++ ((before ++ [slot.written ids place])
                  ++ rowsFrom (Slot.inserted ids) slots (place + 1)) } } := by
          have hrun := query_ok hres
          have hlink := linkRows_eq hd (slot.left.bind (ids[·]?)) (slot.right.bind (ids[·]?))
          rw [hid, ← Slot.written, List.append_cons before (slot.written ids place)] at hlink
          rw [← hlink, linkRows, linkRows, ← List.map_append, ← hnodes]
          exact (Prod.mk.inj hrun).2.symm
        have hd' : Distinct ((before ++ [slot.written ids place])
            ++ rowsFrom (Slot.inserted ids) slots (place + 1)) := by
          simpa [Distinct, Slot.written, NodeRow.linked] using hd
        obtain ⟨old', hids, hsame, hs'⟩ := ih (by rw [hstore]) hd' h
        refine ⟨old', hids.trans (map_id_linkRows _ _ _ old), fun hall => ?_, by rw [hs', hstore]⟩
        rw [hnodes, Distinct, List.map_append] at hall
        have hapart : ids.getD place 0 ∉ old.map (·.id) := fun hmem =>
          (List.nodup_append.1 hall).2.2 _ hmem _ (by simp [hid]) rfl
        rw [linkRows_eq_self hapart] at hsame hstore
        refine hsame ?_
        rw [hstore, Distinct, List.map_append]
        simpa [Slot.written, NodeRow.linked] using hall

/-! ## The tree -/

theorem insertTree_eq (refusals : Refusals) (t : Tree) :
    insertTree refusals t =
      if t.isEmpty then fun s => (.ok none, s)
      else
        andThen (insertSlots refusals (layout t) #[]) fun ids =>
          andThen (linkSlots refusals ids (layout t) 0) fun _ s => (.ok ids[0]?, s) := by
  funext s
  rw [insertTree]
  split
  · rfl
  · simp only [andThen]
    split
    · next h => rw [h]
    · next h =>
        simp only [h]
        split
        · next h' => rw [h']
        · next h' => rw [h']

theorem Orderly.insertTree (refusals : Refusals) (t : Tree) :
    Orderly (insertTree refusals t) := by
  rw [insertTree_eq]
  split
  · exact .answer none
  · exact .andThen (.insertSlots _ _ _) fun ids => .andThen (.linkSlots _ _ _ _) fun _ =>
      .answer ids[0]?

/-- A tree that was inserted: the rows of its slots have come to the table, under
numbers drawn in between. -/
theorem insertTree_written {t : Tree} {root : Option Int64} (hne : t.isEmpty = false)
    (h : insertTree refusals t s = (.ok root, s')) :
    ∃ (ids : Array Int64) (old : List NodeRow), ids.size = t.size ∧ root = ids[0]? ∧
      Drawn s.store.lastNode s'.store.lastNode ids.toList ∧
      old.map (·.id) = s.store.tables.nodes.map (·.id) ∧
      (Distinct s.store.tables.nodes → (∀ r ∈ s.store.tables.nodes, r.id ≤ s.store.lastNode) →
        old = s.store.tables.nodes) ∧
      s'.store = { s.store with
        lastNode := s'.store.lastNode
        tables := { s.store.tables with
          nodes := old ++ rowsFrom (Slot.written ids) (placed none 0 t) 0 } } := by
  rw [insertTree_eq, if_neg (by simp [hne]), layout_eq hne] at h
  obtain ⟨ids, s₁, hins, h⟩ := andThen_ok h
  obtain ⟨u, s₂, hlink, h⟩ := andThen_ok h
  cases h
  have hdown : Downward (placed none 0 t) (#[] : Array Int64).size :=
    downward_placed t fun p hp => by cases hp
  obtain ⟨new, hids, hlen, hdrawn, hs₁⟩ := insertSlots_ok hdown hins
  obtain rfl : ids.toList = new := hids
  have hinserted : (rowsFrom (Slot.inserted ids) (placed none 0 t) 0).map (·.id) = ids.toList :=
    map_id_rows (id_inserted ids) hlen
  have hblock : Distinct (rowsFrom (Slot.inserted ids) (placed none 0 t) 0) := by
    rw [Distinct, hinserted]
    exact hdrawn.nodup
  have hnodes : s₁.store.tables.nodes = s.store.tables.nodes
      ++ ([] ++ rowsFrom (Slot.inserted ids) (placed none 0 t) 0) := by
    rw [hs₁]; rfl
  obtain ⟨old, hold, hsame, hs₂⟩ := linkSlots_ok hnodes hblock hlink
  have hlast : s'.store.lastNode = s₁.store.lastNode := by rw [hs₂]
  refine ⟨ids, old, ?_, rfl, ?_, hold, fun hd hle => hsame ?_, ?_⟩
  · rw [← Array.length_toList, hlen, length_placed]
  · rw [hlast]
    exact hdrawn
  · rw [hnodes, List.nil_append]
    refine hd.append hle hblock fun id hid => ?_
    rw [hinserted] at hid
    exact (hdrawn.2 id hid).1
  · rw [hs₂, hs₁]
    rfl

/-- A tree that was inserted: rows that encode it have come to the table, under
numbers drawn in between, and nothing else has changed. -/
theorem insertTree_ok {t : Tree} {root : Option Int64}
    (hd : Distinct s.store.tables.nodes)
    (hle : ∀ r ∈ s.store.tables.nodes, r.id ≤ s.store.lastNode)
    (h : insertTree refusals t s = (.ok root, s')) :
    ∃ block, Encodes none t root block ∧
      Drawn s.store.lastNode s'.store.lastNode (block.map (·.id)) ∧
      s'.store = { s.store with
        lastNode := s'.store.lastNode
        tables := { s.store.tables with nodes := s.store.tables.nodes ++ block } } := by
  cases hempty : t.isEmpty with
  | true =>
      rw [insertTree_eq, if_pos hempty] at h
      cases h
      obtain rfl := eq_empty_of_isEmpty hempty
      exact ⟨[], .empty, ⟨.nil, fun _ hn => by cases hn⟩, by simp⟩
  | false =>
      obtain ⟨ids, old, hsize, rfl, hdrawn, -, hsame, hs'⟩ := insertTree_written hempty h
      have hwritten : (rowsFrom (Slot.written ids) (placed none 0 t) 0).map (·.id) = ids.toList :=
        map_id_rows (id_inserted ids) (by rw [Array.length_toList, hsize, length_placed])
      have henc := encodes_placed t none 0 (show 0 + t.size ≤ ids.size by omega)
      rw [placeOf, if_neg (by simp [hempty]), Option.bind_some] at henc
      rw [hsame hd hle] at hs'
      refine ⟨_, henc, ?_, hs'⟩
      rw [hwritten]
      exact hdrawn

/-! ## When nothing is refused -/

section Unrefused

variable (hnone : ∀ earlier text, refusals earlier text = none)
include hnone

/-- With nothing refused, only the end of the sequence stops the first pass. -/
theorem insertSlots_unrefused {slots : List Slot} {ids : Array Int64}
    (hroom : s.store.lastNode.toInt + slots.length ≤ Int64.maxValue.toInt) :
    ∃ ids' s', insertSlots refusals slots ids s = (.ok ids', s') := by
  induction slots generalizing ids s with
  | nil => exact ⟨ids, s, rfl⟩
  | cons slot slots ih =>
      rw [List.length_cons] at hroom
      obtain ⟨id, hid⟩ := next?_isSome (show s.store.lastNode.toInt < _ by omega)
      have hrun := run_insertion slot.node (slot.parent.bind (ids[·]?)) s.store
      rw [Store.insertNode, hid] at hrun
      obtain ⟨s₁, hquery, hstore⟩ := query_unrefused hnone (congrArg Prod.fst hrun)
      have hlast : s₁.store.lastNode.toInt = s.store.lastNode.toInt + 1 := by
        rw [hstore, hrun]
        exact (next?_eq_some hid).2
      rw [insertSlots_cons, andThen_eq hquery]
      exact ih (by omega)

theorem linkSlots_unrefused (slots : List Slot) (ids : Array Int64) (place : Nat)
    (s : Session) : ∃ s', linkSlots refusals ids slots place s = (.ok (), s') := by
  induction slots generalizing place s with
  | nil => exact ⟨s, rfl⟩
  | cons slot slots ih =>
      rw [linkSlots_cons]
      split
      · exact ih (place + 1) s
      · obtain ⟨s₁, hquery, -⟩ := query_unrefused hnone
          (show ((linking ids slot place).run s.store).1 = .ok () from rfl)
        rw [andThen_eq hquery]
        exact ih (place + 1) s₁

theorem insertTree_unrefused {t : Tree}
    (hroom : s.store.lastNode.toInt + t.size ≤ Int64.maxValue.toInt) :
    ∃ root s', insertTree refusals t s = (.ok root, s') := by
  rw [insertTree_eq]
  split
  · exact ⟨none, s, rfl⟩
  · next hne =>
      rw [Bool.not_eq_true] at hne
      rw [layout_eq hne]
      obtain ⟨ids, s₁, hins⟩ := insertSlots_unrefused hnone
        (show s.store.lastNode.toInt + (placed none 0 t).length ≤ _ by rwa [length_placed])
      obtain ⟨s₂, hlink⟩ := linkSlots_unrefused hnone (placed none 0 t) ids 0 s₁
      rw [andThen_eq hins, andThen_eq hlink]
      exact ⟨_, _, rfl⟩

end Unrefused

end Criteria.Database
