import Criteria.Database.Layout
import Mathlib.Algebra.GroupWithZero.Nat

/-!
# Where the nodes of a tree are put

`layout` fills its list with a stack of subtrees still to be put down, and goes
back to a parent's slot when it comes to a child. `placed` says outright what
comes of that: a node stands before its left subtree and that before its right
one, so that the place of a child follows from the sizes of the subtrees before
it, and a slot can be written down complete.

The two meet in `layoutFrom_eq`, which holds for any stack. Two things happen
to a pending subtree whatever lies above it on the stack: its parent is told
where it goes, and its slots come after those of the subtrees before it. The
place is known beforehand, so both can be said without running the loop.
-/

namespace Criteria.Database

/-- The place of a subtree that would come next; the empty tree takes none. -/
def placeOf (t : Tree) (place : Nat) : Option Nat :=
  if t.isEmpty then none else some place

/-- The slots of a tree whose root comes at a place. -/
def placed (parent : Option Nat) (place : Nat) : Tree → List Slot
  | .empty => []
  | .leaf c => [⟨.leaf c, parent, none, none⟩]
  | .branch c left right =>
    ⟨.branch c left right, parent, placeOf left (place + 1),
        placeOf right (place + 1 + left.size)⟩ ::
      (placed (some place) (place + 1) left
        ++ placed (some place) (place + 1 + left.size) right)

theorem length_placed (parent : Option Nat) (place : Nat) (t : Tree) :
    (placed parent place t).length = t.size := by
  induction t generalizing parent place with
  | empty => rfl
  | leaf c => rfl
  | branch c left right ihl ihr =>
      rw [placed, List.length_cons, List.length_append, ihl, ihr, Tree.size]

/-! ## Lists changed at one place -/

theorem modify_append_of_lt {α : Type} (f : α → α) (m : List α) :
    ∀ (l : List α) {i : Nat}, i < l.length →
      (l ++ m).modify i f = l.modify i f ++ m := by
  intro l
  induction l with
  | nil => intro i h; exact absurd h (Nat.not_lt_zero i)
  | cons a l ih =>
      intro i h
      cases i with
      | zero => rfl
      | succ i =>
          rw [List.cons_append, List.modify_succ_cons, List.modify_succ_cons,
            ih (Nat.lt_of_succ_lt_succ h), List.cons_append]

theorem modify_append_length {α : Type} (f : α → α) (a : α) (l : List α) :
    (l ++ [a]).modify l.length f = l ++ [f a] := by
  induction l with
  | nil => rfl
  | cons b l ih =>
      rw [List.cons_append, List.length_cons, List.modify_succ_cons, ih,
        List.cons_append]

/-! ## What becomes of a stack -/

/-- Tells the parent of a pending subtree, if it has one, where the subtree
goes. -/
def Pending.tell (p : Pending) (place : Nat) (slots : List Slot) : List Slot :=
  match p.parent with
  | none => slots
  | some q => slots.modify q (·.link p.isLeft place)

def room (stack : List Pending) : Nat :=
  (stack.map (·.node.size)).sum

def tellAll : List Pending → Nat → List Slot → List Slot
  | [], _, slots => slots
  | p :: rest, place, slots =>
    tellAll rest (place + p.node.size) (p.tell place slots)

def placedAll : List Pending → Nat → List Slot
  | [], _ => []
  | p :: rest, place =>
    placed p.parent place p.node ++ placedAll rest (place + p.node.size)

/-- A stack that the loop can be in: what is pending is not empty, and its
parent has been put down already. -/
def Waiting (stack : List Pending) (n : Nat) : Prop :=
  ∀ p ∈ stack, p.node.isEmpty = false ∧ ∀ q, p.parent = some q → q < n

theorem Waiting.mono {stack : List Pending} {n m : Nat} (h : Waiting stack n)
    (hle : n ≤ m) : Waiting stack m :=
  fun p hp => ⟨(h p hp).1, fun q hq => Nat.lt_of_lt_of_le ((h p hp).2 q hq) hle⟩

@[simp] theorem length_tell (p : Pending) (place : Nat) (slots : List Slot) :
    (p.tell place slots).length = slots.length := by
  unfold Pending.tell
  split
  · rfl
  · exact List.length_modify _ _ _

theorem length_tellAll (stack : List Pending) (place : Nat) (slots : List Slot) :
    (tellAll stack place slots).length = slots.length := by
  induction stack generalizing place slots with
  | nil => rfl
  | cons p stack ih => rw [tellAll, ih, length_tell]

theorem tell_append {p : Pending} {place : Nat} {slots more : List Slot}
    (h : ∀ q, p.parent = some q → q < slots.length) :
    p.tell place (slots ++ more) = p.tell place slots ++ more := by
  unfold Pending.tell
  split
  · rfl
  · next q hq => exact modify_append_of_lt _ more slots (h q hq)

theorem tellAll_append_stack (above below : List Pending) (place : Nat)
    (slots : List Slot) :
    tellAll (above ++ below) place slots =
      tellAll below (place + room above) (tellAll above place slots) := by
  induction above generalizing place slots with
  | nil => rfl
  | cons p above ih =>
      rw [List.cons_append, tellAll, tellAll, ih, room, room, List.map_cons,
        List.sum_cons, Nat.add_assoc]

theorem placedAll_append_stack (above below : List Pending) (place : Nat) :
    placedAll (above ++ below) place =
      placedAll above place ++ placedAll below (place + room above) := by
  induction above generalizing place with
  | nil => rfl
  | cons p above ih =>
      rw [List.cons_append, placedAll, placedAll, ih, room, room, List.map_cons,
        List.sum_cons, Nat.add_assoc, List.append_assoc]

/-- Slots whose places no pending subtree names as its parent are left alone. -/
theorem tellAll_append_slots {stack : List Pending} {slots : List Slot}
    (h : Waiting stack slots.length) (place : Nat) (more : List Slot) :
    tellAll stack place (slots ++ more) = tellAll stack place slots ++ more := by
  induction stack generalizing place slots with
  | nil => rfl
  | cons p stack ih =>
      rw [tellAll, tellAll, tell_append (h p List.mem_cons_self).2]
      refine ih (fun q hq => ?_) _
      rw [length_tell]
      exact h q (List.mem_cons_of_mem _ hq)

theorem eq_empty_of_isEmpty {t : Tree} (h : t.isEmpty = true) : t = .empty := by
  cases t with
  | empty => rfl
  | leaf c => cases h
  | branch c left right => cases h

theorem room_pendingChildren {t : Tree} (h : t.isEmpty = false) (place : Nat) :
    room (pendingChildren t place) + 1 = t.size := by
  cases t with
  | empty => cases h
  | leaf c => rfl
  | branch c left right =>
      cases left <;> cases right <;>
        simp [room, pendingChildren, Tree.isEmpty, Tree.size]

/-- A node put down last, its children pending, makes the slots of its tree. -/
theorem placedAll_pendingChildren {t : Tree} (h : t.isEmpty = false)
    (parent : Option Nat) (slots : List Slot) :
    tellAll (pendingChildren t slots.length) (slots.length + 1)
        (slots ++ [⟨t, parent, none, none⟩])
      ++ placedAll (pendingChildren t slots.length) (slots.length + 1) =
    slots ++ placed parent slots.length t := by
  cases t with
  | empty => cases h
  | leaf c => simp [pendingChildren, tellAll, placedAll, placed]
  | branch c left right =>
      cases hl : left.isEmpty <;> cases hr : right.isEmpty
      · simp [pendingChildren, hl, hr, tellAll, placedAll, placed, placeOf, Pending.tell,
          Slot.link, modify_append_length]
      · obtain rfl := eq_empty_of_isEmpty hr
        simp [pendingChildren, hl, hr, tellAll, placedAll, placed, placeOf, Pending.tell,
          Slot.link, modify_append_length]
      · obtain rfl := eq_empty_of_isEmpty hl
        simp [pendingChildren, hl, hr, tellAll, placedAll, placed, placeOf, Pending.tell,
          Slot.link, modify_append_length, Tree.size]
      · obtain rfl := eq_empty_of_isEmpty hl
        obtain rfl := eq_empty_of_isEmpty hr
        simp [pendingChildren, hl, tellAll, placedAll, placed, placeOf]

theorem waiting_pendingChildren (t : Tree) (place : Nat) :
    Waiting (pendingChildren t place) (place + 1) := by
  intro p hp
  cases t with
  | empty => cases hp
  | leaf c => cases hp
  | branch c left right =>
      simp only [pendingChildren, List.mem_filter, List.mem_cons, List.not_mem_nil,
        or_false, Bool.not_eq_true'] at hp
      refine ⟨hp.2, fun q hq => ?_⟩
      rcases hp.1 with rfl | rfl <;> cases hq <;> exact Nat.lt_succ_self _

/-- The loop, on any stack: the slots so far are told where the subtrees go,
and the slots of the subtrees follow. -/
theorem layoutFrom_eq {stack : List Pending} {slots : Array Slot}
    (h : Waiting stack slots.size) :
    (layoutFrom stack slots).toList =
      tellAll stack slots.size slots.toList ++ placedAll stack slots.size := by
  fun_induction layoutFrom stack slots with
  | case1 slots => simp [tellAll, placedAll]
  | case2 slots p rest place linked ih =>
      have hp := (h p List.mem_cons_self).1
      have hrest : Waiting rest slots.size := fun q hq => h q (List.mem_cons_of_mem _ hq)
      have hwait : Waiting (pendingChildren p.node place ++ rest) (slots.size + 1) := by
        intro q hq
        rcases List.mem_append.1 hq with hq | hq
        · exact waiting_pendingChildren _ _ q hq
        · exact hrest.mono (Nat.le_succ _) q hq
      have hlinked : linked.toList = p.tell slots.size slots.toList := by
        cases hq : p.parent <;> simp [linked, place, Pending.tell, hq]
      have hsize : linked.size = slots.size := by
        rw [← Array.length_toList, hlinked, length_tell, Array.length_toList]
      -- What is told so far, and the node itself put down behind it.
      generalize htold : p.tell slots.size slots.toList = told at hlinked
      have hlen : told.length = slots.size := by
        rw [← htold, length_tell, Array.length_toList]
      have hkids := placedAll_pendingChildren hp p.parent told
      rw [hlen] at hkids
      have hroom := room_pendingChildren hp place
      rw [ih (by rwa [Array.size_push, hsize]), Array.size_push, Array.toList_push, hsize,
        hlinked, tellAll_append_stack, placedAll_append_stack, tellAll, placedAll, htold,
        show slots.size + 1 + room (pendingChildren p.node place) = slots.size + p.node.size
          by omega,
        ← List.append_assoc, ← List.append_assoc,
        ← tellAll_append_slots, hkids, tellAll_append_slots (by rwa [hlen])]
      rw [length_tellAll, List.length_append, hlen]
      exact hrest.mono (Nat.le_add_right _ _)

theorem layout_eq {t : Tree} (h : t.isEmpty = false) : layout t = placed none 0 t := by
  have hwait : Waiting [⟨t, none, true⟩] (#[] : Array Slot).size := by
    intro p hp
    rw [List.mem_singleton] at hp
    subst hp
    exact ⟨h, fun q hq => by cases hq⟩
  rw [layout, layoutFrom_eq hwait]
  simp [tellAll, placedAll, Pending.tell]

end Criteria.Database
