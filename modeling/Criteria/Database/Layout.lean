import Criteria.Tree.Walk

/-!
A tree laid out as a list of its nodes, in the order of a walk that goes left first. Nodes refer to each
other by their places in the list, so that rows can be inserted parents first and linked to their
children afterwards.
-/

namespace Criteria.Database

/-- A node in its place, with the places of its parent and its children. -/
structure Slot where
  node : Tree
  parent : Option Nat
  left : Option Nat
  right : Option Nat
  deriving DecidableEq, Repr

/-- A subtree still to be laid out: below which place, and on which side. -/
structure Pending where
  node : Tree
  parent : Option Nat
  isLeft : Bool
  deriving DecidableEq, Repr

/-- The children of a node that stands at a place, the left one first. -/
def pendingChildren (t : Tree) (place : Nat) : List Pending :=
  match t with
  | .branch _ left right =>
    [⟨left, some place, true⟩, ⟨right, some place, false⟩].filter (!·.node.isEmpty)
  | _ => []

def Slot.link (s : Slot) (isLeft : Bool) (place : Nat) : Slot :=
  if isLeft then { s with left := some place } else { s with right := some place }

theorem stackWeight_pendingChildren_lt (t : Tree) (place : Nat) (stack : List Pending) :
    Tree.stackWeight ((pendingChildren t place ++ stack).map (·.node)) <
      t.weight + Tree.stackWeight (stack.map (·.node)) := by
  cases t with
  | empty => simp [pendingChildren, Tree.weight]
  | leaf c => simp [pendingChildren, Tree.weight]
  | branch c left right =>
    cases hleft : left.isEmpty <;> cases hright : right.isEmpty
    all_goals
      simp only [pendingChildren, List.filter, hleft, hright, Bool.not_true, Bool.not_false,
        List.cons_append, List.nil_append, List.map_cons, Tree.stackWeight, List.foldr_cons,
        Tree.weight]
      omega

/-- Lays out the subtrees on a stack behind the slots that are filled already. -/
def layoutFrom (stack : List Pending) (slots : Array Slot) : Array Slot :=
  match stack with
  | [] => slots
  | p :: rest =>
    let place := slots.size
    let linked :=
      match p.parent with
      | none => slots
      | some q => slots.modify q (·.link p.isLeft place)
    layoutFrom (pendingChildren p.node place ++ rest) (linked.push ⟨p.node, p.parent, none, none⟩)
termination_by Tree.stackWeight (stack.map (·.node))
decreasing_by exact stackWeight_pendingChildren_lt p.node slots.size rest

/-- Lays out a tree that is not empty. -/
def layout (t : Tree) : List Slot :=
  (layoutFrom [⟨t, none, true⟩] #[]).toList

end Criteria.Database
