import Criteria.Database.Assembly
import Criteria.Proofs.Deciding
import Criteria.Proofs.Reachability
import Mathlib.Data.Finset.Basic
import Mathlib.Logic.Relation

/-!
# Rebuilding a tree from any rows

Rows that were not written by this program may form any graph: links may lead
nowhere, two of them may lead to the same row, and they may go round in a
circle. What can be made of such a graph is its unfolding, the tree of the ways
down from a row (`Unfolds`), and it is finite just when no circle can be reached.

The rows that stand above the one at hand must be known, or a circle would never
end; and they must be forgotten on the way back, or a row that is linked to
twice would be taken for one. `Builds` says how a set of numbers can be kept for
that: a number is put in before the children are rebuilt and taken out behind
them, so that a call that succeeds leaves the set as it found it
(`Builds.restores`). `assemble`, which hands the rows down that are still free,
gives what this recursion gives (`builds_assemble`), so all that is said here is
proved by induction on `Builds` and read off for `assemble` at the end.
-/

namespace Criteria.Database

open Relation

/-- The row of a number. -/
def row? (rows : List NodeRow) (id : Int64) : Option NodeRow :=
  rows.find? (·.id == id)

/-- A row that stands for a branch: its type is that of operators, and its operator
is a connective in capitals or small letters. -/
def NodeRow.IsLive (r : NodeRow) : Prop :=
  r.type = "operator" ∧
    ∃ word c, r.operator = some word ∧
      Text.eqIgnoringAsciiCase word (Connective.word c) = true

/-- An edge of the graph: a live row has a link to a row that is there. -/
def Edge (rows : List NodeRow) (a b : Int64) : Prop :=
  ∃ r, row? rows a = some r ∧ r.IsLive ∧ b ∈ r.links ∧ (row? rows b).isSome = true

/-- A node that one comes to from a start, and from there to itself again. -/
structure Circles (rows : List NodeRow) (start id : Int64) : Prop where
  reached : ReflTransGen (Edge rows) start id
  closed : TransGen (Edge rows) id id

/-- The tree of the ways down from a link. A link to a row that is not there is a
missing child, and a row that is not live is a leaf, whatever it links to. -/
inductive Unfolds (rows : List NodeRow) : Option Int64 → Tree → Prop where
  | absent : Unfolds rows none .empty
  | dangling {id : Int64} (h : row? rows id = none) : Unfolds rows (some id) .empty
  | leaf {id : Int64} {r : NodeRow} (h : row? rows id = some r) (hdead : ¬ r.IsLive) :
      Unfolds rows (some id) r.leaf
  | branch {id : Int64} {r : NodeRow} {c : Connective} {left right : Tree}
      (h : row? rows id = some r) (hlive : r.IsLive) (hc : r.connective? = some c)
      (hl : Unfolds rows r.left left) (hr : Unfolds rows r.right right) :
      Unfolds rows (some id) (.branch c left right)

/-- What rows mean on a context, read without a tree: a row that is not there, or
of an unknown type or operator, does not hold. -/
inductive Means (rows : List NodeRow) (ctx : Context) : Option Int64 → Bool → Prop where
  | absent : Means rows ctx none false
  | dangling {id : Int64} (h : row? rows id = none) : Means rows ctx (some id) false
  | unknown {id : Int64} {r : NodeRow} (h : row? rows id = some r) (htype : r.type ≠ "condition")
      (hdead : ¬ r.IsLive) : Means rows ctx (some id) false
  | condition {id : Int64} {r : NodeRow} (h : row? rows id = some r)
      (htype : r.type = "condition") : Means rows ctx (some id) (r.condition.holds ctx)
  | branch {id : Int64} {r : NodeRow} {c : Connective} {left right : Bool}
      (h : row? rows id = some r) (hlive : r.IsLive) (hc : r.connective? = some c)
      (hl : Means rows ctx r.left left) (hr : Means rows ctx r.right right) :
      Means rows ctx (some id) (c.apply left right)

/-- A call that rebuilds what a link leads to, with the set of the numbers that are
being rebuilt before the call and behind it. -/
inductive Builds (rows : List NodeRow) :
    Finset Int64 → Option Int64 → Except Failure Tree → Finset Int64 → Prop where
  | absent {visiting : Finset Int64} : Builds rows visiting none (.ok .empty) visiting
  | dangling {visiting : Finset Int64} {id : Int64} (h : row? rows id = none) :
      Builds rows visiting (some id) (.ok .empty) visiting
  | again {visiting : Finset Int64} {id : Int64} {r : NodeRow} (h : row? rows id = some r)
      (hv : id ∈ visiting) : Builds rows visiting (some id) (.error (cyclic id)) visiting
  | leaf {visiting : Finset Int64} {id : Int64} {r : NodeRow} (h : row? rows id = some r)
      (hv : id ∉ visiting) (hc : r.connective? = none) :
      Builds rows visiting (some id) (.ok r.leaf) ((insert id visiting).erase id)
  | left {visiting below : Finset Int64} {id : Int64} {r : NodeRow} {c : Connective} {f : Failure}
      (h : row? rows id = some r) (hv : id ∉ visiting) (hc : r.connective? = some c)
      (hl : Builds rows (insert id visiting) r.left (.error f) below) :
      Builds rows visiting (some id) (.error f) below
  | right {visiting middle below : Finset Int64} {id : Int64} {r : NodeRow} {c : Connective}
      {left : Tree} {f : Failure} (h : row? rows id = some r) (hv : id ∉ visiting)
      (hc : r.connective? = some c)
      (hl : Builds rows (insert id visiting) r.left (.ok left) middle)
      (hr : Builds rows middle r.right (.error f) below) :
      Builds rows visiting (some id) (.error f) below
  | branch {visiting middle below : Finset Int64} {id : Int64} {r : NodeRow} {c : Connective}
      {left right : Tree} (h : row? rows id = some r) (hv : id ∉ visiting)
      (hc : r.connective? = some c)
      (hl : Builds rows (insert id visiting) r.left (.ok left) middle)
      (hr : Builds rows middle r.right (.ok right) below) :
      Builds rows visiting (some id) (.ok (.branch c left right)) (below.erase id)

namespace NodeRow

theorem isLive_iff {r : NodeRow} : r.IsLive ↔ ∃ c, r.connective? = some c := by
  have hcase : ∀ word, (∃ c, Connective.ofAnyCase? word = some c) ↔
      ∃ c, Text.eqIgnoringAsciiCase word (Connective.word c) = true := by
    intro word
    rw [Connective.ofAnyCase?]
    constructor
    · rintro ⟨c, h⟩
      split at h
      · next hand => exact ⟨.and, hand⟩
      · split at h
        · next hor => exact ⟨.or, hor⟩
        · cases h
    · rintro ⟨c, h⟩
      cases c with
      | and => exact ⟨.and, if_pos h⟩
      | or =>
          split
          · exact ⟨.and, rfl⟩
          · exact ⟨.or, if_pos h⟩
  rw [IsLive, connective?, operatorType]
  by_cases htype : r.type = "operator"
  · rw [if_pos htype]
    cases r.operator with
    | none => simp
    | some word => simpa [htype] using (hcase word).symm
  · simp [htype]

theorem not_isLive {r : NodeRow} (h : r.connective? = none) : ¬ r.IsLive := by
  rw [isLive_iff]
  rintro ⟨c, hc⟩
  rw [h] at hc
  cases hc

/-- A leaf that is not a condition never holds. -/
theorem holds_leaf (r : NodeRow) (ctx : Context) : r.leaf.meaning ctx =
    if r.type = "condition" then r.condition.holds ctx else false := by
  rw [leaf, conditionType]
  split
  · rfl
  · rfl

end NodeRow

/-! ## The set of the numbers that are being rebuilt -/

section Builds

variable {rows : List NodeRow} {visiting after : Finset Int64} {link : Option Int64}

theorem Builds.restores {t : Tree} (h : Builds rows visiting link (.ok t) after) :
    after = visiting := by
  generalize hresult : Except.ok t = result at h
  induction h generalizing t with
  | absent | dangling => rfl
  | leaf _ hv _ => exact Finset.erase_insert hv
  | branch _ hv _ _ _ ihl ihr =>
      rw [ihr rfl, ihl rfl]
      exact Finset.erase_insert hv
  | again | left | right => cases hresult

end Builds

/-! ## What is rebuilt -/

def unvisited (rows : List NodeRow) (visiting : Finset Int64) : List NodeRow :=
  rows.filter fun r => r.id ∉ visiting

/-- What `assemble` makes of a link if the rows of some numbers are taken. -/
def rebuild (rows : List NodeRow) (visiting : Finset Int64) (link : Option Int64) :
    Except Failure Tree :=
  link.elim (.ok .empty) (assemble rows (unvisited rows visiting))

section Rebuild

variable {rows : List NodeRow} {visiting : Finset Int64} {id : Int64} {r : NodeRow}

theorem unvisited_empty : unvisited rows ∅ = rows :=
  List.filter_eq_self.2 fun _ _ => by simp

theorem without_unvisited :
    without id (unvisited rows visiting) = unvisited rows (insert id visiting) := by
  rw [without, unvisited, unvisited, List.filter_filter]
  refine List.filter_congr fun q _ => ?_
  by_cases hid : q.id = id <;> simp [hid]

theorem mem_of_row? (h : row? rows id = some r) : r ∈ rows ∧ r.id = id :=
  ⟨List.mem_of_find?_eq_some h, by simpa using List.find?_some h⟩

theorem rowsOf_unvisited (h : row? rows id = some r) :
    rowsOf id (unvisited rows visiting) = [] ↔ id ∈ visiting := by
  obtain ⟨hr, hid⟩ := mem_of_row? h
  rw [rowsOf, unvisited, List.filter_filter, List.filter_eq_nil_iff]
  constructor
  · intro hnone
    have := hnone r hr
    simpa [hid] using this
  · intro hv q _ hq
    simp only [Bool.and_eq_true, beq_iff_eq, decide_eq_true_iff] at hq
    exact hq.2 (hq.1 ▸ hv)

theorem length_unvisited_lt (h : row? rows id = some r) (hv : id ∉ visiting) :
    (unvisited rows (insert id visiting)).length < (unvisited rows visiting).length := by
  rw [← without_unvisited]
  exact without_length_lt fun hnone => hv ((rowsOf_unvisited h).1 hnone)

theorem rebuild_dangling (h : row? rows id = none) :
    rebuild rows visiting (some id) = .ok .empty := by
  rw [row?] at h
  rw [rebuild, Option.elim_some, assemble, h]

theorem rebuild_again (h : row? rows id = some r) (hv : id ∈ visiting) :
    rebuild rows visiting (some id) = .error (cyclic id) := by
  have hnone := (rowsOf_unvisited h).2 hv
  rw [row?] at h
  rw [rebuild, Option.elim_some, assemble, h]
  simp only [dif_pos hnone]

theorem rebuild_leaf (h : row? rows id = some r) (hv : id ∉ visiting)
    (hc : r.connective? = none) : rebuild rows visiting (some id) = .ok r.leaf := by
  have hsome := fun hnone => hv ((rowsOf_unvisited h).1 hnone)
  rw [row?] at h
  rw [rebuild, Option.elim_some, assemble, h]
  simp only [dif_neg hsome, hc]

theorem rebuild_branch {c : Connective} (h : row? rows id = some r) (hv : id ∉ visiting)
    (hc : r.connective? = some c) : rebuild rows visiting (some id) =
      match rebuild rows (insert id visiting) r.left with
      | .error f => .error f
      | .ok left =>
        match rebuild rows (insert id visiting) r.right with
        | .error f => .error f
        | .ok right => .ok (.branch c left right) := by
  have hsome := fun hnone => hv ((rowsOf_unvisited h).1 hnone)
  rw [row?] at h
  rw [rebuild, Option.elim_some, assemble, h]
  simp only [dif_neg hsome, hc, without_unvisited]
  rfl

end Rebuild

/-- A call comes to an end, whatever numbers are in the set, with what `assemble`
gives. -/
theorem builds_rebuild (rows : List NodeRow) (visiting : Finset Int64) (link : Option Int64) :
    ∃ after, Builds rows visiting link (rebuild rows visiting link) after := by
  induction hn : (unvisited rows visiting).length using Nat.strongRecOn
    generalizing visiting link with
  | ind n ih =>
      subst hn
      cases link with
      | none => exact ⟨visiting, .absent⟩
      | some id =>
          cases h : row? rows id with
          | none =>
              rw [rebuild_dangling h]
              exact ⟨visiting, .dangling h⟩
          | some r =>
              by_cases hv : id ∈ visiting
              · rw [rebuild_again h hv]
                exact ⟨visiting, .again h hv⟩
              cases hc : r.connective? with
              | none =>
                  rw [rebuild_leaf h hv hc]
                  exact ⟨_, .leaf h hv hc⟩
              | some c =>
                  have hless := length_unvisited_lt h hv
                  obtain ⟨middle, hl⟩ := ih _ hless (insert id visiting) r.left rfl
                  obtain ⟨below, hr⟩ := ih _ hless (insert id visiting) r.right rfl
                  rw [rebuild_branch h hv hc]
                  cases hleft : rebuild rows (insert id visiting) r.left with
                  | error f =>
                      rw [hleft] at hl
                      exact ⟨middle, .left h hv hc hl⟩
                  | ok left =>
                      rw [hleft] at hl
                      obtain rfl := hl.restores
                      cases hright : rebuild rows (insert id visiting) r.right with
                      | error f =>
                          rw [hright] at hr
                          exact ⟨below, .right h hv hc hl hr⟩
                      | ok right =>
                          rw [hright] at hr
                          exact ⟨_, .branch h hv hc hl hr⟩

section Builds

variable {rows : List NodeRow} {visiting after : Finset Int64} {link : Option Int64}

theorem Builds.eq_rebuild {result : Except Failure Tree}
    (h : Builds rows visiting link result after) : result = rebuild rows visiting link := by
  induction h with
  | absent => rfl
  | dangling h => exact (rebuild_dangling h).symm
  | again h hv => exact (rebuild_again h hv).symm
  | leaf h hv hc => exact (rebuild_leaf h hv hc).symm
  | left h hv hc _ ihl => rw [rebuild_branch h hv hc, ← ihl]
  | right h hv hc hl _ ihl ihr =>
      rw [hl.restores] at ihr
      rw [rebuild_branch h hv hc, ← ihl, ← ihr]
  | branch h hv hc hl _ ihl ihr =>
      rw [hl.restores] at ihr
      rw [rebuild_branch h hv hc, ← ihl, ← ihr]

theorem Builds.unfolds {t : Tree} (h : Builds rows visiting link (.ok t) after) :
    Unfolds rows link t := by
  generalize hresult : Except.ok t = result at h
  induction h generalizing t with
  | absent =>
      cases hresult
      exact .absent
  | dangling h =>
      cases hresult
      exact .dangling h
  | leaf h _ hc =>
      cases hresult
      exact .leaf h (NodeRow.not_isLive hc)
  | branch h _ hc _ _ ihl ihr =>
      cases hresult
      exact .branch h (NodeRow.isLive_iff.2 ⟨_, hc⟩) hc (ihl rfl) (ihr rfl)
  | again | left | right => cases hresult

/-- A call that fails has come to a circle, if the numbers in the set are those of
the nodes above. -/
theorem Builds.circles {f : Failure} (h : Builds rows visiting link (.error f) after)
    (habove : ∀ m ∈ visiting, ∀ id, link = some id → (row? rows id).isSome = true →
      TransGen (Edge rows) m id) :
    ∃ id n, link = some id ∧ (row? rows id).isSome = true ∧ f = cyclic n ∧
      Circles rows id n := by
  -- What is above a child is what is above its parent, and the parent itself.
  have hbelow : ∀ {visiting : Finset Int64} {id : Int64} {r : NodeRow} {child : Option Int64},
      row? rows id = some r → r.IsLive → (∀ x, child = some x → x ∈ r.links) →
      (∀ m ∈ visiting, ∀ id', some id = some id' → (row? rows id').isSome = true →
        TransGen (Edge rows) m id') →
      ∀ m ∈ insert id visiting, ∀ x, child = some x → (row? rows x).isSome = true →
        TransGen (Edge rows) m x := by
    intro visiting id r child h hlive hlink habove m hm x hx hsome
    have hedge : Edge rows id x := ⟨r, h, hlive, hlink x hx, hsome⟩
    rcases Finset.mem_insert.1 hm with rfl | hm
    · exact .single hedge
    · exact (habove m hm id rfl (by rw [h]; rfl)).tail hedge
  have hcircles : ∀ {id x n : Int64} {r : NodeRow}, row? rows id = some r → r.IsLive →
      x ∈ r.links → (row? rows x).isSome = true → Circles rows x n → Circles rows id n :=
    fun h hlive hlink hsome hn => ⟨.head ⟨_, h, hlive, hlink, hsome⟩ hn.reached, hn.closed⟩
  generalize hresult : Except.error f = result at h
  induction h with
  | absent | dangling | leaf | branch => cases hresult
  | @again visiting id r h hv =>
      cases hresult
      have hsome : (row? rows id).isSome = true := by rw [h]; rfl
      exact ⟨id, id, rfl, hsome, rfl, .refl, habove id hv id rfl hsome⟩
  | @left visiting below id r c f' h _ hc _ ih =>
      have hlive := NodeRow.isLive_iff.2 ⟨c, hc⟩
      have hlink : ∀ x, r.left = some x → x ∈ r.links := fun x hx => by simp [NodeRow.links, hx]
      obtain ⟨x, n, hx, hsome, hf, hn⟩ := ih (hbelow h hlive hlink habove) hresult
      exact ⟨id, n, rfl, by rw [h]; rfl, hf, hcircles h hlive (hlink x hx) hsome hn⟩
  | @right visiting middle below id r c left f' h _ hc hl _ _ ih =>
      rw [hl.restores] at ih
      have hlive := NodeRow.isLive_iff.2 ⟨c, hc⟩
      have hlink : ∀ x, r.right = some x → x ∈ r.links := fun x hx => by simp [NodeRow.links, hx]
      obtain ⟨x, n, hx, hsome, hf, hn⟩ := ih (hbelow h hlive hlink habove) hresult
      exact ⟨id, n, rfl, by rw [h]; rfl, hf, hcircles h hlive (hlink x hx) hsome hn⟩

end Builds

/-! ## Unfolding -/

section Unfolds

variable {rows : List NodeRow} {link : Option Int64} {id : Int64} {r : NodeRow} {s t : Tree}

theorem Unfolds.eq_empty (h : Unfolds rows (some id) t) (hrow : row? rows id = none) :
    t = .empty := by
  cases h with
  | dangling => rfl
  | leaf h | branch h => rw [hrow] at h; cases h

theorem Unfolds.eq_leaf (h : Unfolds rows (some id) t) (hrow : row? rows id = some r)
    (hdead : ¬ r.IsLive) : t = r.leaf := by
  cases h with
  | dangling h => rw [hrow] at h; cases h
  | leaf h => rw [hrow] at h; cases h; rfl
  | branch h hlive => rw [hrow] at h; cases h; exact absurd hlive hdead

theorem Unfolds.eq_branch (h : Unfolds rows (some id) t) (hrow : row? rows id = some r)
    (hlive : r.IsLive) : ∃ c left right, r.connective? = some c ∧ t = .branch c left right ∧
      Unfolds rows r.left left ∧ Unfolds rows r.right right := by
  cases h with
  | dangling h => rw [hrow] at h; cases h
  | leaf h hdead => rw [hrow] at h; cases h; exact absurd hlive hdead
  | branch h _ hc hl hr => rw [hrow] at h; cases h; exact ⟨_, _, _, hc, rfl, hl, hr⟩

theorem Unfolds.unique (hs : Unfolds rows link s) (ht : Unfolds rows link t) : s = t := by
  induction hs generalizing t with
  | absent =>
      cases ht
      rfl
  | dangling h => exact (ht.eq_empty h).symm
  | leaf h hdead => exact (ht.eq_leaf h hdead).symm
  | branch h hlive hc _ _ ihl ihr =>
      obtain ⟨c, left, right, hc', rfl, hl, hr⟩ := ht.eq_branch h hlive
      rw [hc] at hc'
      cases hc'
      rw [ihl hl, ihr hr]

/-- Along an edge the unfolding gets smaller. -/
theorem Unfolds.edge {a b : Int64} (h : Unfolds rows (some a) t) (hedge : Edge rows a b) :
    ∃ s, Unfolds rows (some b) s ∧ s.size < t.size := by
  obtain ⟨r, hr, hlive, hlink, -⟩ := hedge
  obtain ⟨c, left, right, -, rfl, hleft, hright⟩ := h.eq_branch hr hlive
  simp only [NodeRow.links, List.mem_append, Option.mem_toList] at hlink
  rw [Tree.size]
  rcases hlink with hlink | hlink
  · rw [hlink] at hleft
    exact ⟨left, hleft, by omega⟩
  · rw [hlink] at hright
    exact ⟨right, hright, by omega⟩

theorem Unfolds.reached {a b : Int64} (h : Unfolds rows (some a) t)
    (hreach : ReflTransGen (Edge rows) a b) : ∃ s, Unfolds rows (some b) s ∧ s.size ≤ t.size := by
  induction hreach with
  | refl => exact ⟨t, h, Nat.le_refl _⟩
  | tail _ hedge ih =>
      obtain ⟨s, hs, hle⟩ := ih
      obtain ⟨s', hs', hlt⟩ := hs.edge hedge
      exact ⟨s', hs', by omega⟩

/-- What has an unfolding has come to no circle: the node of a circle would stand
below itself, where a smaller tree is unfolded. -/
theorem Unfolds.not_circles {start id : Int64} (h : Unfolds rows (some start) t) :
    ¬ Circles rows start id := by
  rintro ⟨hreach, hclosed⟩
  obtain ⟨s, hs, -⟩ := h.reached hreach
  obtain ⟨x, hedge, hback⟩ := TransGen.head'_iff.1 hclosed
  obtain ⟨below, hbelow, hlt⟩ := hs.edge hedge
  obtain ⟨again, hagain, hle⟩ := hbelow.reached hback
  rw [hs.unique hagain] at hlt
  omega

theorem Unfolds.means {ctx : Context} (h : Unfolds rows link t) :
    Means rows ctx link (t.meaning ctx) := by
  induction h with
  | absent => exact .absent
  | dangling h => exact .dangling h
  | @leaf id r h hdead =>
      rw [NodeRow.holds_leaf]
      split
      · next htype => exact .condition h htype
      · next htype => exact .unknown h htype hdead
  | branch h hlive hc _ _ ihl ihr => exact .branch h hlive hc ihl ihr

/-- What rows mean is what their unfolding means, and nothing else. -/
theorem Means.eq_meaning {ctx : Context} {b : Bool} (hb : Means rows ctx link b)
    (h : Unfolds rows link t) : b = t.meaning ctx := by
  induction hb generalizing t with
  | absent =>
      cases h
      rfl
  | dangling hrow =>
      rw [h.eq_empty hrow]
      rfl
  | unknown hrow htype hdead => rw [h.eq_leaf hrow hdead, NodeRow.holds_leaf, if_neg htype]
  | @condition id r hrow htype =>
      have hdead : ¬ r.IsLive := by
        rw [NodeRow.IsLive, htype]
        exact fun hlive => absurd hlive.1 (by decide)
      rw [h.eq_leaf hrow hdead, NodeRow.holds_leaf, if_pos htype]
  | branch hrow hlive hc _ _ ihl ihr =>
      obtain ⟨c, left, right, hc', rfl, hl, hr⟩ := h.eq_branch hrow hlive
      rw [hc] at hc'
      cases hc'
      rw [Tree.meaning, ihl hl, ihr hr]

theorem Unfolds.eq_empty_iff (h : Unfolds rows (some id) t) :
    t = .empty ↔ row? rows id = none := by
  refine ⟨fun ht => ?_, h.eq_empty⟩
  cases h with
  | dangling h => exact h
  | @leaf _ r =>
      rw [NodeRow.leaf] at ht
      split at ht <;> cases ht
  | branch => cases ht

end Unfolds

/-! ## What `assemble` gives -/

section Assemble

variable {rows : List NodeRow} {id : Int64}

theorem rebuild_all : rebuild rows ∅ (some id) = assemble rows rows id := by
  rw [rebuild, unvisited_empty, Option.elim_some]

theorem builds_assemble (rows : List NodeRow) (id : Int64) :
    ∃ after, Builds rows ∅ (some id) (assemble rows rows id) after :=
  rebuild_all ▸ builds_rebuild rows ∅ (some id)

theorem circles_of_assemble {f : Failure} (h : assemble rows rows id = .error f) :
    ∃ n, f = cyclic n ∧ Circles rows id n := by
  obtain ⟨after, hbuilds⟩ := builds_assemble rows id
  rw [h] at hbuilds
  obtain ⟨id', n, hlink, -, hf, hn⟩ := hbuilds.circles (by simp)
  cases hlink
  exact ⟨n, hf, hn⟩

theorem assemble_eq_ok_iff {t : Tree} :
    assemble rows rows id = .ok t ↔ Unfolds rows (some id) t := by
  constructor
  · intro h
    obtain ⟨after, hbuilds⟩ := builds_assemble rows id
    rw [h] at hbuilds
    exact hbuilds.unfolds
  · intro h
    cases hresult : assemble rows rows id with
    | error f =>
        obtain ⟨n, -, hn⟩ := circles_of_assemble hresult
        exact absurd hn h.not_circles
    | ok t' =>
        obtain ⟨after, hbuilds⟩ := builds_assemble rows id
        rw [hresult] at hbuilds
        rw [hbuilds.unfolds.unique h]

theorem assemble_eq_error_iff :
    (∃ reason, assemble rows rows id = .error (.corruptData reason)) ↔
      ∃ n, Circles rows id n := by
  constructor
  · rintro ⟨reason, h⟩
    obtain ⟨n, -, hn⟩ := circles_of_assemble h
    exact ⟨n, hn⟩
  · rintro ⟨n, hn⟩
    cases h : assemble rows rows id with
    | error f =>
        obtain ⟨m, rfl, -⟩ := circles_of_assemble h
        exact ⟨_, rfl⟩
    | ok t => exact absurd hn (assemble_eq_ok_iff.1 h).not_circles

end Assemble

/-- Whatever the rows are, rebuilding the tree of a number comes to an end. It
fails, naming a node of a circle, just if the number leads to a circle; else it
gives the unfolding of the rows, which is the empty tree just if the number has
no row, and takes every number out of the set again that it has put in. The tree
decides as the rows do that it was built from. -/
theorem assemble_unfolds_rows (rows : List NodeRow) (id : Int64) :
    ((∃ after, Builds rows ∅ (some id) (assemble rows rows id) after) ∧
      ∀ result after, Builds rows ∅ (some id) result after → result = assemble rows rows id) ∧
    (∀ visiting link t after, Builds rows visiting link (.ok t) after → after = visiting) ∧
    ((∃ reason, assemble rows rows id = .error (.corruptData reason)) ↔
      ∃ n, Circles rows id n) ∧
    (∀ f, assemble rows rows id = .error f → ∃ n, f = cyclic n ∧ Circles rows id n) ∧
    (assemble rows rows id = .ok .empty ↔ row? rows id = none) ∧
    ∀ t, (assemble rows rows id = .ok t ↔ Unfolds rows (some id) t) ∧
      (assemble rows rows id = .ok t →
        ∀ ctx b, Means rows ctx (some id) b ↔ t.evaluate ctx = b) := by
  refine ⟨⟨builds_assemble rows id, fun result after h => h.eq_rebuild.trans rebuild_all⟩,
    fun _ _ _ _ h => h.restores, assemble_eq_error_iff, fun _ => circles_of_assemble, ?_,
    fun t => ⟨assemble_eq_ok_iff, fun h ctx b => ?_⟩⟩
  · constructor
    · exact fun h => (assemble_eq_ok_iff.1 h).eq_empty_iff.1 rfl
    · exact fun h => assemble_eq_ok_iff.2 (.dangling h)
  · have hunfolds := assemble_eq_ok_iff.1 h
    rw [Tree.evaluate_eq]
    constructor
    · exact fun hb => (hb.eq_meaning hunfolds).symm
    · rintro rfl
      exact hunfolds.means

/-- One table in which a row is linked to twice and another link leads nowhere, and
one in which the right child of a row is the row itself. -/
theorem assemble_unfolds_rows_shared_circle :
    let adult : NodeRow := .ofCondition 3 (.ofText "age > 30") none
    let both (id left right : Int64) : NodeRow :=
      { NodeRow.ofConnective id .and none with left := some left, right := some right }
    let shared := [both 1 2 2, both 2 3 9, adult]
    let circle := [both 1 3 2, both 2 3 2, adult]
    let twice := Tree.branch .and (.leaf adult.condition) .empty
    assemble shared shared 1 = .ok (.branch .and twice twice) ∧
      (∀ ctx, Means shared ctx (some 1) false) ∧
      (∃ reason, assemble circle circle 1 = .error (.corruptData reason)) ∧
      assemble circle circle 9 = .ok .empty := by
  intro adult both shared circle twice
  have hlive : ∀ id left right, (both id left right).IsLive := fun id left right =>
    ⟨rfl, "AND", .and, rfl, by decide⟩
  have hconnective : ∀ id left right, (both id left right).connective? = some .and :=
    fun _ _ _ => rfl
  have hadult : Unfolds shared (some 3) adult.leaf :=
    .leaf (by decide) fun h => absurd h.1 (by decide)
  have htwice : Unfolds shared (some 2) twice :=
    .branch (r := both 2 3 9) (by decide) (hlive ..) (hconnective ..) hadult
      (.dangling (by decide))
  have hshared : Unfolds shared (some 1) (.branch .and twice twice) :=
    .branch (r := both 1 2 2) (by decide) (hlive ..) (hconnective ..) htwice htwice
  have hcircle : Circles circle 1 2 :=
    ⟨.single ⟨both 1 3 2, by decide, hlive .., by decide, by decide⟩,
      .single ⟨both 2 3 2, by decide, hlive .., by decide, by decide⟩⟩
  obtain ⟨-, -, -, -, -, hok⟩ := assemble_unfolds_rows shared 1
  obtain ⟨hunfolds, hmeans⟩ := hok (.branch .and twice twice)
  refine ⟨hunfolds.2 hshared, fun ctx => ?_, ?_, ?_⟩
  · refine (hmeans (hunfolds.2 hshared) ctx false).2 ?_
    rw [Tree.evaluate_eq]
    simp [Tree.meaning, twice, Connective.apply]
  · obtain ⟨-, -, hfails, -⟩ := assemble_unfolds_rows circle 1
    exact hfails.2 ⟨2, hcircle⟩
  · obtain ⟨-, -, -, -, hempty, -⟩ := assemble_unfolds_rows circle 9
    exact hempty.2 (by decide)

end Criteria.Database
