import Criteria.Store
import Mathlib.Algebra.Group.Nat.Defs

/-!
# The changes that made a store

What has been done to a store is a list of changes, the rules that were created
and the numbers that were deleted, oldest first. From the changes alone one can
say which rules there are: those that were created and not deleted (`live`).
`Store.Reached` says that a store was empty once and has seen these changes and
no others. Stores, services and applications in memory are all brought back to
it, so that what the numbers of rules are good for is proved once.

Two things hold after every step. A store is in ascending order, whatever
happens to its counter, because a rule is put in its place (`Reached.ascending`).
And as long as the counter has not run round, the store is its history
(`Reached.tally`): the `n`-th rule has got the number `n`, so a new rule comes
last, and a number is not given to a second rule when the first one is gone.
-/

namespace Criteria

inductive Change where
  | created (r : Rule)
  | deleted (id : Int64)
  deriving DecidableEq, Repr

def Change.id : Change → Int64
  | created r => r.id
  | deleted id => id

def created (past : List Change) : List Rule :=
  past.filterMap fun
    | .created r => some r
    | .deleted _ => none

def deleted (past : List Change) : List Int64 :=
  past.filterMap fun
    | .created _ => none
    | .deleted id => some id

/-- The rules that were created and not deleted. -/
def live (past : List Change) : List Rule :=
  (created past).filter fun r => !(deleted past).contains r.id

section Changes

variable {past : List Change}

theorem created_append (more : List Change) :
    created (past ++ more) = created past ++ created more :=
  List.filterMap_append

theorem length_created_le (past more : List Change) :
    (created past).length ≤ (created (past ++ more)).length := by
  rw [created_append, List.length_append]
  omega

theorem deleted_append (more : List Change) :
    deleted (past ++ more) = deleted past ++ deleted more :=
  List.filterMap_append

theorem created_concat_created (r : Rule) : created (past ++ [.created r]) = created past ++ [r] :=
  created_append _

theorem created_concat_deleted (id : Int64) : created (past ++ [.deleted id]) = created past := by
  rw [created_append]
  exact List.append_nil _

theorem deleted_concat_created (r : Rule) : deleted (past ++ [.created r]) = deleted past := by
  rw [deleted_append]
  exact List.append_nil _

theorem deleted_concat_deleted (id : Int64) :
    deleted (past ++ [.deleted id]) = deleted past ++ [id] :=
  deleted_append _

theorem mem_deleted {id : Int64} : id ∈ deleted past ↔ Change.deleted id ∈ past := by
  rw [deleted, List.mem_filterMap]
  constructor
  · rintro ⟨x, hx, h⟩
    cases x with
    | created r => cases h
    | deleted n => cases h; exact hx
  · exact fun h => ⟨_, h, rfl⟩

theorem mem_created {r : Rule} : r ∈ created past ↔ Change.created r ∈ past := by
  rw [created, List.mem_filterMap]
  constructor
  · rintro ⟨x, hx, h⟩
    cases x with
    | created r => cases h; exact hx
    | deleted n => cases h
  · exact fun h => ⟨_, h, rfl⟩

theorem mem_live {r : Rule} : r ∈ live past ↔ r ∈ created past ∧ r.id ∉ deleted past := by
  rw [live, List.mem_filter]
  simp

theorem live_created {r : Rule} (h : ∀ x ∈ past, x.id < r.id) :
    live (past ++ [.created r]) = live past ++ [r] := by
  have hnot : r.id ∉ deleted past := fun hmem => by
    have hlt : r.id < r.id := h (.deleted r.id) (mem_deleted.1 hmem)
    exact Int64.lt_irrefl hlt
  rw [live, deleted_concat_created, created_concat_created, List.filter_append, live]
  congr 1
  exact List.filter_eq_self.2 fun x hx => by
    obtain rfl := List.mem_singleton.1 hx
    simpa using hnot

theorem live_deleted (id : Int64) :
    live (past ++ [.deleted id]) = (live past).filter (·.id != id) := by
  rw [live, created_concat_deleted, deleted_concat_deleted, live, List.filter_filter]
  refine List.filter_congr fun r _ => ?_
  by_cases hid : r.id = id <;> simp [hid]

end Changes

/-! ## Rules in ascending order -/

namespace Store

theorem place_eq_append {r : Rule} :
    ∀ {rules : List Rule}, (∀ x ∈ rules, x.id < r.id) → place r rules = rules ++ [r] := by
  intro rules
  induction rules with
  | nil => intro _; rfl
  | cons x rest ih =>
      intro h
      have hx := h x List.mem_cons_self
      rw [place, if_neg (Int64.not_lt.2 (Int64.le_of_lt hx)), if_neg (Int64.ne_of_lt hx).symm,
        ih fun y hy => h y (List.mem_cons_of_mem _ hy)]
      rfl

theorem place_perm {r : Rule} {rules : List Rule} (h : ∀ x ∈ rules, x.id ≠ r.id) :
    (place r rules).Perm (r :: rules) := by
  induction rules with
  | nil => exact .refl _
  | cons x rest ih =>
      obtain ⟨hx, hrest⟩ := List.forall_mem_cons.1 h
      rw [place]
      split
      · exact .refl _
      · rw [if_neg (Ne.symm hx)]
        exact ((ih hrest).cons x).trans (.swap r x rest)

theorem mem_place {r x : Rule} {rules : List Rule} (h : x ∈ place r rules) :
    x = r ∨ x ∈ rules := by
  induction rules with
  | nil => exact Or.inl (List.mem_singleton.1 h)
  | cons y rest ih =>
      rw [place] at h
      split at h
      · exact List.mem_cons.1 h
      · split at h
        · rcases List.mem_cons.1 h with hx | hx
          · exact Or.inl hx
          · exact Or.inr (List.mem_cons_of_mem y hx)
        · rcases List.mem_cons.1 h with rfl | hx
          · exact Or.inr List.mem_cons_self
          · exact (ih hx).imp_right (List.mem_cons_of_mem y)

theorem mem_place_self (r : Rule) (rules : List Rule) : r ∈ place r rules := by
  induction rules with
  | nil => exact List.mem_singleton.2 rfl
  | cons x rest ih =>
      rw [place]
      split
      · exact List.mem_cons_self
      · split
        · exact List.mem_cons_self
        · exact List.mem_cons_of_mem x ih

theorem pairwise_place (r : Rule) {rules : List Rule} (h : rules.Pairwise (·.id < ·.id)) :
    (place r rules).Pairwise (·.id < ·.id) := by
  induction rules with
  | nil => exact List.pairwise_singleton _ _
  | cons x rest ih =>
      obtain ⟨hx, hrest⟩ := List.pairwise_cons.1 h
      rw [place]
      split
      · next hlt =>
          refine List.pairwise_cons.2 ⟨fun y hy => ?_, h⟩
          rcases List.mem_cons.1 hy with rfl | hy
          · exact hlt
          · exact Int64.lt_trans hlt (hx y hy)
      · next hnlt =>
          split
          · next heq =>
              refine List.pairwise_cons.2 ⟨fun y hy => ?_, hrest⟩
              rw [heq]
              exact hx y hy
          · next hne =>
              have hlt : x.id < r.id :=
                Int64.lt_of_le_of_ne (Int64.not_lt.1 hnlt) (Ne.symm hne)
              refine List.pairwise_cons.2 ⟨fun y hy => ?_, ih hrest⟩
              rcases mem_place hy with rfl | hy
              · exact hlt
              · exact hx y hy

theorem eq_of_id {rules : List Rule} (h : rules.Pairwise (·.id < ·.id)) {x y : Rule}
    (hx : x ∈ rules) (hy : y ∈ rules) (hid : x.id = y.id) : x = y := by
  induction rules with
  | nil => cases hx
  | cons z rest ih =>
      obtain ⟨hz, hrest⟩ := List.pairwise_cons.1 h
      rcases List.mem_cons.1 hx with rfl | hxr <;> rcases List.mem_cons.1 hy with rfl | hyr
      · rfl
      · exact absurd hid (Int64.ne_of_lt (hz y hyr))
      · exact absurd hid.symm (Int64.ne_of_lt (hz x hxr))
      · exact ih hrest hxr hyr

/-- The rule with the smaller number comes first. -/
theorem pair_sublist {rules : List Rule} (h : rules.Pairwise (·.id < ·.id)) {x y : Rule}
    (hx : x ∈ rules) (hy : y ∈ rules) (hlt : x.id < y.id) : [x, y].Sublist rules := by
  induction rules with
  | nil => cases hx
  | cons z rest ih =>
      obtain ⟨hz, hrest⟩ := List.pairwise_cons.1 h
      rcases List.mem_cons.1 hx with rfl | hxr <;> rcases List.mem_cons.1 hy with rfl | hyr
      · exact (Int64.lt_irrefl hlt).elim
      · exact (List.singleton_sublist.2 hyr).cons_cons x
      · exact (Int64.lt_irrefl (Int64.lt_trans hlt (hz x hxr))).elim
      · exact (ih hrest hxr hyr).cons z

theorem contains_iff {s : Store} {id : Int64} :
    s.contains id = true ↔ ∃ r ∈ s.rules, r.id = id := by
  simp [contains, List.any_eq_true]

theorem delete_eq_ok {s s' : Store} {id : Int64} :
    s.delete id = .ok s' ↔
      (∃ r ∈ s.rules, r.id = id) ∧ s' = { s with rules := s.rules.filter (·.id != id) } := by
  rw [delete, ← contains_iff]
  split
  · next h => simp [h, eq_comm]
  · next h => simp [h]

/-! ## Numbers -/

/-- The number that a store hands out after `n` others. -/
def numberAfter (n : Nat) : Int64 :=
  Int64.ofNat (n + 1)

theorem numberAfter_succ (n : Nat) : numberAfter (n + 1) = numberAfter n + 1 :=
  Int64.ofNat_add (n + 1) 1

theorem toInt_numberAfter {n : Nat} (h : n + 1 < 2 ^ 63) : (numberAfter n).toInt = n + 1 := by
  rw [numberAfter, Int64.toInt_ofNat_of_lt h, Int.natCast_add, Int.natCast_one]

theorem numberAfter_lt {i j : Nat} (hij : i < j) (hj : j + 1 < 2 ^ 63) :
    numberAfter i < numberAfter j := by
  rw [Int64.lt_iff_toInt_lt, toInt_numberAfter (by omega), toInt_numberAfter hj]
  omega

/-- The numbers of some rules are the first ones, in this order, and a number
comes next. -/
structure Issued (rules : List Rule) (next : Int64) : Prop where
  next_eq : next = numberAfter rules.length
  ids : rules.map (·.id) = (List.range rules.length).map numberAfter

namespace Issued

variable {rules : List Rule} {next : Int64}

theorem nil : Issued [] 1 :=
  ⟨rfl, rfl⟩

theorem append (h : Issued rules next) {r : Rule} (hr : r.id = next) :
    Issued (rules ++ [r]) (next + 1) := by
  refine ⟨?_, ?_⟩
  · rw [List.length_append, List.length_singleton, numberAfter_succ, ← h.next_eq]
  · rw [List.map_append, h.ids, List.length_append, List.length_singleton, List.range_succ,
      List.map_append, List.map_singleton, List.map_singleton, ← h.next_eq, hr]

theorem lt_next (h : Issued rules next) (hfew : rules.length + 1 < 2 ^ 63) :
    ∀ r ∈ rules, r.id < next := by
  intro r hr
  have hid : r.id ∈ rules.map (·.id) := List.mem_map_of_mem hr
  rw [h.ids] at hid
  obtain ⟨i, hi, heq⟩ := List.mem_map.1 hid
  rw [List.mem_range] at hi
  rw [← heq, h.next_eq]
  exact numberAfter_lt hi hfew

theorem one_le_next (h : Issued rules next) (hfew : rules.length + 1 < 2 ^ 63) : 1 ≤ next := by
  rw [h.next_eq, Int64.le_iff_toInt_le, toInt_numberAfter hfew]
  show (1 : Int) ≤ rules.length + 1
  omega

theorem pairwise (h : Issued rules next) (hfew : rules.length < 2 ^ 63) :
    rules.Pairwise (·.id < ·.id) := by
  rw [← List.pairwise_map (R := (· < ·)), h.ids, List.pairwise_map]
  refine List.Pairwise.imp_of_mem (fun hi hj hlt => ?_) List.pairwise_lt_range
  rw [List.mem_range] at hj
  exact numberAfter_lt hlt (by omega)

end Issued

/-! ## Stores and their histories -/

/-- What one operation may make of a store, and the changes that it makes. -/
inductive Becomes (s : Store) : List Change → Store → Prop where
  | same : Becomes s [] s
  | create (text : String) (root : Tree) :
      Becomes s [.created (s.create text root).1] (s.create text root).2
  | delete {s' : Store} {id : Int64} : s.delete id = .ok s' → Becomes s [.deleted id] s'

/-- A store that was empty once and that some changes have made what it is. -/
inductive Reached : List Change → Store → Prop where
  | empty : Reached [] empty
  | step {past new : List Change} {s s' : Store} :
      Reached past s → s.Becomes new s' → Reached (past ++ new) s'

theorem Becomes.eq_of_nil {s s' : Store} (h : s.Becomes [] s') : s' = s := by
  cases h
  rfl

theorem Becomes.eq_create {s s' : Store} {r : Rule} (h : s.Becomes [.created r] s') :
    ∃ text root, r = (s.create text root).1 ∧ s' = (s.create text root).2 := by
  cases h with
  | create text root => exact ⟨text, root, rfl, rfl⟩

theorem Becomes.eq_delete {s s' : Store} {id : Int64} (h : s.Becomes [.deleted id] s') :
    s.delete id = .ok s' := by
  cases h with
  | delete hdelete => exact hdelete

theorem Becomes.ascending {s s' : Store} {new : List Change} (h : s.Becomes new s')
    (hs : s.rules.Pairwise (·.id < ·.id)) : s'.rules.Pairwise (·.id < ·.id) := by
  cases h with
  | same => exact hs
  | create text root => exact pairwise_place _ hs
  | delete hdelete =>
      obtain ⟨-, rfl⟩ := delete_eq_ok.1 hdelete
      exact hs.filter _

/-- The rules of a store are in ascending order of their numbers, no two with
the same one, also when the counter has run round. -/
theorem Reached.ascending {past : List Change} {s : Store} (h : Reached past s) :
    s.rules.Pairwise (·.id < ·.id) := by
  induction h with
  | empty => exact .nil
  | step _ hnew ih => exact hnew.ascending ih

/-- What a store has to do with its history while its numbers last. -/
structure Tally (past : List Change) (s : Store) : Prop where
  issued : Issued (created past) s.nextId
  deleted : ∀ id ∈ deleted past, ∃ r ∈ created past, r.id = id
  rules : s.rules = live past

namespace Tally

variable {past : List Change} {s : Store}

/-- No number that ever occurred is as great as the next one. -/
theorem id_lt_next (h : Tally past s) (hfew : (created past).length + 1 < 2 ^ 63) :
    ∀ x ∈ past, x.id < s.nextId := by
  intro x hx
  cases x with
  | created r => exact h.issued.lt_next hfew r (mem_created.2 hx)
  | deleted id =>
      obtain ⟨r, hr, rfl⟩ := h.deleted id (mem_deleted.2 hx)
      exact h.issued.lt_next hfew r hr

/-- A new rule comes last. -/
theorem rules_create (h : Tally past s) (hfew : (created past).length + 1 < 2 ^ 63) (text : String)
    (root : Tree) : (s.create text root).2.rules = s.rules ++ [(s.create text root).1] := by
  refine place_eq_append fun x hx => ?_
  rw [h.rules] at hx
  exact h.id_lt_next hfew (.created x) (mem_created.1 (mem_live.1 hx).1)

theorem create (h : Tally past s) (hfew : (created past).length + 1 < 2 ^ 63) (text : String)
    (root : Tree) :
    Tally (past ++ [.created (s.create text root).1]) (s.create text root).2 := by
  have hlive : live (past ++ [.created (s.create text root).1]) =
      live past ++ [(s.create text root).1] := live_created (h.id_lt_next hfew)
  refine ⟨?_, ?_, ?_⟩
  · rw [created_concat_created]
    exact h.issued.append rfl
  · intro id hid
    rw [deleted_concat_created] at hid
    obtain ⟨r, hr, hrid⟩ := h.deleted id hid
    rw [created_concat_created]
    exact ⟨r, List.mem_append_left _ hr, hrid⟩
  · rw [hlive, ← h.rules]
    exact h.rules_create hfew text root

theorem delete (h : Tally past s) {id : Int64} {s' : Store} (hdelete : s.delete id = .ok s') :
    Tally (past ++ [.deleted id]) s' := by
  obtain ⟨⟨r, hr, hid⟩, rfl⟩ := delete_eq_ok.1 hdelete
  refine ⟨?_, ?_, ?_⟩
  · rw [created_concat_deleted]
    exact h.issued
  · intro n hn
    rw [created_concat_deleted]
    rw [deleted_concat_deleted] at hn
    rcases List.mem_append.1 hn with hn | hn
    · exact h.deleted n hn
    · obtain rfl := List.mem_singleton.1 hn
      rw [h.rules] at hr
      exact ⟨r, (mem_live.1 hr).1, hid⟩
  · rw [live_deleted, ← h.rules]

theorem becomes (h : Tally past s) {new : List Change} {s' : Store} (hnew : s.Becomes new s')
    (hfew : (created (past ++ new)).length < 2 ^ 63) : Tally (past ++ new) s' := by
  rw [created_append, List.length_append] at hfew
  cases hnew with
  | same =>
      rw [List.append_nil]
      exact h
  | create text root => exact h.create hfew text root
  | delete hdelete => exact h.delete hdelete

end Tally

/-- A store is its history, as long as there are numbers for the rules that were
created. -/
theorem Reached.tally {past : List Change} {s : Store} (h : Reached past s)
    (hfew : (created past).length < 2 ^ 63) : Tally past s := by
  induction h with
  | empty => exact ⟨.nil, fun id hid => (by cases hid), rfl⟩
  | step _ hnew ih => exact (ih (Nat.lt_of_le_of_lt (length_created_le _ _) hfew)).becomes hnew hfew

end Store

end Criteria
