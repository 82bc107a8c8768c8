import Criteria.Proofs.Holding

/-!
# What each operation does to the rules that are held

The tables are sound if they hold some rules and no number in them is ahead of
its sequence. Every operation of the repository leaves sound tables sound, and
this file says which rules they hold then: one more, one less, or the same.
The last is all there is to say of an operation that fails, wherever it fails.
-/

namespace Criteria.Database

open Session

/-- The tables hold some rules, all under numbers that were handed out. -/
structure Store.Sound (s : Store) (xs : List Stored) : Prop where
  holds : s.tables.Holds xs
  rule_le : ∀ x ∈ xs, x.rule.id ≤ s.lastRule
  node_le : ∀ x ∈ xs, ∀ id ∈ x.nodeIds, id ≤ s.lastNode

/-- A rule whose numbers, and those of its nodes, were all handed out after a
moment. -/
def Stored.After (x : Stored) (s : Store) : Prop :=
  s.lastRule < x.rule.id ∧ ∀ id ∈ x.nodeIds, s.lastNode < id

namespace Store.Sound

variable {s s' : Store} {xs : List Stored}

theorem empty (lastRule lastNode : Int64) : (Store.mk ⟨[], []⟩ lastRule lastNode).Sound [] :=
  ⟨.empty, fun _ hx => (by cases hx), fun _ hx => (by cases hx)⟩

theorem later (h : s.Sound xs) (hl : s.Later s') (ht : s'.tables = s.tables) : s'.Sound xs where
  holds := ht ▸ h.holds
  rule_le x hx := Int64.le_trans (h.rule_le x hx) hl.rule
  node_le x hx id hid := Int64.le_trans (h.node_le x hx id hid) hl.node

theorem row_le (h : s.Sound xs) : ∀ r ∈ s.tables.nodes, r.id ≤ s.lastNode := by
  intro r hr
  rw [h.holds.nodes] at hr
  obtain ⟨x, hx, hr⟩ := List.mem_flatMap.1 hr
  exact h.node_le x hx _ (List.mem_map_of_mem hr)

theorem append (h : s.Sound xs) (hl : s.Later s') {x : Stored} (hx : x.After s)
    (hd : x.nodeIds.Nodup) (hrule : x.rule.id ≤ s'.lastRule)
    (hnode : ∀ id ∈ x.nodeIds, id ≤ s'.lastNode)
    (ht : s'.tables = ⟨s.tables.rules ++ [x.row], s.tables.nodes ++ x.nodes⟩) :
    s'.Sound (xs ++ [x]) := by
  have habove : ∀ y ∈ xs, y.rule.id < x.rule.id := fun y hy =>
    Int64.lt_of_le_of_lt (h.rule_le y hy) hx.1
  have hapart : Distinct (s.tables.nodes ++ x.nodes) :=
    h.holds.distinct.append h.row_le hd hx.2
  refine ⟨ht ▸ h.holds.append x habove hapart, fun y hy => ?_, fun y hy => ?_⟩
  · rcases List.mem_append.1 hy with hy | hy
    · exact Int64.le_trans (h.rule_le y hy) hl.rule
    · rwa [List.mem_singleton.1 hy]
  · rcases List.mem_append.1 hy with hy | hy
    · exact fun id hid => Int64.le_trans (h.node_le y hy id hid) hl.node
    · rwa [List.mem_singleton.1 hy]

/-- The tables of fewer rules, once they hold them, are sound with the same
sequences. -/
theorem filter (h : s.Sound xs) (p : Stored → Bool) {t : Tables} (ht : t.Holds (xs.filter p)) :
    ({ s with tables := t } : Store).Sound (xs.filter p) where
  holds := ht
  rule_le x hx := h.rule_le x (List.mem_filter.1 hx).1
  node_le x hx := h.node_le x (List.mem_filter.1 hx).1

end Store.Sound

variable {refusals : Refusals} {s s' : Session} {xs : List Stored}

/-! ## Creating -/

theorem writeRule_eq (refusals : Refusals) (text : String) (root : Tree) :
    writeRule refusals text root =
      andThen (insertTree refusals root) fun rootId =>
        andThen (query refusals (.insertRule text rootId)) fun id s =>
          (.ok ⟨id, text, root⟩, s) := by
  funext s
  rw [writeRule]
  simp only [andThen]
  split
  · next h => rw [h]
  · next h =>
      simp only [h]
      split
      · next h' => rw [h']
      · next h' => rw [h']

theorem Orderly.writeRule (refusals : Refusals) (text : String) (root : Tree) :
    Orderly (writeRule refusals text root) := by
  rw [writeRule_eq]
  exact .andThen (.insertTree _ _) fun rootId => .andThen (.query _ _) fun id => .answer _

/-- A rule that was written is held, behind all others and with the text and
the tree that were given. -/
theorem writeRule_ok {text : String} {root : Tree} {r : Rule} (hs : s.store.Sound xs)
    (h : writeRule refusals text root s = (.ok r, s')) :
    ∃ x : Stored, x.rule = r ∧ r.text = text ∧ r.root = root ∧ x.After s.store ∧
      s'.store.Sound (xs ++ [x]) := by
  have hlater := (Orderly.writeRule refusals text root).later h
  rw [writeRule_eq] at h
  obtain ⟨rootId, s₁, htree, h⟩ := andThen_ok h
  obtain ⟨id, s₂, hrule, h⟩ := andThen_ok h
  cases h
  obtain ⟨block, henc, hdrawn, hs₁⟩ := insertTree_ok hs.holds.distinct hs.row_le htree
  obtain ⟨hid, hs₂⟩ := Store.insertRule_ok (query_ok hrule)
  have hnew : s.store.lastRule < id := by
    have hlt := (next?_eq_some hid).1
    rwa [hs₁] at hlt
  have hafter : ∀ n ∈ block.map (·.id), s.store.lastNode < n := fun n hn => (hdrawn.2 n hn).1
  refine ⟨⟨⟨id, text, root⟩, rootId, block, henc⟩, rfl, rfl, rfl, ⟨hnew, hafter⟩, ?_⟩
  refine hs.append hlater ⟨hnew, hafter⟩ hdrawn.nodup ?_ ?_ ?_
  · rw [hs₂]
    exact Int64.le_refl _
  · intro n hn
    rw [hs₂]
    exact (hdrawn.2 n hn).2
  · rw [hs₂, hs₁]
    rfl

theorem writeRule_unrefused (hnone : ∀ earlier text, refusals earlier text = none)
    {text : String} {root : Tree} (hs : s.store.Sound xs)
    (hnode : s.store.lastNode.toInt + root.size ≤ Int64.maxValue.toInt)
    (hrule : s.store.lastRule.toInt < Int64.maxValue.toInt) :
    ∃ r s', writeRule refusals text root s = (.ok r, s') := by
  obtain ⟨rootId, s₁, htree⟩ := insertTree_unrefused hnone hnode
  obtain ⟨block, -, -, hs₁⟩ := insertTree_ok hs.holds.distinct hs.row_le htree
  have hlast : s₁.store.lastRule = s.store.lastRule := by rw [hs₁]
  obtain ⟨id, hid⟩ := next?_isSome hrule
  have hrun : ((Statement.insertRule text rootId).run s₁.store).1 = .ok id := by
    rw [Statement.run, Store.insertRule, hlast, hid]
  obtain ⟨s₂, hquery, -⟩ := query_unrefused hnone hrun
  rw [writeRule_eq, andThen_eq htree, andThen_eq hquery]
  exact ⟨_, _, rfl⟩

/-! ## Deleting -/

/-- What is left to do once the row of a rule is deleted, given the root that
it named. -/
def eraseTree (refusals : Refusals) : Option (Option Int64) → Action Session Bool
  | none => fun s => (.ok false, s)
  | some none => fun s => (.ok true, s)
  | some (some root) => andThen (query refusals (.deleteSubtree root)) fun _ s => (.ok true, s)

theorem eraseRule_eq (refusals : Refusals) (id : Int64) :
    eraseRule refusals id =
      andThen (query refusals (.deleteRule id)) (eraseTree refusals) := by
  funext s
  rw [eraseRule, andThen]
  split
  · next h => rw [h]
  · next h => rw [h]; rfl
  · next h => rw [h]; rfl
  · next h =>
      simp only [h, eraseTree, andThen]
      split
      · next h' => rw [h']
      · next h' => rw [h']

theorem Orderly.eraseRule (refusals : Refusals) (id : Int64) :
    Orderly (eraseRule refusals id) := by
  rw [eraseRule_eq]
  refine .andThen (.query _ _) fun found => ?_
  rcases found with _ | _ | root
  · exact .answer false
  · exact .answer true
  · exact .andThen (.query _ _) fun _ => .answer true

theorem deleteRule_ok {id : Int64} {found : Option (Option Int64)} (hs : s.store.Sound xs)
    (h : query refusals (.deleteRule id) s = (.ok found, s')) :
    found = (xs.find? (·.rule.id == id)).map Stored.root ∧
      s'.store = { s.store with
        tables := ⟨s.store.tables.rules.filter (·.id != id), s.store.tables.nodes⟩ } := by
  have hfind : s.store.tables.rules.find? (·.id == id) =
      (xs.find? (·.rule.id == id)).map Stored.row := by
    rw [hs.holds.rules, List.find?_map]
    rfl
  have hrun := query_ok h
  simp only [Statement.run, hfind, Option.map_map, Prod.mk.injEq, Except.ok.injEq] at hrun
  exact ⟨hrun.1.symm, hrun.2.symm⟩

theorem find?_id {id : Int64} {x : Stored} (h : xs.find? (·.rule.id == id) = some x) :
    x ∈ xs ∧ x.rule.id = id ∧ xs.any (·.rule.id == id) = true := by
  have hx := List.mem_of_find?_eq_some h
  have hid := List.find?_some h
  exact ⟨hx, by simpa using hid, List.any_eq_true.2 ⟨x, hx, hid⟩⟩

/-- Erasing a rule answers whether there was one of that number, and if so the
rest is held. -/
theorem eraseRule_ok {id : Int64} {b : Bool} (hs : s.store.Sound xs)
    (h : eraseRule refusals id s = (.ok b, s')) :
    b = xs.any (·.rule.id == id) ∧
      (b = true → s'.store.Sound (xs.filter (·.rule.id != id))) := by
  rw [eraseRule_eq] at h
  obtain ⟨found, s₁, hrule, h⟩ := andThen_ok h
  obtain ⟨hfound, hstore⟩ := deleteRule_ok hs hrule
  rcases found with _ | root
  · cases h
    rw [eq_comm, Option.map_eq_none_iff, List.find?_eq_none] at hfound
    exact ⟨by simpa using hfound, fun h => by cases h⟩
  · obtain ⟨x, hfind, hroot⟩ := Option.map_eq_some_iff.1 hfound.symm
    obtain ⟨hx, rfl, hany⟩ := find?_id hfind
    cases root with
    | none =>
        cases h
        refine ⟨hany.symm, fun _ => ?_⟩
        rw [hstore]
        exact hs.filter _ (hs.holds.delete_rootless hx hroot)
    | some root =>
        obtain ⟨u, s₂, htree, h⟩ := andThen_ok h
        cases h
        refine ⟨hany.symm, fun _ => ?_⟩
        have hrun := query_ok htree
        simp only [Statement.run, hstore, Prod.mk.injEq, true_and] at hrun
        rw [← hrun]
        exact hs.filter _ (hs.holds.delete hx hroot)

theorem eraseTree_unrefused (hnone : ∀ earlier text, refusals earlier text = none)
    (found : Option (Option Int64)) (s : Session) :
    ∃ b s', eraseTree refusals found s = (.ok b, s') := by
  rcases found with _ | _ | root
  · exact ⟨false, s, rfl⟩
  · exact ⟨true, s, rfl⟩
  · obtain ⟨s₁, htree, -⟩ := query_unrefused hnone
      (show ((Statement.deleteSubtree root).run s.store).1 = .ok () from rfl)
    rw [eraseTree, andThen_eq htree]
    exact ⟨true, s₁, rfl⟩

theorem eraseRule_unrefused (hnone : ∀ earlier text, refusals earlier text = none)
    (id : Int64) (s : Session) : ∃ b s', eraseRule refusals id s = (.ok b, s') := by
  obtain ⟨s₁, hrule, -⟩ := query_unrefused hnone
    (show ((Statement.deleteRule id).run s.store).1 = .ok _ from rfl)
  rw [eraseRule_eq, andThen_eq hrule]
  exact eraseTree_unrefused hnone _ s₁

/-! ## Listing

Listing is not a transaction, so other clients may come between its two
statements. What the first statement reads are the rules of the tables before,
and what the second one reads are the nodes of the tables after. -/

/-- Reading all rules, with what others do between the two statements. -/
def readRulesAround (refusals : Refusals) (others : Session → Session) :
    Action Session (List Rule) := fun s =>
  match query refusals .selectRules s with
  | (.error f, s) => (.error f, s)
  | (.ok rules, s) =>
    match query refusals .selectTrees (others s) with
    | (.error f, s) => (.error f, s)
    | (.ok nodes, s) => (assembleRules nodes rules, s)

/-- If nobody does anything, this is how the repository lists its rules. -/
theorem readRulesAround_alone (refusals : Refusals) :
    readRulesAround refusals (fun s => s) = (repository refusals).listAll :=
  rfl

theorem selectRules_store (refusals : Refusals) (s : Session) :
    (query refusals .selectRules s).2.store = s.store := by
  rcases h : query refusals .selectRules s with ⟨res, s'⟩
  cases res with
  | ok rows => exact (Prod.ext_iff.1 (query_ok h)).2.symm
  | error f => exact (query_error h).2

/-- Either a statement is refused, or the rules read first are rebuilt from the
nodes read last. -/
theorem readRulesAround_result (refusals : Refusals) (others : Session → Session)
    (s : Session) :
    let middle := others (query refusals .selectRules s).2
    (∃ e s', readRulesAround refusals others s = (.error (.database e), s') ∧
      (s'.store = s.store ∨ s'.store = middle.store)) ∨
    ∃ s', readRulesAround refusals others s =
        (assembleRules (Store.treesOf middle.store.tables)
          (Store.rulesInOrder s.store.tables), s') ∧ s'.store = middle.store := by
  rw [readRulesAround]
  rcases hrules : query refusals .selectRules s with ⟨res, s₁⟩
  cases res with
  | error f =>
      obtain ⟨⟨e, rfl⟩, hstore⟩ := query_error hrules
      exact Or.inl ⟨e, s₁, rfl, Or.inl hstore⟩
  | ok rows =>
      have hrows := query_ok hrules
      simp only [Statement.run, Prod.mk.injEq, Except.ok.injEq] at hrows
      rcases htrees : query refusals .selectTrees (others s₁) with ⟨res, s₂⟩
      cases res with
      | error f =>
          obtain ⟨⟨e, rfl⟩, hstore⟩ := query_error htrees
          exact Or.inl ⟨e, s₂, by simp only [htrees], Or.inr hstore⟩
      | ok nodes =>
          have hnodes := query_ok htrees
          simp only [Statement.run, Prod.mk.injEq, Except.ok.injEq] at hnodes
          exact Or.inr ⟨s₂, by simp only [htrees, hrows.1, hnodes.1], hnodes.2.symm⟩

theorem readRulesAround_unrefused (hnone : ∀ earlier text, refusals earlier text = none)
    (others : Session → Session) (s : Session) {rules : List Rule}
    (hrules : assembleRules
      (Store.treesOf (others (query refusals .selectRules s).2).store.tables)
      (Store.rulesInOrder s.store.tables) = .ok rules) :
    ∃ s', readRulesAround refusals others s = (.ok rules, s') := by
  obtain ⟨s₁, hselect, -⟩ := query_unrefused hnone
    (show (Statement.selectRules.run s.store).1 = .ok _ from rfl)
  obtain ⟨s₂, htrees, -⟩ := query_unrefused hnone
    (show (Statement.selectTrees.run (others s₁).store).1 = .ok _ from rfl)
  rw [hselect] at hrules
  rw [readRulesAround, hselect]
  simp only [htrees, hrules]
  exact ⟨s₂, rfl⟩

theorem readRules_result (refusals : Refusals) (s : Session) :
    (∃ e s', readRules refusals s = (.error (.database e), s') ∧ s'.store = s.store) ∨
    ∃ s', readRules refusals s =
      (assembleRules (Store.treesOf s.store.tables) (Store.rulesInOrder s.store.tables), s') ∧
        s'.store = s.store := by
  have hstore := selectRules_store refusals s
  have halone := readRulesAround_result refusals (fun s => s) s
  rw [readRulesAround_alone] at halone
  rcases halone with ⟨e, s', h, hs'⟩ | ⟨s', h, hs'⟩
  · exact Or.inl ⟨e, s', h, hs'.elim id fun hs' => hs'.trans hstore⟩
  · rw [hstore] at h hs'
    exact Or.inr ⟨s', h, hs'⟩

theorem readRules_store {res : Except Failure (List Rule)}
    (h : readRules refusals s = (res, s')) : s'.store = s.store := by
  rcases readRules_result refusals s with ⟨e, s₁, hres, hs₁⟩ | ⟨s₁, hres, hs₁⟩
  · rw [hres] at h
    cases h
    exact hs₁
  · rw [hres] at h
    cases h
    exact hs₁

theorem readRules_ok {rs : List Rule} (hs : s.store.Sound xs)
    (h : readRules refusals s = (.ok rs, s')) : rs = xs.map (·.rule) := by
  rcases readRules_result refusals s with ⟨e, s₁, hres, -⟩ | ⟨s₁, hres, -⟩
  · rw [hres] at h; cases h
  · rw [hres, hs.holds.assembleRules_eq] at h
    cases h
    rfl

theorem readRules_error {f : Failure} (hs : s.store.Sound xs)
    (h : readRules refusals s = (.error f, s')) : ∃ e, f = .database e := by
  rcases readRules_result refusals s with ⟨e, s₁, hres, -⟩ | ⟨s₁, hres, -⟩
  · rw [hres] at h
    cases h
    exact ⟨e, rfl⟩
  · rw [hres, hs.holds.assembleRules_eq] at h; cases h

theorem readRules_unrefused (hnone : ∀ earlier text, refusals earlier text = none)
    (hs : s.store.Sound xs) : ∃ rs s', readRules refusals s = (.ok rs, s') := by
  obtain ⟨s', h⟩ := readRulesAround_unrefused hnone (fun s => s) s
    (by rw [selectRules_store]; exact hs.holds.assembleRules_eq)
  exact ⟨_, s', h⟩

end Criteria.Database
