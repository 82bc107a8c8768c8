import Criteria.Proofs.History

/-!
# Listing while others are at work

Listing reads the rules in one statement and their nodes in another, and it is
no transaction: what other clients commit in between is seen by the second
statement only. A rule created in between does no harm, since its row was not
read and its nodes hang from no row that was. A rule deleted in between does:
its row was read and its nodes are gone, and a missing node is rebuilt as no
tree. So the list shows a rule that was never created, one with the text of
the deleted rule and without its tree.

`readRulesAround_eq` says that this is all that can go wrong, and when it does.
A tree is never rebuilt in part, and never from the nodes of another rule:
numbers are not handed out twice, so the nodes of a later rule cannot be taken
for those that are gone.
-/

namespace Criteria

/-- A rule whose tree was read after the rule was deleted. -/
def Rule.withoutTree (r : Rule) : Rule :=
  { r with root := .empty }

/-- A rule as it is listed if some changes come before its tree is read. -/
def Rule.listedAfter (r : Rule) (more : List Change) : Rule :=
  if (deleted more).contains r.id then r.withoutTree else r

namespace Database

open Session

/-! ## Rows of one moment and nodes of a later one -/

section Rebuilding

variable {s s' : Store} {xs ys : List Stored}

theorem Onward.mem_of_id (hon : Onward s xs s' ys) (hs : s.Sound xs) {x y : Stored}
    (hx : x ∈ xs) (hy : y ∈ ys) (hid : y.rule.id = x.rule.id) : x ∈ ys := by
  rcases hon.old_or_new y hy with hyx | hnew
  · rwa [← hs.holds.eq_of_id hyx hx hid]
  · have hlt := hnew.1
    rw [hid] at hlt
    exact absurd (hs.rule_le x hx) (Int64.not_le.2 hlt)

/-- The nodes of a rule that is gone are gone, and their numbers with them. -/
theorem Onward.not_mem_nodes (hon : Onward s xs s' ys) (hs : s.Sound xs) (hs' : s'.Sound ys)
    {x : Stored} (hx : x ∈ xs) (hgone : x ∉ ys) {id : Int64} (hid : id ∈ x.nodeIds) :
    id ∉ s'.tables.nodes.map (·.id) := by
  intro hmem
  rw [hs'.holds.nodes, List.map_flatMap] at hmem
  obtain ⟨y, hy, hidy⟩ := List.mem_flatMap.1 hmem
  rcases hon.old_or_new y hy with hyx | hnew
  · exact hs.holds.not_mem_nodeIds hx hyx (fun h => hgone (h ▸ hy)) hid hidy
  · exact absurd (hs.node_le x hx id hid) (Int64.not_le.2 (hnew.2 id hidy))

/-- The rows of one moment, rebuilt from the nodes of a later one: a rule is
whole if it is still there, and has no tree if it is gone. -/
theorem Onward.assembleRules (hon : Onward s xs s' ys) (hs : s.Sound xs) (hs' : s'.Sound ys)
    {gone : Stored → Bool} (hgone : ∀ x ∈ xs, gone x = true ↔ x ∉ ys) :
    assembleRules (Store.treesOf s'.tables) (Store.rulesInOrder s.tables) =
      .ok (xs.map fun x => if gone x then x.rule.withoutTree else x.rule) := by
  rw [hs.holds.rulesInOrder_eq, assembleRules_eq fun x => if gone x then .empty else x.rule.root]
  · congr 1
    refine List.map_congr_left fun x _ => ?_
    split <;> rfl
  · intro x hx
    split
    · next h =>
        cases hroot : x.root with
        | none => rfl
        | some id =>
            exact Tables.Holds.assemble_gone
              (hon.not_mem_nodes hs hs' hx ((hgone x hx).1 h) (x.root_mem hroot))
    · next h =>
        have hy : x ∈ ys := Classical.not_not.1 fun hnot => h ((hgone x hx).2 hnot)
        exact hs'.holds.assemble hy

end Rebuilding

/-- The rules that were held and are held no more are those deleted since. -/
theorem Keeps.gone_iff {past more : List Change} {s s' : Store} {xs ys : List Stored}
    (h : Keeps past s xs) (h' : Keeps (past ++ more) s' ys) (hon : Onward s xs s' ys)
    {x : Stored} (hx : x ∈ xs) : (deleted more).contains x.rule.id = true ↔ x ∉ ys := by
  have hlive : x.rule ∈ live past := h.rules ▸ List.mem_map_of_mem hx
  rw [mem_live] at hlive
  rw [List.contains_iff_mem]
  constructor
  · intro hdel hy
    have hlive' : x.rule ∈ live (past ++ more) := h'.rules ▸ List.mem_map_of_mem hy
    rw [mem_live, deleted_append] at hlive'
    exact hlive'.2 (List.mem_append_right _ hdel)
  · intro hgone
    refine Classical.not_not.1 fun hdel => ?_
    have hlive' : x.rule ∈ live (past ++ more) := by
      rw [mem_live, created_append, deleted_append]
      refine ⟨List.mem_append_left _ hlive.1, fun hmem => ?_⟩
      exact (List.mem_append.1 hmem).elim hlive.2 hdel
    rw [← h'.rules] at hlive'
    obtain ⟨y, hy, hrule⟩ := List.mem_map.1 hlive'
    exact hgone (hon.mem_of_id h.sound hx hy (by rw [hrule]))

theorem Keeps.eq_of_id {past : List Change} {s : Store} {xs : List Stored}
    (h : Keeps past s xs) {r r' : Rule} (hr : r ∈ live past) (hr' : r' ∈ live past)
    (hid : r.id = r'.id) : r = r' := by
  rw [← h.rules] at hr hr'
  obtain ⟨x, hx, rfl⟩ := List.mem_map.1 hr
  obtain ⟨y, hy, rfl⟩ := List.mem_map.1 hr'
  rw [h.sound.holds.eq_of_id hx hy hid]

/-- The list is right unless a tree was deleted. -/
theorem Keeps.listed_iff {past : List Change} {s : Store} {xs : List Stored}
    (h : Keeps past s xs) (more : List Change) :
    (∀ r ∈ (live past).map (·.listedAfter more), r ∈ created past) ↔
      ∀ r ∈ live past, r.id ∈ deleted more → r.root = .empty := by
  constructor
  · intro hall r hr hdel
    have hmem := hall _ (List.mem_map_of_mem hr)
    rw [Rule.listedAfter, if_pos (List.contains_iff_mem.2 hdel)] at hmem
    have hlive : r.withoutTree ∈ live past := mem_live.2 ⟨hmem, (mem_live.1 hr).2⟩
    rw [← h.eq_of_id hlive hr rfl]
    rfl
  · intro hempty r' hr'
    obtain ⟨r, hr, rfl⟩ := List.mem_map.1 hr'
    have hcreated := (mem_live.1 hr).1
    rw [Rule.listedAfter]
    split
    · next hdel =>
        rw [Rule.withoutTree, ← hempty r hr (List.contains_iff_mem.1 hdel)]
        exact hcreated
    · exact hcreated

/-- What is listed, with others at work between the two statements of the
repository, are the rules that were live at the first statement. Those
deleted before the second one have lost their trees, and all others are as they
were created; so the list shows no rule that was never created if and only if
no rule with a tree was deleted in between. -/
theorem readRulesAround_eq {lastRule lastNode : Int64} {before between : List Event}
    {refusals : Refusals} {past more : List Change} {s s' : Session}
    (hbefore : runAll before (.fresh lastRule lastNode) = (past, s))
    (hbetween : runAll between (query refusals .selectRules s).2 = (more, s')) :
    readRulesAround refusals (fun s => s) = (repository refusals).listAll ∧
    let result := (readRulesAround refusals (fun s => (runAll between s).2) s).1
    (∀ f, result = .error f → ∃ e, f = .database e) ∧
    ((∀ earlier text, refusals earlier text = none) → ∃ rules, result = .ok rules) ∧
    ∀ rules, result = .ok rules →
      rules = (live past).map (·.listedAfter more) ∧
      ((∀ r ∈ rules, r ∈ created past) ↔
        ∀ r ∈ live past, r.id ∈ deleted more → r.root = .empty) := by
  obtain ⟨xs, hkeeps, -⟩ := (Keeps.fresh lastRule lastNode).runAll before
  rw [List.nil_append, hbefore] at hkeeps
  have hmiddle : Keeps past (query refusals .selectRules s).2.store xs := by
    rw [selectRules_store]
    exact hkeeps
  obtain ⟨ys, hkeeps', hon⟩ := hmiddle.runAll between
  rw [selectRules_store] at hon
  have hrebuilt := hon.assembleRules hkeeps.sound hkeeps'.sound fun x hx =>
    hkeeps.gone_iff hkeeps' hon hx
  have hmap : xs.map (fun x => if (deleted (runAll between
      (query refusals .selectRules s).2).1).contains x.rule.id then x.rule.withoutTree
        else x.rule) = (live past).map (·.listedAfter more) := by
    rw [← hkeeps.rules, List.map_map, hbetween]
    rfl
  rw [hmap] at hrebuilt
  refine ⟨readRulesAround_alone refusals, ?_⟩
  intro result
  have hresult : (∃ e, result = .error (.database e)) ∨
      result = .ok ((live past).map (·.listedAfter more)) := by
    rcases readRulesAround_result refusals (fun s => (runAll between s).2) s with
      ⟨e, s₂, h, -⟩ | ⟨s₂, h, -⟩
    · exact Or.inl ⟨e, congrArg Prod.fst h⟩
    · exact Or.inr ((congrArg Prod.fst h).trans hrebuilt)
  refine ⟨fun f hf => ?_, fun hnone => ?_, fun rules hrules => ?_⟩
  · rcases hresult with ⟨e, h⟩ | h
    · rw [h] at hf; cases hf; exact ⟨e, rfl⟩
    · rw [h] at hf; cases hf
  · obtain ⟨s₂, h⟩ := readRulesAround_unrefused hnone (fun s => (runAll between s).2) s hrebuilt
    exact ⟨_, congrArg Prod.fst h⟩
  · rcases hresult with ⟨e, h⟩ | h
    · rw [h] at hrules; cases hrules
    · rw [h] at hrules
      cases hrules
      exact ⟨rfl, hkeeps.listed_iff more⟩

/-- The only rule is deleted between the two statements, and is listed without
its tree. -/
theorem readRulesAround_eq_without_tree :
    let s := (runAll [.call (fun _ _ => none) (.create "a > 1" (.ofCondition "a > 1"))]
      (.fresh 0 0)).2
    (readRulesAround (fun _ _ => none)
        (fun s => (runAll [.call (fun _ _ => none) (.delete 1)] s).2) s).1 =
      .ok [⟨1, "a > 1", .empty⟩] := by
  intro s
  have hbefore : runAll _ (.fresh 0 0) = ([.created ⟨1, "a > 1", .ofCondition "a > 1"⟩], s) :=
    Prod.ext (by decide +kernel) rfl
  have hbetween : runAll [.call (fun _ _ => none) (.delete 1)]
      (query (fun _ _ => none) .selectRules s).2 = ([.deleted 1], _) :=
    Prod.ext (by decide +kernel) rfl
  obtain ⟨-, -, hok, heq⟩ := readRulesAround_eq hbefore hbetween
  obtain ⟨rules, h⟩ := hok fun _ _ => rfl
  exact h.trans (by rw [(heq rules h).1]; decide +kernel)

end Database

end Criteria
