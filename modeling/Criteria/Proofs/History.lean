import Criteria.Proofs.Chronicle
import Criteria.Proofs.Operations

/-!
# Histories of calls

What clients do to a repository is a sequence of calls, and what became of the
calls is a list of changes: the rules that were created and the numbers that
were deleted, as the answers told. From these changes alone one can say which
rules there are (`live`). `repository_refines_memory` says that the database
agrees: after any calls, any of which may have failed at any statement, it
holds the live rules and nothing else, and the next call is answered as the
repository in memory would answer it.

The induction is over the calls. What it carries is `Keeps`: the tables hold
the live rules, and no number that ever occurred is ahead of the sequences,
so that a number is not given to a second rule when the first one is gone.
-/

namespace Criteria

/-- A call of a repository and the type of its answer. -/
inductive Call : Type → Type where
  | create (text : String) (root : Tree) : Call Rule
  | listAll : Call (List Rule)
  | contains (id : Int64) : Call Bool
  | delete (id : Int64) : Call Bool

namespace Call

def run {σ α : Type} (repo : Repository σ) : Call α → Action σ α
  | create text root => repo.create text root
  | listAll => repo.listAll
  | contains id => repo.contains id
  | delete id => repo.delete id

/-- What a call has changed, going by its answer. -/
def changes {α : Type} : Call α → Except Failure α → List Change
  | create _ _, .ok r => [.created r]
  | delete id, .ok true => [.deleted id]
  | _, _ => []

end Call

def Call.Answers {α : Type} (past : List Change) : Call α → α → Prop
  | create text root, r => r.text = text ∧ r.root = root ∧ ∀ x ∈ past, x.id < r.id
  | listAll, rules => rules = live past
  | contains id, b => b = true ↔ ∃ r ∈ live past, r.id = id
  | delete id, b => b = true ↔ ∃ r ∈ live past, r.id = id

/-! ## The repository in memory -/

/-- An answer that is allowed is the one that the repository in memory gives,
if it holds the live rules and comes to the same number. -/
theorem Call.run_memory {α : Type} {c : Call α} {past : List Change} {a : α}
    (h : c.Answers past a) :
    ∃ next next', c.run Repository.memory ⟨live past, next⟩ =
      (.ok a, ⟨live (past ++ c.changes (.ok a)), next'⟩) := by
  cases c with
  | create text root =>
      obtain ⟨rfl, rfl, hfresh⟩ := h
      have hlast : ∀ x ∈ live past, x.id < a.id := fun x hx =>
        hfresh (.created x) (mem_created.1 (List.mem_filter.1 hx).1)
      refine ⟨a.id, a.id + 1, ?_⟩
      rw [changes, live_created hfresh, ← Store.place_eq_append hlast]
      rfl
  | listAll =>
      subst h
      exact ⟨0, 0, by rw [changes, List.append_nil]; rfl⟩
  | contains id =>
      have hiff : a = true ↔ ∃ r ∈ live past, r.id = id := h
      have hb : (live past).any (·.id == id) = a := by
        rw [Bool.eq_iff_iff, hiff, List.any_eq_true]
        simp
      exact ⟨0, 0, by rw [changes, List.append_nil, ← hb]; rfl⟩
  | delete id =>
      have hiff : a = true ↔ ∃ r ∈ live past, r.id = id := h
      have hb : Store.contains ⟨live past, 0⟩ id = a := by
        rw [Bool.eq_iff_iff, hiff, Store.contains, List.any_eq_true]
        simp
      refine ⟨0, 0, ?_⟩
      cases a with
      | true =>
          rw [changes, live_deleted]
          simp only [run, Repository.memory, Store.delete, hb]
          rfl
      | false =>
          rw [changes, List.append_nil]
          simp only [run, Repository.memory, Store.delete, hb]
          rfl

/-! ## Runs of the database -/

namespace Database

open Session

/-- What happens to a database: a call, some of whose statements may be
refused, or somebody else using up numbers. -/
inductive Event where
  | call {α : Type} (refusals : Refusals) (c : Call α)
  | skip (rule node : Int64)

/-- What has changed by an event, and the session after it. -/
def Event.run : Event → Session → List Change × Session
  | call refusals c, s =>
    let (answer, s) := c.run (repository refusals) s
    (c.changes answer, s)
  | skip rule node, s =>
    ([], { s with store := { s.store with
      lastRule := max s.store.lastRule rule
      lastNode := max s.store.lastNode node } })

/-- What has changed by some events, and the session after them. -/
def runAll : List Event → Session → List Change × Session
  | [], s => ([], s)
  | e :: rest, s =>
    let (first, s) := e.run s
    let (more, s) := runAll rest s
    (first ++ more, s)

/-- A database without rules, wherever its sequences stand. -/
def Session.fresh (lastRule lastNode : Int64) : Session :=
  ⟨⟨⟨[], []⟩, lastRule, lastNode⟩, []⟩

/-- The tables hold the live rules, and no number of a change is ahead of the
sequence. -/
structure Keeps (past : List Change) (s : Store) (xs : List Stored) : Prop where
  sound : s.Sound xs
  rules : xs.map (·.rule) = live past
  past_le : ∀ x ∈ past, x.id ≤ s.lastRule

/-- From one moment to a later one: the rules that are held then were held
before or are new. -/
structure Onward (s : Store) (xs : List Stored) (s' : Store) (ys : List Stored) : Prop where
  later : s.Later s'
  old_or_new : ∀ y ∈ ys, y ∈ xs ∨ y.After s

theorem Onward.refl (s : Store) (xs : List Stored) : Onward s xs s xs :=
  ⟨.refl s, fun _ h => Or.inl h⟩

theorem Onward.trans {s s' s'' : Store} {xs ys zs : List Stored} (h : Onward s xs s' ys)
    (h' : Onward s' ys s'' zs) : Onward s xs s'' zs := by
  refine ⟨h.later.trans h'.later, fun z hz => ?_⟩
  rcases h'.old_or_new z hz with hz | hz
  · exact h.old_or_new z hz
  · exact Or.inr ⟨Int64.lt_of_le_of_lt h.later.rule hz.1,
      fun id hid => Int64.lt_of_le_of_lt h.later.node (hz.2 id hid)⟩

section Steps

variable {refusals : Refusals} {past : List Change} {s s' : Session} {xs : List Stored}
  {α : Type}

theorem call_later {c : Call α} {res : Except Failure α}
    (h : c.run (repository refusals) s = (res, s')) : s.store.Later s'.store := by
  cases c with
  | create text root => exact (Orderly.writeRule refusals text root).transaction.later h
  | listAll =>
      rw [readRules_store h]
      exact .refl _
  | contains id => exact query_later h
  | delete id => exact (Orderly.eraseRule refusals id).transaction.later h

/-- A call that fails is the database's fault and changes no table. -/
theorem call_error {c : Call α} {f : Failure} (hs : s.store.Sound xs)
    (h : c.run (repository refusals) s = (.error f, s')) :
    (∃ e, f = .database e) ∧ s'.store.tables = s.store.tables := by
  cases c with
  | create text root =>
      exact ⟨(Orderly.writeRule refusals text root).transaction.error h, transaction_error h⟩
  | listAll => exact ⟨readRules_error hs h, by rw [readRules_store h]⟩
  | contains id =>
      obtain ⟨hf, hstore⟩ := query_error h
      exact ⟨hf, by rw [hstore]⟩
  | delete id =>
      exact ⟨(Orderly.eraseRule refusals id).transaction.error h, transaction_error h⟩

/-- Whether there is room in the sequences for what a call inserts. -/
def Fits (s : Store) : Call α → Prop
  | .create _ root => s.lastNode.toInt + root.size ≤ Int64.maxValue.toInt ∧
      s.lastRule.toInt < Int64.maxValue.toInt
  | _ => True

theorem call_unrefused (hnone : ∀ earlier text, refusals earlier text = none)
    {c : Call α} (hs : s.store.Sound xs) (hfits : Fits s.store c) :
    ∃ a s', c.run (repository refusals) s = (.ok a, s') := by
  cases c with
  | create text root =>
      refine transaction_unrefused hnone fun s₁ hs₁ => ?_
      rw [← hs₁] at hs hfits
      exact writeRule_unrefused hnone hs hfits.1 hfits.2
  | listAll => exact readRules_unrefused hnone hs
  | contains id =>
      obtain ⟨s', h, -⟩ := query_unrefused hnone
        (show ((Statement.ruleExists id).run s.store).1 = .ok _ from rfl)
      exact ⟨_, s', h⟩
  | delete id => exact transaction_unrefused hnone fun s₁ _ => eraseRule_unrefused hnone id s₁

theorem Keeps.any_iff (h : Keeps past s.store xs) (id : Int64) :
    xs.any (·.rule.id == id) = true ↔ ∃ r ∈ live past, r.id = id := by
  rw [← h.rules]
  simp

/-- Nothing is lost when only the sequences move. -/
theorem Keeps.later (h : Keeps past s.store xs) (hlater : s.store.Later s'.store)
    (ht : s'.store.tables = s.store.tables) :
    Keeps past s'.store xs ∧ Onward s.store xs s'.store xs :=
  ⟨⟨h.sound.later hlater ht, h.rules, fun x hx => Int64.le_trans (h.past_le x hx) hlater.rule⟩,
    hlater, fun _ => Or.inl⟩

theorem Keeps.create {x : Stored} (h : Keeps past s.store xs) (hlater : s.store.Later s'.store)
    (hafter : x.After s.store) (hsound : s'.store.Sound (xs ++ [x])) :
    (∀ y ∈ past, y.id < x.rule.id) ∧
      Keeps (past ++ [.created x.rule]) s'.store (xs ++ [x]) ∧
      Onward s.store xs s'.store (xs ++ [x]) := by
  have hfresh : ∀ y ∈ past, y.id < x.rule.id := fun y hy =>
    Int64.lt_of_le_of_lt (h.past_le y hy) hafter.1
  refine ⟨hfresh, ⟨hsound, ?_, ?_⟩, hlater, ?_⟩
  · rw [live_created hfresh, ← h.rules, List.map_append]
    rfl
  · intro y hy
    rcases List.mem_append.1 hy with hy | hy
    · exact Int64.le_trans (h.past_le y hy) hlater.rule
    · rw [List.mem_singleton.1 hy]
      exact hsound.rule_le x (by simp)
  · intro y hy
    rcases List.mem_append.1 hy with hy | hy
    · exact Or.inl hy
    · rw [List.mem_singleton.1 hy]
      exact Or.inr hafter

theorem Keeps.delete {id : Int64} (h : Keeps past s.store xs)
    (hlater : s.store.Later s'.store) (hany : xs.any (·.rule.id == id) = true)
    (hsound : s'.store.Sound (xs.filter (·.rule.id != id))) :
    Keeps (past ++ [.deleted id]) s'.store (xs.filter (·.rule.id != id)) ∧
      Onward s.store xs s'.store (xs.filter (·.rule.id != id)) := by
  refine ⟨⟨hsound, ?_, ?_⟩, hlater, fun y hy => Or.inl (List.mem_filter.1 hy).1⟩
  · rw [live_deleted, ← h.rules, List.filter_map]
    rfl
  · intro y hy
    rcases List.mem_append.1 hy with hy | hy
    · exact Int64.le_trans (h.past_le y hy) hlater.rule
    · obtain ⟨x, hx, hid⟩ := List.any_eq_true.1 hany
      obtain rfl := beq_iff_eq.1 hid
      rw [List.mem_singleton.1 hy]
      exact Int64.le_trans (h.sound.rule_le x hx) hlater.rule

/-- A call that succeeds gives an answer that the changes so far allow, and the
database keeps up with the change. -/
theorem Keeps.call_ok {c : Call α} {a : α} (h : Keeps past s.store xs)
    (hrun : c.run (repository refusals) s = (.ok a, s')) :
    c.Answers past a ∧ ∃ ys, Keeps (past ++ c.changes (.ok a)) s'.store ys ∧
      Onward s.store xs s'.store ys := by
  have hlater := call_later hrun
  cases c with
  | create text root =>
      obtain ⟨s₁, s₂, hs₁, hbody, hs'⟩ := transaction_ok hrun
      rw [if_pos rfl] at hs'
      obtain ⟨x, rfl, htext, hroot, hafter, hsound⟩ := writeRule_ok (hs₁ ▸ h.sound) hbody
      rw [hs₁] at hafter
      rw [← hs'] at hsound
      obtain ⟨hfresh, hkeeps⟩ := h.create hlater hafter hsound
      exact ⟨⟨htext, hroot, hfresh⟩, xs ++ [x], hkeeps⟩
  | listAll =>
      rw [Call.changes, List.append_nil]
      exact ⟨(readRules_ok h.sound hrun).trans h.rules, xs,
        h.later hlater (by rw [readRules_store hrun])⟩
  | contains id =>
      have hans := query_ok hrun
      simp only [Statement.run, Prod.mk.injEq, Except.ok.injEq] at hans
      obtain ⟨hb, hs'⟩ := hans
      rw [Call.changes, List.append_nil]
      refine ⟨?_, xs, h.later hlater (by rw [hs'])⟩
      show a = true ↔ _
      rw [← h.any_iff, ← hb, h.sound.holds.rules, List.any_map]
      rfl
  | delete id =>
      obtain ⟨s₁, s₂, hs₁, hbody, hs'⟩ := transaction_ok hrun
      obtain ⟨hb, hsound⟩ := eraseRule_ok (hs₁ ▸ h.sound) hbody
      refine ⟨show a = true ↔ _ by rw [hb]; exact h.any_iff id, ?_⟩
      cases a with
      | false =>
          rw [if_neg (by simp)] at hs'
          rw [Call.changes, List.append_nil]
          exact ⟨xs, h.later hlater (by rw [hs'])⟩
      | true =>
          have hs' : s'.store = s₂.store := hs'
          rw [← hs'] at hsound
          exact ⟨_, h.delete hlater hb.symm (hsound rfl)⟩

theorem le_max (a b : Int64) : a ≤ max a b := by
  show a ≤ if a ≤ b then b else a
  split
  · assumption
  · exact Int64.le_refl a

theorem Keeps.event (h : Keeps past s.store xs) (e : Event) :
    ∃ ys, Keeps (past ++ (e.run s).1) (e.run s).2.store ys ∧
      Onward s.store xs (e.run s).2.store ys := by
  cases e with
  | call refusals c =>
      rw [Event.run]
      rcases hrun : c.run (repository refusals) s with ⟨answer, s'⟩
      cases answer with
      | ok a => exact (h.call_ok hrun).2
      | error f =>
          have hnone : c.changes (.error f) = [] := by cases c <;> rfl
          show ∃ ys, Keeps (past ++ c.changes (.error f)) s'.store ys ∧ _
          rw [hnone, List.append_nil]
          exact ⟨xs, h.later (call_later hrun) (call_error h.sound hrun).2⟩
  | skip rule node =>
      have hlater : s.store.Later ((Event.skip rule node).run s).2.store :=
        ⟨le_max _ _, le_max _ _⟩
      have hkeeps := h.later hlater rfl
      rw [← List.append_nil past] at hkeeps
      exact ⟨xs, hkeeps⟩

theorem Keeps.runAll (events : List Event) (h : Keeps past s.store xs) :
    ∃ ys, Keeps (past ++ (runAll events s).1) (runAll events s).2.store ys ∧
      Onward s.store xs (runAll events s).2.store ys := by
  induction events generalizing past s xs with
  | nil =>
      rw [Database.runAll, List.append_nil]
      exact ⟨xs, h, .refl _ _⟩
  | cons e rest ih =>
      obtain ⟨ys, hys, hon⟩ := h.event e
      obtain ⟨zs, hzs, hon'⟩ := ih hys
      rw [List.append_assoc] at hzs
      exact ⟨zs, hzs, hon.trans hon'⟩

end Steps

theorem Keeps.fresh (lastRule lastNode : Int64) :
    Keeps [] (Session.fresh lastRule lastNode).store [] :=
  ⟨.empty _ _, rfl, fun _ h => by cases h⟩

/-- The database does what the repository in memory does. After any events the
tables hold the live rules and nothing else. A call after them that succeeds is
answered as in memory, one that fails changes no table, and one of which
nothing is refused succeeds as long as there are numbers. -/
theorem repository_refines_memory {lastRule lastNode : Int64} {events : List Event}
    {past : List Change} {s : Session}
    (hrun : runAll events (.fresh lastRule lastNode) = (past, s)) :
    (∃ xs, s.store.tables.Holds xs ∧ xs.map (·.rule) = live past) ∧
    (live past).Pairwise (·.id < ·.id) ∧
    ∀ (refusals : Refusals) {α : Type} (c : Call α),
      (∀ a s', c.run (repository refusals) s = (.ok a, s') →
        c.Answers past a ∧
        ∃ next next', c.run Repository.memory ⟨live past, next⟩ =
          (.ok a, ⟨live (past ++ c.changes (.ok a)), next'⟩)) ∧
      (∀ f s', c.run (repository refusals) s = (.error f, s') →
        (∃ e, f = .database e) ∧ s'.store.tables = s.store.tables) ∧
      ((∀ earlier text, refusals earlier text = none) → Fits s.store c →
        ∃ a s', c.run (repository refusals) s = (.ok a, s')) := by
  obtain ⟨xs, hkeeps, -⟩ := (Keeps.fresh lastRule lastNode).runAll events
  rw [List.nil_append, hrun] at hkeeps
  have hpairwise : (live past).Pairwise (·.id < ·.id) := by
    rw [← hkeeps.rules, List.pairwise_map]
    exact List.pairwise_map.1 hkeeps.sound.holds.ascending
  refine ⟨⟨xs, hkeeps.sound.holds, hkeeps.rules⟩, hpairwise, fun refusals α c => ⟨?_, ?_, ?_⟩⟩
  · intro a s' h
    have hans := (hkeeps.call_ok h).1
    exact ⟨hans, Call.run_memory hans⟩
  · exact fun f s' h => call_error hkeeps.sound h
  · exact fun hnone hfits => call_unrefused hnone hkeeps.sound hfits

/-- Three rules of which one is lost at its commit and one is deleted: the one
that is left, a branch with one child, is listed as it was created. -/
theorem repository_refines_memory_one_left :
    let s := (runAll [
      .call (fun _ _ => none) (.create "a > 1" (.ofCondition "a > 1")),
      .call (fun _ text => if text = "COMMIT" then some .poolTimedOut else none)
        (.create "b > 1" (.ofCondition "b > 1")),
      .call (fun _ _ => none) (.create "c > 1" (.branch .or .empty (.ofCondition "c > 1"))),
      .call (fun _ _ => none) (.delete 1)] (.fresh 0 0)).2
    ∃ s', (repository fun _ _ => none).listAll s =
      (.ok [⟨3, "c > 1", .branch .or .empty (.ofCondition "c > 1")⟩], s') := by
  intro s
  have hpast : runAll _ (.fresh 0 0) = ([.created ⟨1, "a > 1", .ofCondition "a > 1"⟩,
      .created ⟨3, "c > 1", .branch .or .empty (.ofCondition "c > 1")⟩, .deleted 1], s) :=
    Prod.ext (by decide +kernel) rfl
  obtain ⟨-, -, hcalls⟩ := repository_refines_memory hpast
  obtain ⟨hok, -, hsucceeds⟩ := hcalls (fun _ _ => none) .listAll
  obtain ⟨rules, s', h⟩ := hsucceeds (fun _ _ => rfl) trivial
  obtain rfl : rules = [⟨3, "c > 1", .branch .or .empty (.ofCondition "c > 1")⟩] :=
    (hok rules s' h).1.trans (by decide +kernel)
  exact ⟨s', h⟩

end Database

end Criteria
