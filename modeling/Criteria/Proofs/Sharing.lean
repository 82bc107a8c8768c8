import Criteria.Proofs.Chronicle
import Mathlib.Logic.Function.Basic

/-!
# One store in many hands

A client holds a store by two references, one to the rules and one to the
counter, and cloning a store copies the references. So the clones of a store
are many handles on one content, and what one of them is asked depends on what
was done through all of them. `clones_answer_from_history` says how: through
whichever clones the calls came, each one is answered from the changes that the
calls before it made (`Store.Call.Answers`).

The induction is over the calls. It carries that the content behind the handles
is reached by the changes so far; that it is the same content behind each of
them is `Clones.eq`, and is used at each call.
-/

namespace Criteria

/-! ## Calls of a store -/

/-- A call of a store and the type of its answer. -/
inductive Store.Call : Type → Type where
  | create (text : String) (root : Tree) : Call Rule
  | delete (id : Int64) : Call (Except RuleError Unit)
  | contains (id : Int64) : Call Bool
  | toList : Call (List Rule)
  | size : Call Nat
  | isEmpty : Call Bool

namespace Store.Call

def run {α : Type} : Call α → Store → α × Store
  | create text root, s => s.create text root
  | delete id, s =>
    match s.delete id with
    | .ok s => (.ok (), s)
    | .error e => (.error e, s)
  | contains id, s => (s.contains id, s)
  | toList, s => (s.toList, s)
  | size, s => (s.size, s)
  | isEmpty, s => (s.isEmpty, s)

/-- What a call has changed, going by its answer. -/
def changes {α : Type} : Call α → α → List Change
  | create _ _, r => [.created r]
  | delete id, .ok _ => [.deleted id]
  | _, _ => []

/-- What a call must be answered after some changes: a new rule has got what it
was given and a number above all earlier ones, and everything else is read off
the live rules. -/
def Answers {α : Type} (past : List Change) : Call α → α → Prop
  | create text root, r =>
    r.text = text ∧ r.root = root ∧ 1 ≤ r.id ∧ ∀ r' ∈ created past, r'.id < r.id
  | delete id, a =>
    a = if (live past).any (·.id == id) then .ok () else .error (.notFound id)
  | contains id, b => b = (live past).any (·.id == id)
  | toList, rules => rules = live past
  | size, n => n = (live past).length
  | isEmpty, b => b = (live past).isEmpty

section

variable {α : Type} {past : List Change} {s : Store}

theorem contains_eq_any (h : Tally past s) (id : Int64) :
    s.contains id = (live past).any (·.id == id) := by
  rw [Store.contains, h.rules]

/-- A call makes its changes and no others. -/
theorem run_becomes (c : Call α) (s : Store) :
    s.Becomes (c.changes (c.run s).1) (c.run s).2 := by
  cases c with
  | create text root => exact .create text root
  | delete id =>
      rw [run]
      cases hdelete : s.delete id with
      | ok s' => exact .delete hdelete
      | error e => exact .same
  | contains _ | toList | size | isEmpty => exact .same

theorem run_answers (h : Reached past s) (c : Call α)
    (hfew : (created (past ++ c.changes (c.run s).1)).length < 2 ^ 63) :
    c.Answers past (c.run s).1 := by
  rw [created_append, List.length_append] at hfew
  have htally : Tally past s := h.tally (by omega)
  cases c with
  | create text root =>
      have hnew : (created ((create text root).changes ((create text root).run s).1)).length = 1 :=
        rfl
      rw [hnew] at hfew
      exact ⟨rfl, rfl, htally.issued.one_le_next hfew, htally.issued.lt_next hfew⟩
  | delete id =>
      show (run (delete id) s).1 = _
      rw [← contains_eq_any htally]
      cases hid : s.contains id <;> simp [run, Store.delete, hid]
  | contains id => exact contains_eq_any htally id
  | toList => exact htally.rules
  | size => exact congrArg List.length htally.rules
  | isEmpty => exact congrArg List.isEmpty htally.rules

end

end Store.Call

/-! ## Handles -/

/-- What stores refer to: lists of rules and counters, each at its place. -/
structure Memory where
  rules : Nat → List Rule
  counters : Nat → Int64

/-- A store as a client holds it: where its rules are and where its counter is. -/
structure Handle where
  rules : Nat
  counter : Nat

namespace Handle

def view (h : Handle) (m : Memory) : Store :=
  ⟨m.rules h.rules, m.counters h.counter⟩

def save (h : Handle) (s : Store) (m : Memory) : Memory :=
  ⟨Function.update m.rules h.rules s.rules, Function.update m.counters h.counter s.nextId⟩

/-- Another handle on the same store: its references are copied. -/
def clone (h : Handle) : Handle :=
  ⟨h.rules, h.counter⟩

def call {α : Type} (h : Handle) (c : Store.Call α) (m : Memory) : α × Memory :=
  let (a, s) := c.run (h.view m)
  (a, h.save s m)

/-- A handle or a clone of it, or of a clone, and so on. -/
inductive Clones (origin : Handle) : Handle → Prop where
  | origin : Clones origin origin
  | clone {h : Handle} : Clones origin h → Clones origin h.clone

theorem Clones.eq {origin h : Handle} (hclone : Clones origin h) : h = origin := by
  induction hclone with
  | origin => rfl
  | clone _ ih =>
      subst ih
      rfl

@[simp] theorem view_save (h : Handle) (s : Store) (m : Memory) : h.view (h.save s m) = s := by
  simp [view, save]

theorem view_call {α : Type} (h : Handle) (c : Store.Call α) (m : Memory) :
    h.view (h.call c m).2 = (c.run (h.view m)).2 :=
  view_save h _ m

end Handle

/-- A call through a handle. -/
inductive Use where
  | through {α : Type} (h : Handle) (c : Store.Call α)

namespace Use

def handle : Use → Handle
  | through h _ => h

/-- What has changed by a call, and the memory after it. -/
def run : Use → Memory → List Change × Memory
  | through h c, m =>
    let (a, m) := h.call c m
    (c.changes a, m)

/-- What has changed by some calls, and the memory after them. -/
def runAll : List Use → Memory → List Change × Memory
  | [], m => ([], m)
  | u :: rest, m =>
    let (first, m) := u.run m
    let (more, m) := runAll rest m
    (first ++ more, m)

theorem run_becomes {origin : Handle} {u : Use} (hclone : origin.Clones u.handle) (m : Memory) :
    (origin.view m).Becomes (u.run m).1 (origin.view (u.run m).2) := by
  cases u with
  | through h c =>
      obtain rfl : h = origin := hclone.eq
      have hcall := c.run_becomes (h.view m)
      rw [← Handle.view_call] at hcall
      exact hcall

theorem runAll_reached {origin : Handle} {uses : List Use}
    (hclones : ∀ u ∈ uses, origin.Clones u.handle) {past : List Change} {m : Memory}
    (h : Store.Reached past (origin.view m)) :
    Store.Reached (past ++ (runAll uses m).1) (origin.view (runAll uses m).2) := by
  induction uses generalizing past m with
  | nil =>
      rw [runAll, List.append_nil]
      exact h
  | cons u rest ih =>
      obtain ⟨hu, hrest⟩ := List.forall_mem_cons.1 hclones
      have hrun := ih hrest (h.step (run_becomes hu m))
      rw [List.append_assoc] at hrun
      exact hrun

end Use

/-- After any calls through a store and its clones, each further call through any
of them is answered as the changes so far demand: a new rule has the text and
the tree that were given and a number above all that were ever handed out, the
list holds the live rules in ascending order, and the other answers agree with
it. What a call has changed, by its answer, is all that it changes; a call that
has changed nothing leaves the counter alone too. -/
theorem clones_answer_from_history {origin h : Handle} {uses : List Use} {m m₁ m₂ : Memory}
    {past : List Change} {α : Type} {c : Store.Call α} {a : α}
    (hclones : ∀ u ∈ uses, origin.Clones u.handle) (hclone : origin.Clones h)
    (hrun : Use.runAll uses (origin.save .empty m) = (past, m₁)) (hcall : h.call c m₁ = (a, m₂))
    (hfew : (created (past ++ c.changes a)).length < 2 ^ 63) :
    c.Answers past a ∧
    (live past).Pairwise (·.id < ·.id) ∧
    (h.view m₂).toList = live (past ++ c.changes a) ∧
    (c.changes a = [] → h.view m₂ = h.view m₁) := by
  obtain rfl := hclone.eq
  have hempty : Store.Reached [] (h.view (h.save .empty m)) := by
    rw [Handle.view_save]
    exact .empty
  have hreached := Use.runAll_reached hclones hempty
  rw [hrun, List.nil_append] at hreached
  obtain ⟨rfl, rfl⟩ : a = (c.run (h.view m₁)).1 ∧ m₂ = h.save (c.run (h.view m₁)).2 m₁ :=
    ⟨congrArg Prod.fst hcall.symm, congrArg Prod.snd hcall.symm⟩
  have hnew := c.run_becomes (h.view m₁)
  have hpast := Nat.lt_of_le_of_lt (length_created_le past _) hfew
  refine ⟨c.run_answers hreached hfew, ?_, ?_, ?_⟩
  · rw [← (hreached.tally hpast).rules]
    exact hreached.ascending
  · rw [Handle.view_save]
    exact ((hreached.step hnew).tally hfew).rules
  · intro hnone
    rw [hnone] at hnew
    rw [Handle.view_save]
    exact hnew.eq_of_nil

/-- A rule is created through a store and deleted through a clone of it; the rule
that is then created through a clone of that clone gets the next number. -/
theorem clones_answer_from_history_next_number :
    let origin : Handle := ⟨0, 0⟩
    let uses := [Use.through origin (.create "a > 1" .empty),
      .through origin.clone (.create "b > 1" .empty), .through origin.clone (.delete 2),
      .through origin (.delete 7)]
    let m₁ := (Use.runAll uses (origin.save .empty ⟨fun _ => [], fun _ => 0⟩)).2
    ∃ r, (origin.clone.clone.call (.create "c > 1" .empty) m₁).1 = r ∧ (2 : Int64) < r.id ∧
      (origin.view (origin.clone.clone.call (.create "c > 1" .empty) m₁).2).toList =
        [⟨1, "a > 1", .empty⟩, ⟨3, "c > 1", .empty⟩] := by
  intro origin uses m₁
  have hclones : ∀ u ∈ uses, origin.Clones u.handle := by
    simp only [uses, List.forall_mem_cons]
    exact ⟨.origin, .clone .origin, .clone .origin, .origin, fun u hu => by cases hu⟩
  have hrun : Use.runAll uses (origin.save .empty ⟨fun _ => [], fun _ => 0⟩) =
      ([.created ⟨1, "a > 1", .empty⟩, .created ⟨2, "b > 1", .empty⟩, .deleted 2], m₁) :=
    Prod.ext (by decide +kernel) rfl
  obtain ⟨⟨-, -, -, hlast⟩, -, hlist, -⟩ := clones_answer_from_history hclones
    (.clone (.clone .origin)) hrun (c := .create "c > 1" .empty) rfl (by decide +kernel)
  exact ⟨_, rfl, hlast ⟨2, "b > 1", .empty⟩ (by decide), hlist.trans (by decide +kernel)⟩

end Criteria
