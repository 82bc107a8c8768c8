import Criteria.Proofs.Chronicle
import Mathlib.Logic.Function.Basic

/-!
# Clients that come between each other

Creating a rule is two atomic steps, taking a number and putting the rule in
its place, and between the two anybody may do anything: take a number and be
quicker, list the rules, or delete the very number whose rule is not there yet.
All other calls are one step. Which call a client makes next is left open, as
is which client moves, so a run (`Concurrent.Runs`) is any interleaving of any
programs of any number of clients.

What holds of every run is said in `Concurrent.Lossless`. The induction is over
the steps and carries `Concurrent.Sound`, which covers the creates that are
half done: a rule on its way has a number that nobody else has and that is in
the store under no rule, so that putting it there replaces nothing.
-/

namespace Criteria

/-- A store with its clients: what it holds, and for each client the rule that
it has taken a number for and has not put into the store yet. -/
structure Concurrent where
  store : Store
  pending : Nat → Option Rule

namespace Concurrent

inductive Deed where
  /-- A create has taken the number of its rule. -/
  | began (r : Rule)
  /-- A create has put its rule into the store and returns it. -/
  | returned (r : Rule)
  | deleted (id : Int64)
  /-- A delete has found no rule of its number. -/
  | missed (id : Int64)
  | looked (id : Int64) (there : Bool)
  | listed (rules : List Rule)

/-- One atomic step, as the client that took it knows of it. -/
structure Event where
  client : Nat
  deed : Deed

def Event.changes (e : Event) : List Change :=
  match e.deed with
  | .returned r => [.created r]
  | .deleted id => [.deleted id]
  | _ => []

def Event.begun? (e : Event) : Option Rule :=
  match e.deed with
  | .began r => some r
  | _ => none

def changes (past : List Event) : List Change :=
  past.flatMap Event.changes

/-- The rules that numbers were taken for. -/
def begun (past : List Event) : List Rule :=
  past.filterMap Event.begun?

/-- The steps of a client; while a rule of it is on its way it makes no other
call. -/
inductive Step : Concurrent → Event → Concurrent → Prop where
  | reserve {y : Concurrent} {c : Nat} (text : String) (root : Tree) : y.pending c = none →
      Step y ⟨c, .began ⟨y.store.reserve.1, text, root⟩⟩
        ⟨y.store.reserve.2, Function.update y.pending c (some ⟨y.store.reserve.1, text, root⟩)⟩
  | put {y : Concurrent} {c : Nat} {r : Rule} : y.pending c = some r →
      Step y ⟨c, .returned r⟩ ⟨y.store.put r, Function.update y.pending c none⟩
  | delete {y : Concurrent} {c : Nat} {id : Int64} {s : Store} : y.pending c = none →
      y.store.delete id = .ok s → Step y ⟨c, .deleted id⟩ ⟨s, y.pending⟩
  | miss {y : Concurrent} {c : Nat} {id : Int64} {e : RuleError} : y.pending c = none →
      y.store.delete id = .error e → Step y ⟨c, .missed id⟩ y
  | look {y : Concurrent} {c : Nat} (id : Int64) : y.pending c = none →
      Step y ⟨c, .looked id (y.store.contains id)⟩ y
  | list {y : Concurrent} {c : Nat} : y.pending c = none →
      Step y ⟨c, .listed y.store.toList⟩ y

inductive Runs : Concurrent → List Event → Concurrent → Prop where
  | refl {y : Concurrent} : Runs y [] y
  | step {y y' z : Concurrent} {e : Event} {rest : List Event} :
      Step y e y' → Runs y' rest z → Runs y (e :: rest) z

/-- An empty store that nobody has called yet. -/
def idle : Concurrent :=
  ⟨.empty, fun _ => none⟩

theorem Runs.split {y z : Concurrent} {before after : List Event}
    (h : Runs y (before ++ after) z) : ∃ w, Runs y before w ∧ Runs w after z := by
  induction before generalizing y with
  | nil => exact ⟨y, .refl, h⟩
  | cons e before ih =>
      cases h with
      | step hstep hrest =>
          obtain ⟨w, hw, hz⟩ := ih hrest
          exact ⟨w, .step hstep hw, hz⟩

/-- Each event of a run is a step from a state that the events before it lead
to. -/
theorem Runs.step_of {y z : Concurrent} {before after : List Event} {e : Event}
    (h : Runs y (before ++ e :: after) z) : ∃ w w', Runs y before w ∧ Step w e w' := by
  obtain ⟨w, hw, hafter⟩ := h.split
  cases hafter with
  | step hstep _ => exact ⟨w, _, hw, hstep⟩

section Events

variable {past : List Event}

theorem changes_append (more : List Event) : changes (past ++ more) = changes past ++ changes more :=
  List.flatMap_append

theorem begun_append (more : List Event) : begun (past ++ more) = begun past ++ begun more :=
  List.filterMap_append

theorem length_begun_le (more : List Event) :
    (begun past).length ≤ (begun (past ++ more)).length := by
  rw [begun_append, List.length_append]
  omega

theorem mem_created_changes {c : Nat} {r : Rule} (h : ⟨c, .returned r⟩ ∈ past) :
    r ∈ created (changes past) := by
  rw [mem_created, changes, List.mem_flatMap]
  exact ⟨_, h, List.mem_singleton_self _⟩

theorem mem_begun {c : Nat} {r : Rule} (h : ⟨c, .began r⟩ ∈ past) : r ∈ begun past := by
  rw [begun, List.mem_filterMap]
  exact ⟨_, h, rfl⟩

end Events

section Updates

variable {f : Nat → Option Rule} {c c' : Nat} {r r' : Rule}

theorem update_some (h : Function.update f c (some r) c' = some r') :
    c' = c ∧ r' = r ∨ c' ≠ c ∧ f c' = some r' := by
  rw [Function.update_apply] at h
  split at h
  · next heq => exact Or.inl ⟨heq, (Option.some.inj h).symm⟩
  · next hne => exact Or.inr ⟨hne, h⟩

theorem update_none (h : Function.update f c none c' = some r') : c' ≠ c ∧ f c' = some r' := by
  rw [Function.update_apply] at h
  split at h
  · cases h
  · next hne => exact ⟨hne, h⟩

end Updates

/-! ## What every step keeps -/

/-- What a store and the rules on their way have to do with the rules that
numbers were taken for, in this order, and with the changes: a rule on its way
has a number of its own, and the store holds the live rules in order. -/
structure Sound (taken : List Rule) (past : List Change) (y : Concurrent) : Prop where
  issued : Store.Issued taken y.store.nextId
  pending : ∀ c r, y.pending c = some r →
    r ∈ taken ∧ ∀ x ∈ created past, x.id ≠ r.id
  apart : ∀ c c' r r', y.pending c = some r → y.pending c' = some r' → r.id = r'.id → c = c'
  taken : ∀ r ∈ created past, r ∈ taken
  nodup_created : ((created past).map (·.id)).Nodup
  deleted : ∀ id ∈ deleted past, ∃ r ∈ created past, r.id = id
  nodup_deleted : (Criteria.deleted past).Nodup
  rules : ∀ r, r ∈ y.store.rules ↔ r ∈ live past
  ascending : y.store.rules.Pairwise (·.id < ·.id)

namespace Sound

variable {taken : List Rule} {past : List Change} {y : Concurrent} {c : Nat}

theorem idle : Sound [] [] idle where
  issued := .nil
  pending c r h := by cases h
  apart c c' r r' h := by cases h
  taken r h := by cases h
  nodup_created := .nil
  deleted id h := by cases h
  nodup_deleted := .nil
  rules r := Iff.rfl
  ascending := .nil

/-- The place of a rule on its way is free. -/
theorem free (h : Sound taken past y) {r : Rule} (hp : y.pending c = some r) :
    ∀ x ∈ y.store.rules, x.id ≠ r.id := by
  intro x hx
  rw [h.rules, mem_live] at hx
  exact (h.pending c r hp).2 x hx.1

/-- The number that is taken is above all others, so nobody else has it. -/
theorem reserve (h : Sound taken past y) (hfew : taken.length + 1 < 2 ^ 63) (c : Nat)
    (text : String) (root : Tree) :
    Sound (taken ++ [⟨y.store.reserve.1, text, root⟩]) past
      ⟨y.store.reserve.2,
        Function.update y.pending c (some ⟨y.store.reserve.1, text, root⟩)⟩ := by
  have hnew : ∀ r ∈ taken, r.id ≠ y.store.nextId := by
    intro r hr
    exact Int64.ne_of_lt (h.issued.lt_next hfew r hr)
  refine ⟨h.issued.append rfl, ?_, ?_, ?_, h.nodup_created, h.deleted, h.nodup_deleted, h.rules,
    h.ascending⟩
  · intro c' r hp
    rcases update_some hp with ⟨-, rfl⟩ | ⟨-, hp⟩
    · exact ⟨by simp, fun x hx => hnew x (h.taken x hx)⟩
    · obtain ⟨hr, hfree⟩ := h.pending c' r hp
      exact ⟨List.mem_append_left _ hr, hfree⟩
  · intro c₁ c₂ r₁ r₂ hp₁ hp₂ hid
    rcases update_some hp₁ with ⟨rfl, rfl⟩ | ⟨-, hq₁⟩ <;>
      rcases update_some hp₂ with ⟨rfl, rfl⟩ | ⟨-, hq₂⟩
    · rfl
    · exact absurd hid.symm (hnew r₂ (h.pending c₂ r₂ hq₂).1)
    · exact absurd hid (hnew r₁ (h.pending c₁ r₁ hq₁).1)
    · exact h.apart c₁ c₂ r₁ r₂ hq₁ hq₂ hid
  · intro r hr
    exact List.mem_append_left _ (h.taken r hr)

theorem put (h : Sound taken past y) {r : Rule} (hp : y.pending c = some r) :
    Sound taken (past ++ [.created r]) ⟨y.store.put r, Function.update y.pending c none⟩ := by
  obtain ⟨hr, hfree⟩ := h.pending c r hp
  have hnot : r.id ∉ Criteria.deleted past := by
    intro hmem
    obtain ⟨x, hx, hid⟩ := h.deleted r.id hmem
    exact hfree x hx hid
  have hplace : ∀ x, x ∈ Store.place r y.store.rules ↔ x ∈ r :: y.store.rules :=
    fun x => (Store.place_perm (h.free hp)).mem_iff
  refine ⟨h.issued, ?_, ?_, ?_, ?_, ?_, ?_, ?_, Store.pairwise_place r h.ascending⟩
  · intro c' r' hp'
    obtain ⟨hne, hp'⟩ := update_none hp'
    obtain ⟨hr', hfree'⟩ := h.pending c' r' hp'
    refine ⟨hr', fun x hx => ?_⟩
    rw [created_concat_created] at hx
    rcases List.mem_append.1 hx with hx | hx
    · exact hfree' x hx
    · rw [List.mem_singleton.1 hx]
      exact fun hid => hne (h.apart c c' r r' hp hp' hid).symm
  · intro c₁ c₂ r₁ r₂ hp₁ hp₂
    exact h.apart c₁ c₂ r₁ r₂ (update_none hp₁).2 (update_none hp₂).2
  · intro x hx
    rw [created_concat_created] at hx
    rcases List.mem_append.1 hx with hx | hx
    · exact h.taken x hx
    · rw [List.mem_singleton.1 hx]
      exact hr
  · rw [created_concat_created, List.map_append, List.nodup_append]
    refine ⟨h.nodup_created, List.pairwise_singleton _ _, fun id hid id' hid' => ?_⟩
    obtain ⟨x, hx, rfl⟩ := List.mem_map.1 hid
    rw [List.map_singleton, List.mem_singleton] at hid'
    rw [hid']
    exact hfree x hx
  · intro id hid
    rw [deleted_concat_created] at hid
    obtain ⟨x, hx, hxid⟩ := h.deleted id hid
    rw [created_concat_created]
    exact ⟨x, List.mem_append_left _ hx, hxid⟩
  · rw [deleted_concat_created]
    exact h.nodup_deleted
  · intro x
    show x ∈ Store.place r y.store.rules ↔ _
    rw [hplace, List.mem_cons, h.rules, mem_live, mem_live, created_concat_created, deleted_concat_created, List.mem_append,
      List.mem_singleton]
    constructor
    · rintro (rfl | ⟨hx, hx'⟩)
      · exact ⟨Or.inr rfl, hnot⟩
      · exact ⟨Or.inl hx, hx'⟩
    · rintro ⟨hx | rfl, hx'⟩
      · exact Or.inr ⟨hx, hx'⟩
      · exact Or.inl rfl

theorem delete (h : Sound taken past y) {id : Int64} {s : Store}
    (hdelete : y.store.delete id = .ok s) :
    Sound taken (past ++ [.deleted id]) ⟨s, y.pending⟩ := by
  obtain ⟨⟨r, hr, hid⟩, rfl⟩ := Store.delete_eq_ok.1 hdelete
  rw [h.rules, mem_live, hid] at hr
  refine ⟨h.issued, ?_, h.apart, ?_, ?_, ?_, ?_, ?_, h.ascending.filter _⟩
  · rw [created_concat_deleted]
    exact h.pending
  · rw [created_concat_deleted]
    exact h.taken
  · rw [created_concat_deleted]
    exact h.nodup_created
  · intro id' hid'
    rw [deleted_concat_deleted] at hid'
    rw [created_concat_deleted]
    rcases List.mem_append.1 hid' with hid' | hid'
    · exact h.deleted id' hid'
    · exact ⟨r, hr.1, hid.trans (List.mem_singleton.1 hid').symm⟩
  · rw [deleted_concat_deleted, List.nodup_append]
    refine ⟨h.nodup_deleted, List.pairwise_singleton _ _, fun id₁ h₁ id₂ h₂ heq => ?_⟩
    rw [heq, List.mem_singleton.1 h₂] at h₁
    exact hr.2 h₁
  · intro x
    rw [live_deleted, List.mem_filter, List.mem_filter, h.rules]

theorem step {past : List Event} {y' : Concurrent} {e : Event}
    (h : Sound (begun past) (changes past) y) (hstep : Step y e y')
    (hfew : (begun (past ++ [e])).length < 2 ^ 63) :
    Sound (begun (past ++ [e])) (changes (past ++ [e])) y' := by
  rw [begun_append] at hfew ⊢
  rw [changes_append]
  -- What the last event adds to the numbers taken and to the changes is plain in each case.
  have hbegun : begun [e] = e.begun?.toList := by
    cases hb : e.begun? <;> simp [begun, hb]
  have hchanges : changes [e] = e.changes := List.flatMap_singleton _ _
  rw [hbegun] at hfew ⊢
  rw [hchanges]
  cases hstep with
  | @reserve c text root _ =>
      rw [List.length_append] at hfew
      have hnew := h.reserve hfew c text root
      rw [← List.append_nil (changes past)] at hnew
      exact hnew
  | put hp =>
      have hput := h.put hp
      rw [← List.append_nil (begun past)] at hput
      exact hput
  | delete _ hdelete =>
      have hgone := h.delete hdelete
      rw [← List.append_nil (begun past)] at hgone
      exact hgone
  | miss _ _ | look _ _ | list _ =>
      rw [← List.append_nil (begun past), ← List.append_nil (changes past)] at h
      exact h

theorem runs {past more : List Event} {z : Concurrent} (hrun : Runs y more z)
    (h : Sound (begun past) (changes past) y) (hfew : (begun (past ++ more)).length < 2 ^ 63) :
    Sound (begun (past ++ more)) (changes (past ++ more)) z := by
  induction hrun generalizing past with
  | refl =>
      rw [List.append_nil]
      exact h
  | @step _ _ _ e rest hstep _ ih =>
      have hcons : past ++ e :: rest = past ++ [e] ++ rest := by simp
      rw [hcons] at hfew ⊢
      exact ih (h.step hstep (Nat.lt_of_le_of_lt (length_begun_le rest) hfew)) hfew

end Sound

/-- A rule on its way is the one that its client took a number for in its last
step. -/
def Owned (past : List Event) (y : Concurrent) : Prop :=
  ∀ c r, y.pending c = some r → ∃ a b, past = a ++ ⟨c, .began r⟩ :: b ∧ ∀ e ∈ b, e.client ≠ c

namespace Owned

variable {past : List Event} {y : Concurrent}

/-- Nobody's rule is touched by the step of another client. -/
theorem of_other (h : Owned past y) {e : Event} {c : Nat} {r : Rule} (hp : y.pending c = some r)
    (hne : e.client ≠ c) :
    ∃ a b, past ++ [e] = a ++ ⟨c, .began r⟩ :: b ∧ ∀ e' ∈ b, e'.client ≠ c := by
  obtain ⟨a, b, rfl, hb⟩ := h c r hp
  refine ⟨a, b ++ [e], by simp, fun e' he' => ?_⟩
  rcases List.mem_append.1 he' with he' | he'
  · exact hb e' he'
  · rw [List.mem_singleton.1 he']
    exact hne

theorem step (h : Owned past y) {y' : Concurrent} {e : Event} (hstep : Step y e y') :
    Owned (past ++ [e]) y' := by
  intro c r hp
  have hidle : ∀ {c' : Nat}, y.pending c' = none → y.pending c = some r → c' ≠ c := by
    intro c' hnone hsome heq
    rw [heq, hsome] at hnone
    cases hnone
  cases hstep with
  | reserve text root _ =>
      rcases update_some hp with ⟨rfl, rfl⟩ | ⟨hne, hp⟩
      · exact ⟨past, [], rfl, fun e he => by cases he⟩
      · exact h.of_other hp (Ne.symm hne)
  | put _ =>
      obtain ⟨hne, hp⟩ := update_none hp
      exact h.of_other hp (Ne.symm hne)
  | delete hnone _ | miss hnone _ | look _ hnone | list hnone =>
      exact h.of_other hp (hidle hnone hp)

theorem runs {more : List Event} {z : Concurrent} (hrun : Runs y more z) (h : Owned past y) :
    Owned (past ++ more) z := by
  induction hrun generalizing past with
  | refl =>
      rw [List.append_nil]
      exact h
  | @step _ _ _ e rest hstep _ ih =>
      have hcons : past ++ e :: rest = past ++ [e] ++ rest := by simp
      rw [hcons]
      exact ih (h.step hstep)

end Owned

/-! ## What clients can rely on -/

/-- What holds at any moment of a run, `past` being what has happened by then
and `y` what came of it. -/
structure Lossless (past : List Event) (y : Concurrent) : Prop where
  /-- No two creates return the same number. -/
  ids_distinct : ((created (changes past)).map (·.id)).Nodup
  /-- Putting a rule into the store replaces none. -/
  put_free : ∀ c r y', Step y ⟨c, .returned r⟩ y' →
    (∀ x ∈ y.store.rules, x.id ≠ r.id) ∧ y'.store.rules.Perm (r :: y.store.rules)
  /-- No number is deleted twice. -/
  deleted_once : (deleted (changes past)).Nodup
  /-- The store holds the rules that were put into it and not deleted. -/
  holds : ∀ r, r ∈ y.store.rules ↔ r ∈ live (changes past)
  ascending : y.store.toList.Pairwise (·.id < ·.id)
  /-- A rule that is returned is the one that its own create began with. -/
  own : ∀ before after c r, past = before ++ ⟨c, .returned r⟩ :: after →
    ∃ a b, before = a ++ ⟨c, .began r⟩ :: b ∧ ∀ e ∈ b, e.client ≠ c
  /-- What was listed are the rules there were at the time, in order. -/
  listed : ∀ before after c rules, past = before ++ ⟨c, .listed rules⟩ :: after →
    rules.Pairwise (·.id < ·.id) ∧ ∀ r, r ∈ rules ↔ r ∈ live (changes before)
  /-- A create that has returned before another one began got the smaller
  number, so its rule comes first in every list with both. -/
  real_time : ∀ before between after c c' r r',
    past = before ++ ⟨c, .returned r⟩ :: (between ++ ⟨c', .began r'⟩ :: after) →
    r.id < r'.id ∧ ∀ c'' rules, ⟨c'', .listed rules⟩ ∈ past → r ∈ rules → r' ∈ rules →
      [r, r'].Sublist rules

namespace Runs

variable {past : List Event} {y : Concurrent}

theorem sound (hrun : Runs idle past y) (hfew : (begun past).length < 2 ^ 63) :
    Sound (begun past) (changes past) y := by
  have hidle : Sound (begun []) (changes []) idle := .idle
  exact hidle.runs hrun hfew

theorem own (hrun : Runs idle past y) {before after : List Event} {c : Nat} {r : Rule}
    (hpast : past = before ++ ⟨c, .returned r⟩ :: after) :
    ∃ a b, before = a ++ ⟨c, .began r⟩ :: b ∧ ∀ e ∈ b, e.client ≠ c := by
  rw [hpast] at hrun
  obtain ⟨w, w', hw, hstep⟩ := hrun.step_of
  have howned : Owned [] idle := fun c r hp => by cases hp
  cases hstep with
  | put hp => exact howned.runs hw c r hp

theorem listed (hrun : Runs idle past y) (hfew : (begun past).length < 2 ^ 63)
    {before after : List Event} {c : Nat} {rules : List Rule}
    (hpast : past = before ++ ⟨c, .listed rules⟩ :: after) :
    rules.Pairwise (·.id < ·.id) ∧ ∀ r, r ∈ rules ↔ r ∈ live (changes before) := by
  rw [hpast] at hrun hfew
  obtain ⟨w, w', hw, hstep⟩ := hrun.step_of
  have hbefore := hw.sound (Nat.lt_of_le_of_lt (length_begun_le _) hfew)
  cases hstep with
  | list _ => exact ⟨hbefore.ascending, hbefore.rules⟩

/-- What was returned had its number before whatever begins later. -/
theorem id_lt (hrun : Runs idle past y) (hfew : (begun past).length < 2 ^ 63)
    {before between after : List Event} {c c' : Nat} {r r' : Rule}
    (hpast : past = before ++ ⟨c, .returned r⟩ :: (between ++ ⟨c', .began r'⟩ :: after)) :
    r.id < r'.id := by
  have hsplit : past =
      (before ++ [⟨c, .returned r⟩]) ++ (between ++ ⟨c', .began r'⟩ :: after) := by
    rw [hpast]
    simp
  have hpairwise := (hrun.sound hfew).issued.pairwise hfew
  rw [hsplit, begun_append (between ++ _)] at hpairwise
  rw [hsplit] at hrun hfew
  obtain ⟨w, hw, -⟩ := hrun.split
  have hbefore := hw.sound (Nat.lt_of_le_of_lt (length_begun_le _) hfew)
  have hmem : (⟨c, .returned r⟩ : Event) ∈ before ++ [⟨c, .returned r⟩] := by simp
  have hmem' : (⟨c', .began r'⟩ : Event) ∈ between ++ ⟨c', .began r'⟩ :: after := by simp
  have hr := hbefore.taken r (mem_created_changes hmem)
  exact (List.pairwise_append.1 hpairwise).2.2 r hr r' (mem_begun hmem')

end Runs

/-- Whatever clients of one store call and however their steps interleave,
nothing is lost, at any moment, as long as there are numbers for the creates. -/
theorem interleaved_calls_lossless {past : List Event} {y : Concurrent}
    (hrun : Runs idle past y) (hfew : (begun past).length < 2 ^ 63) : Lossless past y := by
  have hsound := hrun.sound hfew
  refine ⟨hsound.nodup_created, fun c r y' hstep => ?_, hsound.nodup_deleted, hsound.rules,
    hsound.ascending, fun before after c r => hrun.own,
    fun before after c rules => hrun.listed hfew, ?_⟩
  · cases hstep with
    | put hp => exact ⟨hsound.free hp, Store.place_perm (hsound.free hp)⟩
  · intro before between after c c' r r' hpast
    have hlt := hrun.id_lt hfew hpast
    refine ⟨hlt, fun c'' rules hmem hr hr' => ?_⟩
    obtain ⟨a, b, hab⟩ := List.append_of_mem hmem
    exact Store.pair_sublist (hrun.listed hfew hab).1 hr hr' hlt

/-- Two clients create and the second one is quicker, while a third one deletes
the number of the first before its rule is there. The rule is there in the end,
in front of the other. -/
theorem interleaved_calls_lossless_half_done :
    let a : Rule := ⟨1, "a > 1", .empty⟩
    let b : Rule := ⟨2, "b > 1", .empty⟩
    let past : List Event := [⟨0, .began a⟩, ⟨1, .began b⟩, ⟨1, .returned b⟩, ⟨2, .missed 1⟩,
      ⟨0, .returned a⟩, ⟨2, .listed [a, b]⟩]
    ∃ y, Runs idle past y ∧ y.store.toList.Pairwise (·.id < ·.id) ∧
      ∀ r, r ∈ y.store.rules ↔ r = a ∨ r = b := by
  intro a b past
  have hrun : ∃ y, Runs idle past y := by
    have hmiss : Store.delete ⟨[b], 3⟩ 1 = .error (.notFound 1) := rfl
    exact ⟨_, .step (.reserve "a > 1" .empty rfl) (.step (.reserve "b > 1" .empty rfl)
      (.step (.put rfl) (.step (.miss rfl hmiss) (.step (.put rfl) (.step (.list rfl) .refl)))))⟩
  obtain ⟨y, hrun⟩ := hrun
  have hlossless := interleaved_calls_lossless hrun (by decide)
  have hlive : live (changes past) = [b, a] := by decide +kernel
  refine ⟨y, hrun, hlossless.ascending, fun r => ?_⟩
  rw [hlossless.holds, hlive, List.mem_cons, List.mem_singleton, or_comm]

end Concurrent

end Criteria
