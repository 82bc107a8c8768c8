import Criteria.Database.Session

/-!
# Statements, one after another

An operation of the repository is a statement, then another one if the first
was not refused, and so on, perhaps in a transaction. So there is one lemma to
take such an operation apart (`andThen_ok`) and one for what it cannot do
wherever it stops. It never sets a sequence back, and when it fails the
database is to blame: that is `Orderly`, which a statement is and which
sequences and transactions inherit.

The tables are another matter. An operation that fails half-way leaves half of
its work behind; it is the transaction around it that takes the work back
(`transaction_error`).
-/

namespace Criteria.Database

open Session

structure Store.Later (s s' : Store) : Prop where
  rule : s.lastRule ≤ s'.lastRule
  node : s.lastNode ≤ s'.lastNode

theorem Store.Later.refl (s : Store) : s.Later s :=
  ⟨Int64.le_refl _, Int64.le_refl _⟩

theorem Store.Later.trans {s s' s'' : Store} (h : s.Later s') (h' : s'.Later s'') :
    s.Later s'' :=
  ⟨Int64.le_trans h.rule h'.rule, Int64.le_trans h.node h'.node⟩

theorem next?_eq_some {a b : Int64} (h : next? a = some b) :
    a < b ∧ b.toInt = a.toInt + 1 := by
  unfold next? at h
  split at h
  · cases h
  · next hne =>
      cases h
      have hlt := a.toInt_lt
      have hle := a.le_toInt
      have hmax : a.toInt ≠ 2 ^ 63 - 1 := fun h =>
        hne (Int64.toInt_inj.1 (h.trans Int64.toInt_maxValue.symm))
      have hadd : (a + 1).toInt = a.toInt + 1 := by
        rw [Int64.toInt_add, show (1 : Int64).toInt = 1 from rfl, Int.bmod_eq_of_le] <;>
          omega
      exact ⟨Int64.lt_iff_toInt_lt.2 (by omega), hadd⟩

theorem next?_isSome {a : Int64} (h : a.toInt < Int64.maxValue.toInt) :
    ∃ b, next? a = some b :=
  ⟨a + 1, if_neg fun hmax => by simp [hmax] at h⟩

/-! ## One statement -/

theorem Store.insertNode_ok {s s' : Store} {row : Int64 → NodeRow} {id : Int64}
    (h : s.insertNode row = (.ok id, s')) :
    next? s.lastNode = some id ∧
      s' = { s with
        lastNode := id
        tables := { s.tables with nodes := s.tables.nodes ++ [row id] } } := by
  unfold Store.insertNode at h
  split at h
  · cases h
  · next hid => cases h; exact ⟨hid, rfl⟩

theorem Store.insertRule_ok {s s' : Store} {text : String} {root : Option Int64} {id : Int64}
    (h : s.insertRule text root = (.ok id, s')) :
    next? s.lastRule = some id ∧
      s' = { s with
        lastRule := id
        tables := { s.tables with rules := s.tables.rules ++ [⟨id, text, root⟩] } } := by
  unfold Store.insertRule at h
  split at h
  · cases h
  · next hid => cases h; exact ⟨hid, rfl⟩

theorem run_later {α : Type} (st : Statement α) (s : Store) : s.Later (st.run s).2 := by
  cases st
  case insertCondition c parent | insertConnective c parent =>
    simp only [Statement.run, Store.insertNode]
    split
    · exact .refl s
    · next hid => exact ⟨Int64.le_refl _, Int64.le_of_lt (next?_eq_some hid).1⟩
  case insertRule text root =>
    simp only [Statement.run, Store.insertRule]
    split
    · exact .refl s
    · next hid => exact ⟨Int64.le_of_lt (next?_eq_some hid).1, Int64.le_refl _⟩
  all_goals exact ⟨Int64.le_refl _, Int64.le_refl _⟩

theorem run_error {α : Type} {st : Statement α} {s s' : Store} {e : DatabaseError}
    (h : st.run s = (.error e, s')) : s' = s := by
  cases st
  case insertCondition c parent | insertConnective c parent =>
    simp only [Statement.run, Store.insertNode] at h
    split at h <;> cases h
    rfl
  case insertRule text root =>
    simp only [Statement.run, Store.insertRule] at h
    split at h <;> cases h
    rfl
  all_goals cases h

variable {refusals : Refusals} {s s' : Session} {α β : Type}

theorem query_ok {st : Statement α} {a : α} (h : query refusals st s = (.ok a, s')) :
    st.run s.store = (.ok a, s'.store) := by
  rcases hrun : st.run s.store with ⟨res, store⟩
  cases hrefused : refusals s.executed st.text with
  | some e =>
      simp only [query, execute, hrefused] at h
      cases h
  | none =>
      simp only [query, execute, hrefused, hrun] at h
      cases res with
      | ok a => cases h; rfl
      | error e => cases h

theorem query_error {st : Statement α} {f : Failure}
    (h : query refusals st s = (.error f, s')) :
    (∃ e, f = .database e) ∧ s'.store = s.store := by
  rcases hrun : st.run s.store with ⟨res, store⟩
  cases hrefused : refusals s.executed st.text with
  | some e =>
      simp only [query, execute, hrefused] at h
      cases h
      exact ⟨⟨e, rfl⟩, rfl⟩
  | none =>
      simp only [query, execute, hrefused, hrun] at h
      cases res with
      | ok a => cases h
      | error e => cases h; exact ⟨⟨e, rfl⟩, run_error hrun⟩

theorem query_later {st : Statement α} {res : Except Failure α}
    (h : query refusals st s = (res, s')) : s.store.Later s'.store := by
  cases res with
  | ok a =>
      have := run_later st s.store
      rwa [query_ok h] at this
  | error f => rw [(query_error h).2]; exact .refl _

theorem query_same {st : Statement α} {a : α} (hsame : (st.run s.store).2 = s.store)
    (h : query refusals st s = (.ok a, s')) : s'.store = s.store := by
  rw [query_ok h] at hsame
  exact hsame

theorem query_unrefused (hnone : ∀ earlier text, refusals earlier text = none)
    {st : Statement α} {a : α} (h : (st.run s.store).1 = .ok a) :
    ∃ s', query refusals st s = (.ok a, s') ∧ s'.store = (st.run s.store).2 := by
  simp only [query, execute, hnone, h]
  exact ⟨_, rfl, rfl⟩

/-! ## One action after another -/

def andThen (act : Action Session α) (next : α → Action Session β) : Action Session β := fun s =>
  match act s with
  | (.error f, s) => (.error f, s)
  | (.ok a, s) => next a s

section Sequence

variable {act : Action Session α} {next : α → Action Session β}

theorem andThen_cases {res : Except Failure β} (h : andThen act next s = (res, s')) :
    (∃ f, act s = (.error f, s') ∧ res = .error f) ∨
      ∃ a s₁, act s = (.ok a, s₁) ∧ next a s₁ = (res, s') := by
  rw [andThen] at h
  split at h
  · next f _ hact => cases h; exact Or.inl ⟨f, hact, rfl⟩
  · next a s₁ hact => exact Or.inr ⟨a, s₁, hact, h⟩

theorem andThen_ok {b : β} (h : andThen act next s = (.ok b, s')) :
    ∃ a s₁, act s = (.ok a, s₁) ∧ next a s₁ = (.ok b, s') := by
  rcases andThen_cases h with ⟨f, -, hres⟩ | h
  · cases hres
  · exact h

theorem andThen_eq {a : α} {s₁ : Session} (h : act s = (.ok a, s₁)) :
    andThen act next s = next a s₁ := by
  rw [andThen, h]

/-- An action that sets no sequence back and fails only when the database does. -/
structure Orderly (act : Action Session α) : Prop where
  later : ∀ {s s' : Session} {res : Except Failure α}, act s = (res, s') → s.store.Later s'.store
  error : ∀ {s s' : Session} {f : Failure}, act s = (.error f, s') → ∃ e, f = .database e

theorem Orderly.query (refusals : Refusals) (st : Statement α) :
    Orderly (query refusals st) :=
  ⟨query_later, fun h => (query_error h).1⟩

theorem Orderly.answer (a : α) : Orderly fun s => (.ok a, s) :=
  ⟨fun h => by cases h; exact .refl _, fun h => by cases h⟩

theorem Orderly.andThen (h : Orderly act) (hnext : ∀ a, Orderly (next a)) :
    Orderly (andThen act next) := by
  refine ⟨fun {s s' res} hres => ?_, fun {s s' f} hres => ?_⟩
  · rcases andThen_cases hres with ⟨f, hact, -⟩ | ⟨a, s₁, hact, hres⟩
    · exact h.later hact
    · exact (h.later hact).trans ((hnext a).later hres)
  · rcases andThen_cases hres with ⟨f', hact, hf⟩ | ⟨a, s₁, -, hres⟩
    · cases hf
      exact h.error hact
    · exact (hnext a).error hres

end Sequence

/-! ## Transactions -/

inductive Transacts (refusals : Refusals) (commits : α → Bool) (body : Action Session α)
    (s : Session) : Except Failure α → Session → Prop where
  | unbegun {f : Failure} {s' : Session} (hbegin : query refusals .begin s = (.error f, s')) :
      Transacts refusals commits body s (.error f) s'
  | failed {f : Failure} {s₁ s₂ : Session} (hbegin : query refusals .begin s = (.ok (), s₁))
      (hbody : body s₁ = (.error f, s₂)) :
      Transacts refusals commits body s (.error f) (s₂.rollback s.store.tables)
  | dropped {a : α} {s₁ s₂ : Session} (hbegin : query refusals .begin s = (.ok (), s₁))
      (hbody : body s₁ = (.ok a, s₂)) (hno : commits a = false) :
      Transacts refusals commits body s (.ok a) (s₂.rollback s.store.tables)
  | lost {a : α} {f : Failure} {s₁ s₂ s₃ : Session}
      (hbegin : query refusals .begin s = (.ok (), s₁)) (hbody : body s₁ = (.ok a, s₂))
      (hcommit : query refusals .commit s₂ = (.error f, s₃)) :
      Transacts refusals commits body s (.error f) (s₃.rollback s.store.tables)
  | kept {a : α} {s₁ s₂ s' : Session} (hbegin : query refusals .begin s = (.ok (), s₁))
      (hbody : body s₁ = (.ok a, s₂)) (hyes : commits a = true)
      (hcommit : query refusals .commit s₂ = (.ok (), s')) :
      Transacts refusals commits body s (.ok a) s'

section Transaction

variable {commits : α → Bool} {body : Action Session α}

theorem transacts {res : Except Failure α} (h : transaction refusals commits body s = (res, s')) :
    Transacts refusals commits body s res s' := by
  rw [transaction] at h
  split at h
  · next hbegin => cases h; exact .unbegun hbegin
  · next hbegin =>
      split at h
      · next hbody => cases h; exact .failed hbegin hbody
      · next hbody =>
          split at h
          · next hyes =>
              split at h
              · next hcommit => cases h; exact .lost hbegin hbody hcommit
              · next hcommit => cases h; exact .kept hbegin hbody hyes hcommit
          · next hno => cases h; exact .dropped hbegin hbody (Bool.not_eq_true _ ▸ hno)

theorem rollback_later (s : Session) (tables : Tables) :
    s.store.Later (s.rollback tables).store :=
  ⟨Int64.le_refl _, Int64.le_refl _⟩

theorem Orderly.transaction (h : Orderly body) :
    Orderly (transaction refusals commits body) := by
  refine ⟨fun {s s' res} hres => ?_, fun {s s' f} hres => ?_⟩
  · cases transacts hres with
    | unbegun hbegin => exact query_later hbegin
    | failed hbegin hbody | dropped hbegin hbody _ =>
        exact (query_later hbegin).trans ((h.later hbody).trans (rollback_later _ _))
    | lost hbegin hbody hcommit =>
        exact (query_later hbegin).trans
          ((h.later hbody).trans ((query_later hcommit).trans (rollback_later _ _)))
    | kept hbegin hbody _ hcommit =>
        exact (query_later hbegin).trans ((h.later hbody).trans (query_later hcommit))
  · cases transacts hres with
    | unbegun hbegin => exact (query_error hbegin).1
    | failed _ hbody => exact h.error hbody
    | lost _ _ hcommit => exact (query_error hcommit).1

/-- A transaction that succeeds has run its body, and has kept what the body
did or only the numbers that it used. -/
theorem transaction_ok {a : α} (h : transaction refusals commits body s = (.ok a, s')) :
    ∃ s₁ s₂, s₁.store = s.store ∧ body s₁ = (.ok a, s₂) ∧
      s'.store = if commits a then s₂.store else { s₂.store with tables := s.store.tables } := by
  cases transacts h with
  | dropped hbegin hbody hno =>
      exact ⟨_, _, query_same rfl hbegin, hbody, by rw [hno]; rfl⟩
  | kept hbegin hbody hyes hcommit =>
      exact ⟨_, _, query_same rfl hbegin, hbody, by rw [hyes, query_same rfl hcommit]; rfl⟩

theorem transaction_error {f : Failure}
    (h : transaction refusals commits body s = (.error f, s')) :
    s'.store.tables = s.store.tables := by
  cases transacts h with
  | unbegun hbegin => rw [(query_error hbegin).2]
  | failed _ _ => rfl
  | lost _ _ _ => rfl

theorem transaction_unrefused (hnone : ∀ earlier text, refusals earlier text = none)
    (hbody : ∀ s₁ : Session, s₁.store = s.store → ∃ a s₂, body s₁ = (.ok a, s₂)) :
    ∃ a s', transaction refusals commits body s = (.ok a, s') := by
  obtain ⟨s₁, hbegin, hs₁⟩ := query_unrefused hnone
    (show (Statement.begin.run s.store).1 = .ok () from rfl)
  obtain ⟨a, s₂, hres⟩ := hbody s₁ hs₁
  obtain ⟨s₃, hcommit, -⟩ := query_unrefused hnone
    (show (Statement.commit.run s₂.store).1 = .ok () from rfl)
  rw [transaction, hbegin]
  simp only [hres]
  split
  · rw [hcommit]
    exact ⟨a, s₃, rfl⟩
  · exact ⟨a, _, rfl⟩

end Transaction

end Criteria.Database
