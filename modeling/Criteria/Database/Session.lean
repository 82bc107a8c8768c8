import Criteria.Database.Statement
import Criteria.Failure

/-!
Sessions with the database. Any statement may be refused, and a transaction that is not committed leaves
the tables as they were, though not the sequences.
-/

namespace Criteria.Database

/-- The database and the texts of the statements run so far, the latest first. -/
structure Session where
  store : Store
  executed : List String
  deriving Repr

/-- Which statements are refused and how, given the texts of those before and the statement's own. -/
abbrev Refusals := List String → String → Option DatabaseError

namespace Session

def execute {α : Type} (refusals : Refusals) (st : Statement α) (s : Session) :
    Except DatabaseError α × Session :=
  match refusals s.executed st.text with
  | some e => (.error e, { s with executed := st.text :: s.executed })
  | none =>
    let (result, store) := st.run s.store
    (result, ⟨store, st.text :: s.executed⟩)

def query {α : Type} (refusals : Refusals) (st : Statement α) : Action Session α := fun s =>
  match s.execute refusals st with
  | (.ok a, s) => (.ok a, s)
  | (.error e, s) => (.error (.database e), s)

/-- The session with the tables of an earlier one. -/
def rollback (s : Session) (tables : Tables) : Session :=
  { s with store := { s.store with tables := tables } }

/-- Runs an operation as a transaction. It is committed if the operation succeeds with a result that
asks for it, and rolled back otherwise. -/
def transaction {α : Type} (refusals : Refusals) (commits : α → Bool) (body : Action Session α) :
    Action Session α := fun s =>
  let before := s.store.tables
  match query refusals .begin s with
  | (.error f, s) => (.error f, s)
  | (.ok (), s) =>
    match body s with
    | (.error f, s) => (.error f, s.rollback before)
    | (.ok a, s) =>
      if commits a then
        match query refusals .commit s with
        | (.error f, s) => (.error f, s.rollback before)
        | (.ok (), s) => (.ok a, s)
      else (.ok a, s.rollback before)

end Session

end Criteria.Database
