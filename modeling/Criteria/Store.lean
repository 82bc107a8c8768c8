import Criteria.Rule.Basic
import Criteria.RuleError

/-!
The store of rules in memory. It numbers rules from one upwards and never hands out a number twice, also
after a rule is deleted, and lists them by number, which is the order in which they were created.
Creating a rule is two steps, taking a number and putting the rule in its place, because clients
that share a store may come between them.
-/

namespace Criteria

/-- Rules in ascending order of their numbers, and the number that comes next. -/
structure Store where
  rules : List Rule
  nextId : Int64
  deriving Repr

namespace Store

def empty : Store := ⟨[], 1⟩

/-- Puts a rule among rules in ascending order; it replaces one of the same number. -/
def place (r : Rule) : List Rule → List Rule
  | [] => [r]
  | x :: rest =>
    if r.id < x.id then r :: x :: rest
    else if r.id = x.id then r :: rest
    else x :: place r rest

def reserve (s : Store) : Int64 × Store :=
  (s.nextId, { s with nextId := s.nextId + 1 })

def put (s : Store) (r : Rule) : Store :=
  { s with rules := place r s.rules }

def create (s : Store) (text : String) (root : Tree) : Rule × Store :=
  let (id, s) := s.reserve
  let r : Rule := ⟨id, text, root⟩
  (r, s.put r)

def contains (s : Store) (id : Int64) : Bool :=
  s.rules.any (·.id == id)

/-- The store without a rule, which must be in it. -/
def delete (s : Store) (id : Int64) : Except RuleError Store :=
  if s.contains id then .ok { s with rules := s.rules.filter (·.id != id) }
  else .error (.notFound id)

def toList (s : Store) : List Rule :=
  s.rules

def size (s : Store) : Nat :=
  s.rules.length

def isEmpty (s : Store) : Bool :=
  s.rules.isEmpty

end Store

end Criteria
