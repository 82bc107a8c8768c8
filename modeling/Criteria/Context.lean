import Criteria.Json.Basic
import Criteria.Text.Case

/-!
What criteria are decided on: a context gives scalar values to field names. Only four fields can be
named in a condition, each of one type, and a value of another type counts as absent; `resolve` is
the only way in which a condition sees its context.
-/

namespace Criteria

open Number

inductive FieldValue where
  | integer (n : Int64)
  | float (x : Binary64)
  | text (s : String)
  deriving DecidableEq, Repr

namespace FieldValue

/-- The scalar that a JSON value is: a number or a string. A number that is written without fraction
and exponent and fits 64 bits is an integer. -/
def ofJson? : Json → Option FieldValue
  | .number n =>
    match n.toInt64? with
    | some i => some (integer i)
    | none => n.scaled?.map float
  | .text s => some (text s)
  | _ => none

end FieldValue

inductive Field where
  | age
  | salary
  | department
  | experience
  deriving DecidableEq, Repr

namespace Field

def all : List Field := [age, salary, department, experience]

def key : Field → String
  | age => "age"
  | salary => "salary"
  | department => "department"
  | experience => "experience"

/-- The field that a name stands for, whatever the case of its letters. -/
def ofName? (name : String) : Option Field :=
  let lowered := String.ofList (Text.lower name.toList)
  all.find? (·.key == lowered)

/-- The value as one of the field's type. Only a salary takes an integer for a double. -/
def coerce? : Field → FieldValue → Option FieldValue
  | age, .integer n => some (.integer n)
  | experience, .integer n => some (.integer n)
  | salary, .integer n => some (.float (Binary64.ofInt64 n))
  | salary, .float x => some (.float x)
  | department, .text s => some (.text s)
  | _, _ => none

end Field

/-- Scalar values by field name, each name once. -/
structure Context where
  entries : List (String × FieldValue)
  deriving DecidableEq, Repr

namespace Context

def empty : Context := ⟨[]⟩

def insert (c : Context) (name : String) (v : FieldValue) : Context :=
  ⟨c.entries.filter (·.1 != name) ++ [(name, v)]⟩

def get? (c : Context) (name : String) : Option FieldValue :=
  c.entries.lookup name

def size (c : Context) : Nat :=
  c.entries.length

def isEmpty (c : Context) : Bool :=
  c.entries.isEmpty

/-- The scalar members of a JSON object; a repeated key has its last value, scalar or not. -/
def ofMembers (members : List (String × Json)) : Context :=
  ⟨(Json.lastOfEach members).filterMap fun (k, j) => (FieldValue.ofJson? j).map (k, ·)⟩

/-- The context of a JSON value; anything but an object has no fields. -/
def ofJson : Json → Context
  | .object members => ofMembers members
  | _ => empty

/-- The value that a condition on `name` sees: that of a known field, of the field's type. -/
def resolve (c : Context) (name : String) : Option FieldValue := do
  let field ← Field.ofName? name
  field.coerce? (← c.get? field.key)

end Context

end Criteria
