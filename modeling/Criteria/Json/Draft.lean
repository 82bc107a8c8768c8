import Criteria.Json.Basic

/-!
What a reader has made of a JSON text. The text may stop making sense somewhere, and readers of typed
values report whichever fault comes first in it, so a draft keeps everything up to that place: a
container that was never closed says so, and a value that was never completed is `broken`. Strings
may hold halves of surrogate pairs and numbers may be out of range, which matters only to readers
that use them.
-/

namespace Criteria

open Number

/-- A JSON value that may break off. -/
inductive Draft where
  | broken
  | null
  | bool (b : Bool)
  | number (n : Numeral)
  /-- A string; `none` if an escape in it denotes half a surrogate pair. -/
  | text (s : Option String)
  | array (items : List Draft) (closed : Bool)
  | object (members : List (Option String × Draft)) (closed : Bool)
  deriving Repr, Inhabited

/-- Why a text is not read as a value of the wanted type. -/
inductive ReadError where
  /-- The text is not JSON, as far as it had to be read. -/
  | malformed
  /-- The text is JSON of another shape. -/
  | mismatch
  deriving DecidableEq, Repr

abbrev Reading (α : Type) := Except ReadError α

/-- How many arrays and objects may stand inside one another where a value is used. -/
def nestingLimit : Nat := 127

namespace Draft

/-- Whether a number can be used at all: as an integer or as a double in range. -/
def usable (n : Numeral) : Bool :=
  n.toInt64?.isSome || n.scaled?.isSome

/-- The error for a value of another type than the wanted one. A value that starts as the wrong kind
of container is refused at once; a scalar is read first. -/
def refusal : Draft → ReadError
  | broken => .malformed
  | number n => if usable n then .mismatch else .malformed
  | text none => .malformed
  | _ => .mismatch

/-- The value, if its text is complete, its strings and numbers are usable, and arrays and objects
nest at most `limit` deep. -/
def toJson? : Nat → Draft → Option Json
  | _, null => some .null
  | _, bool b => some (.bool b)
  | _, number n => if usable n then some (.number n) else none
  | _, text (some s) => some (.text s)
  | limit + 1, array items true => return .array (← items.mapM (toJson? limit))
  | limit + 1, object members true =>
    return .object (← members.mapM fun (k, d) => return (← k, ← toJson? limit d))
  | _, _ => none

def readAny (limit : Nat) (d : Draft) : Reading Json :=
  match d.toJson? limit with
  | some j => .ok j
  | none => .error .malformed

def readText : Draft → Reading String
  | text (some s) => .ok s
  | d => .error d.refusal

def readBool : Draft → Reading Bool
  | bool b => .ok b
  | d => .error d.refusal

def readInt64 : Draft → Reading Int64
  | number n =>
    match n.toInt64? with
    | some i => .ok i
    | none => .error (number n).refusal
  | d => .error d.refusal

def readOption {α : Type} (read : Draft → Reading α) : Draft → Reading (Option α)
  | null => .ok none
  | d => some <$> read d

def readItems {α : Type} (read : Draft → Reading α) : Draft → Reading (List α)
  | array items closed => do
    let as ← items.mapM read
    if closed then return as else throw .malformed
  | d => .error d.refusal

/-- The members of an object; `onMember` sees each key and its value in turn. -/
def foldMembers {σ : Type} (onMember : σ → String → Draft → Reading σ) (start : σ)
    (members : List (Option String × Draft)) (closed : Bool) : Reading σ := do
  let last ← members.foldlM (fun s (k, d) =>
    match k with
    | none => .error .malformed
    | some key => onMember s key d) start
  if closed then return last else throw .malformed

/-- The fields of a record in their order: each has a key and says what its value does to a record
under construction. -/
abbrev Fields (σ : Type) := List (String × (σ → Draft → Reading σ))

/-- A record written as an array of exactly its fields. One that is too short is of another shape;
one that is too long is refused like a misplaced comma. -/
def readRow {σ : Type} (fields : Fields σ) (record : σ) (items : List Draft) (closed : Bool) :
    Reading σ :=
  match fields, items with
  | [], [] => if closed then .ok record else .error .malformed
  | [], _ :: _ => .error .malformed
  | _ :: _, [] => .error (if closed then .mismatch else .malformed)
  | (_, set) :: fields, d :: items => do
    readRow fields (← set record d) items closed

/-- A record written as an object or as an array. In an object unknown keys are skipped whatever their
values are, and a known key must not come twice. -/
def readRecord {σ : Type} (fields : Fields σ) (start : σ) : Draft → Reading σ
  | object members closed => do
    let onMember (state : σ × List String) (key : String) (d : Draft) :
        Reading (σ × List String) := do
      match fields.lookup key with
      | none => return state
      | some set =>
        if state.2.contains key then throw .mismatch
        return (← set state.1 d, key :: state.2)
    return (← foldMembers onMember (start, []) members closed).1
  | array items closed => readRow fields start items closed
  | d => .error d.refusal

def required {α : Type} (a : Option α) : Reading α :=
  match a with
  | some a => .ok a
  | none => .error .mismatch

end Draft

end Criteria
