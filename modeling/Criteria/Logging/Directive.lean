import Criteria.Logging.Level
import Criteria.Number.Shortest
import Criteria.Text.Alphanumeric
import Criteria.Text.Blank

/-!
Directives, of which a filter is made: `target[span{field=value}]=level`, where all parts but one may be
missing. A directive is a threshold for the targets that start with a text; one that names a span
holds within the spans of that name, one that names a field for events that have it.
-/

namespace Criteria.Logging

open Number Text

/-- A field that a directive asks for, and the value it asks for, in one spelling. -/
structure FieldPattern where
  name : String
  value : Option String
  deriving DecidableEq, Repr

namespace FieldPattern

/-- One spelling of truth values and numbers; any other value is as it is written. -/
def valueText (s : String) : String :=
  match readInt? s.toList with
  | some n => if Int64.minValue.toInt ≤ n ∧ n < UInt64.size then toString n else s
  | none => ((readBinary64? s.toList).map Binary64.text).getD s

/-- A field and the value behind the first equals sign; what is behind a second one is dropped. -/
def parse? (s : String) : Option FieldPattern :=
  match s.splitOn "=" with
  | [] => none
  | name :: rest => if s.isEmpty then none else some ⟨name, rest.head?.map valueText⟩

def text (f : FieldPattern) : String :=
  f.name ++ f.value.elim "" ("=" ++ ·)

end FieldPattern

structure Directive where
  target : Option String
  span : Option String
  field : Option FieldPattern
  threshold : Threshold
  deriving DecidableEq, Repr

namespace Directive

/-- A directive for all events of a target, or for all events. -/
def plain (target : Option String) (t : Threshold) : Directive :=
  ⟨target, none, none, t⟩

/-- The part of a directive in brackets. -/
def inside (d : Directive) : String :=
  if d.span.isNone && d.field.isNone then ""
  else "[" ++ d.span.getD "" ++ d.field.elim "" (fun f => "\x7b" ++ f.text ++ "\x7d") ++ "]"

def text (d : Directive) : String :=
  let place := d.target.getD "" ++ d.inside
  if d.target.isNone && d.inside.isEmpty then d.threshold.name
  else place ++ "=" ++ d.threshold.name

/-- Whether a directive depends on the spans that an event happens in. -/
def isDynamic (d : Directive) : Bool :=
  d.span.isSome || d.field.isSome

/-- Whether a directive can be decided without the spans that an event happens in. -/
def isStatic (d : Directive) : Bool :=
  d.span.isNone && d.field.all (·.value.isNone)

def coversTarget (d : Directive) (target : String) : Bool :=
  d.target.all fun t => t.toList.isPrefixOf target.toList

/-- Whether an event with some fields is a directive's concern. -/
def coversEvent (d : Directive) (target : String) (fields : List String) : Bool :=
  d.coversTarget target && d.field.all fun f => fields.contains f.name

/-- Whether a span without fields is a directive's concern by its name. -/
def coversSpan (d : Directive) (target name : String) : Bool :=
  d.coversTarget target && d.span.all (· == name) && d.field.isNone

/-- How specific a directive is next to another one: first by the length of its target, then by its span
and its field; what is equally specific is in the order of the alphabet. -/
def specificity (d e : Directive) : Ordering :=
  (compare (d.target.map String.utf8ByteSize) (e.target.map String.utf8ByteSize)).then <|
  (compare d.span.isSome e.span.isSome).then <|
  (compare d.field.isSome e.field.isSome).then <|
  (compare d.target e.target).then <|
  (compare d.span e.span).then <|
  (compare (d.field.bind (·.value)).isSome (e.field.bind (·.value)).isSome).then <|
  (compare (d.field.map (·.name)) (e.field.map (·.name))).then <|
  compare (d.field.bind (·.value)) (e.field.bind (·.value))

/-! ### Reading -/

/-- Whether a directive may start with a character, brackets aside. -/
def isStart (c : Char) : Bool :=
  ['-', ':', '_'].contains c || isAlphanumeric c

/-- The directive of a word: a level, or a target for which everything is logged. -/
def ofWord (word : String) : Directive :=
  match Threshold.parse? word with
  | some t => plain none t
  | none => plain (some word) (some .trace)

/-- The threshold behind an equals sign; without a level it is everything. -/
def thresholdOf? (level : List Char) : Option Threshold :=
  if level.isEmpty then some (some .trace) else Threshold.parse? (String.ofList level)

/-- The characters of a text from one place up to another one. -/
def slice (s : List Char) (first last : Nat) : String :=
  String.ofList ((s.drop first).take (last - first))

/-- Where a bracket's part ends that starts at a place: the first of some characters from there on. -/
def endOf (s : List Char) (first : Nat) (ends : List Char) : Nat :=
  first + ((s.drop first).takeWhile fun c => !ends.contains c).length

/-- The threshold of a directive whose brackets are closed at a place. -/
def afterBrackets? (s trimmed : List Char) (place : Nat) : Option Threshold :=
  match trimmed.drop place with
  | [] => some (some .trace)
  | '=' :: _ => thresholdOf? (s.drop (place + 1))
  | _ => none

/-- The span and the field of a directive whose bracket is open at a place, and its threshold. -/
def bracketed? (target : Option String) (s trimmed : List Char) (place : Nat) : Option Directive :=
  let spanEnd := endOf trimmed place [']', '\x7b']
  let span := slice s place spanEnd
  match trimmed.drop spanEnd with
  | ']' :: _ =>
    (afterBrackets? s trimmed (spanEnd + 1)).map fun t => ⟨target, some span, none, t⟩
  | '\x7b' :: _ => do
    let fieldEnd := endOf trimmed (spanEnd + 1) ['\x7d']
    match trimmed.drop fieldEnd with
    | '\x7d' :: ']' :: _ =>
      let field ← FieldPattern.parse? (slice s (spanEnd + 1) fieldEnd)
      let t ← afterBrackets? s trimmed (fieldEnd + 2)
      return ⟨target, if span.isEmpty then none else some span, some field, t⟩
    | _ => none
  | _ => none

/-- Reads a directive. Blanks around it do not matter for its form, but its parts are counted from the
start of the text with them. -/
def parse? (s : List Char) : Option Directive :=
  let trimmed := trim s
  match trimmed with
  | [] => none
  | c :: _ =>
    if c != '[' && !isStart c then none
    else
      let place := endOf trimmed 0 ['=', '[']
      match trimmed.drop place with
      | [] => some (ofWord (String.ofList s))
      | '=' :: _ => (thresholdOf? (s.drop (place + 1))).map (plain (some (slice s 0 place)))
      | _ => bracketed? (if place = 0 then none else some (slice s 0 place)) s trimmed (place + 1)

end Directive

end Criteria.Logging
