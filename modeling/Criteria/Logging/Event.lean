import Criteria.Json.Basic
import Criteria.Logging.Filter
import Criteria.Settings.Basic
import Criteria.Text.Hex

/-!
Log events and the lines they become. A line is coloured text for people, or JSON for programs; which of
the two is a setting. Only JSON lines name the thread, and only they are also written when a span ends.
-/

namespace Criteria.Logging

open Text

inductive FieldText where
  | shown (s : String)
  | flag (b : Bool)
  | number (n : Int)
  deriving DecidableEq, Repr

namespace FieldText

def text : FieldText → String
  | shown s => s
  | flag b => toString b
  | number n => toString n

def toJson : FieldText → Json
  | shown s => .text s
  | flag b => .bool b
  | number n => .ofInt n

end FieldText

structure Event where
  level : Level
  target : String
  message : String
  fields : List (String × FieldText)
  span : Option String
  deriving DecidableEq, Repr

inductive Format where
  | pretty
  | json
  deriving DecidableEq, Repr

namespace Format

def showsThread : Format → Bool
  | pretty => false
  | json => true

def reportsEnds : Format → Bool
  | pretty => false
  | json => true

end Format

namespace Event

/-- A character of a message as people see it: control characters that a terminal would obey, line ends
and tabs aside, are written out. -/
def shownChar (c : Char) : List Char :=
  if ['\x07', '\x08', '\x0C', '\x1B', '\x7F'].contains c then
    ['\\', 'x', hexDigit (c.toNat / 16), hexDigit (c.toNat % 16)]
  else if 0x80 ≤ c.toNat ∧ c.toNat ≤ 0x9F then
    ['\\', 'u', '\x7b', hexDigit (c.toNat / 16), hexDigit (c.toNat % 16), '\x7d']
  else [c]

def shownMessage (e : Event) : String :=
  String.ofList (e.message.toList.flatMap shownChar)

/-- The pieces of the text for people, from the level on, and whether each is coloured. -/
def pieces (e : Event) : List (String × Bool) :=
  [(e.level.label ++ " " ++ e.span.elim "" (· ++ ": ") ++ e.target ++ ": ", true),
    (e.shownMessage, false)]
    ++ e.fields.flatMap fun (k, v) => [(" " ++ k ++ "=", true), (v.text, false)]

/-- Puts a piece behind some lines, the last one first; a line feed in it ends a line. -/
def appendPiece (lines : List (String × Bool)) (piece : String × Bool) : List (String × Bool) :=
  match lines, piece.1.splitOn "\n" with
  | (text, coloured) :: earlier, first :: more =>
    (more.map (·, piece.2)).reverse ++ (text ++ first, coloured || piece.2) :: earlier
  | lines, _ => lines

/-- The lines for people, from the level on, and whether anything in them is coloured. -/
def prettyLines (e : Event) : List (String × Bool) :=
  (e.pieces.foldl appendPiece [("", false)]).reverse

/-- The fields of the line for programs, of which the message is one. -/
def jsonFields (e : Event) : Json :=
  .object (("message", .text e.message) :: e.fields.map fun (k, v) => (k, v.toJson))

end Event

structure Subscriber where
  filter : Filter
  format : Format
  deriving DecidableEq, Repr

namespace Subscriber

/-- The subscriber that the settings ask for; `override` is a filter that comes before theirs. -/
def ofSettings (s : Settings.ObservabilitySettings) (override : Option String) : Subscriber :=
  ⟨.choose override s.logLevel, if s.jsonLogs then .json else .pretty⟩

/-- Whether an event becomes a line, within spans that have thresholds of their own. -/
def admitsWithin (sub : Subscriber) (spans : List Threshold) (e : Event) : Bool :=
  sub.filter.admits spans e.level e.target ("message" :: e.fields.map (·.1))

/-- Whether an event outside all spans becomes a line. -/
def admits (sub : Subscriber) (e : Event) : Bool :=
  sub.admitsWithin [] e

/-- The events of a span with a name, level and target that become lines: what happens inside, and
where ends are reported its end. A span that is not kept track of leaves the events inside alone. -/
def spanEvents (sub : Subscriber) (name target : String) (level : Level) (inside : List Event) :
    List Event :=
  if sub.filter.admitsSpan level target name then
    let spans := (sub.filter.within? target name).toList
    let inside := (inside.map fun e => { e with span := some name }).filter (sub.admitsWithin spans)
    let ends : List Event :=
      if sub.format.reportsEnds then [⟨level, target, "close", [], some name⟩] else []
    inside ++ ends
  else inside.filter sub.admits

/-- The target of the events that the logging itself logs. -/
def ownTarget : String := "rules_shared::observability"

/-- The event of the start of a service, without metrics. -/
def started (service : String) (s : Settings.ObservabilitySettings) : Event :=
  ⟨.info, ownTarget, "Observability initialized",
    [("service", .shown service), ("metrics_enabled", .flag s.metricsEnabled),
      ("metrics_port", .shown (toString s.metricsPort)), ("log_format", .shown s.logFormat)], none⟩

def stopping : Event :=
  ⟨.info, ownTarget, "Shutting down observability...", [], none⟩

/-- Installs the subscriber of a process, which can be done once. -/
def install (current : Option Subscriber) (sub : Subscriber) : Except String Subscriber :=
  match current with
  | none => .ok sub
  | some _ => .error "a global default trace dispatcher has already been set"

end Subscriber

end Criteria.Logging
