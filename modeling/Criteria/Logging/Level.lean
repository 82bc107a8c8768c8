import Criteria.Text.Case
import Criteria.Text.Integer

/-!
Levels of events, and thresholds on them.
-/

namespace Criteria.Logging

open Text

/-- The level of an event, from the gravest to the most detailed. -/
inductive Level where
  | error
  | warn
  | info
  | debug
  | trace
  deriving DecidableEq, Repr

namespace Level

def all : List Level := [error, warn, info, debug, trace]

/-- One for the gravest level, and one more for each further one. -/
def rank : Level → Nat
  | error => 1
  | warn => 2
  | info => 3
  | debug => 4
  | trace => 5

def name : Level → String
  | error => "error"
  | warn => "warn"
  | info => "info"
  | debug => "debug"
  | trace => "trace"

def label (l : Level) : String :=
  String.ofList (l.name.toList.map Char.toUpper)

end Level

/-- The most detailed level that is logged, if any is. -/
abbrev Threshold := Option Level

namespace Threshold

def name (t : Threshold) : String :=
  t.elim "off" Level.name

/-- The threshold with a rank; zero is for none. -/
def ofRank? (n : Nat) : Option Threshold :=
  if n = 0 then some none else (Level.all.find? (·.rank == n)).map some

/-- The threshold that a word or a number names; no word at all names the gravest level. -/
def parse? (s : String) : Option Threshold :=
  match (readNatBelow? UInt64.size s.toList).bind ofRank? with
  | some t => some t
  | none =>
    let w := String.ofList (asciiLower s.toList)
    if w = "" then some (some .error)
    else if w = "off" then some none
    else (Level.all.find? (·.name == w)).map some

def admits (t : Threshold) (l : Level) : Bool :=
  match t with
  | none => false
  | some m => l.rank ≤ m.rank

end Threshold

end Criteria.Logging
