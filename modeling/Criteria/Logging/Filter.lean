import Criteria.Logging.Directive

/-!
Which events are logged. A filter is a list of directives. Of those for an event the most specific one
counts, and where there is none, nothing is logged; but within a span that a directive names, its
threshold is enough.
-/

namespace Criteria.Logging

/-- Directives that can be decided without spans, and those that name a span or a field; of each the most
specific one first. -/
structure Filter where
  statics : List Directive
  dynamics : List Directive
  deriving DecidableEq, Repr

namespace Filter

/-- Adds a directive in its place; it replaces one for the same events. -/
def insert (d : Directive) : List Directive → List Directive
  | [] => [d]
  | e :: rest =>
    match d.specificity e with
    | .gt => d :: e :: rest
    | .eq => d :: rest
    | .lt => e :: insert d rest

/-- The filter of some directives. A field without a value is looked for in events and in spans. -/
def ofDirectives (ds : List Directive) : Filter :=
  let dynamics := ds.filter (·.isDynamic)
  let statics := ds.filter (!·.isDynamic) ++ dynamics.filter (·.isStatic)
  let ordered (ds : List Directive) : List Directive := ds.foldl (fun ds d => insert d ds) []
  ⟨ordered statics, ordered dynamics⟩

/-- Reads a filter: directives with commas between them, also within brackets. -/
def parse? (text : String) : Option Filter :=
  (((text.toList.splitOn ',').filter (!·.isEmpty)).mapM Directive.parse?).map ofDirectives

def text (f : Filter) : String :=
  ",".intercalate ((f.statics ++ f.dynamics).map (·.text))

/-- The threshold within a span without fields, if a directive names it. -/
def within? (f : Filter) (target name : String) : Option Threshold :=
  let thresholds := (f.dynamics.filter (·.coversSpan target name)).map (·.threshold)
  if thresholds.isEmpty then none
  else some (Level.all.reverse.find? fun l => thresholds.any (Threshold.admits · l))

/-- Whether anything of a level may be logged at all. A field with a value is looked for at all levels. -/
def reaches (f : Filter) (level : Level) : Bool :=
  (f.statics ++ f.dynamics).any (Threshold.admits ·.threshold level)
    || f.dynamics.any fun d => d.field.any (·.value.isSome)

/-- Whether a span is kept track of: it is named, and anything of its level may be logged, or its level
is logged for its target. -/
def admitsSpan (f : Filter) (level : Level) (target name : String) : Bool :=
  ((f.within? target name).isSome && f.reaches level)
    || (f.statics.find? (·.coversTarget target)).any (Threshold.admits ·.threshold level)

/-- Whether an event with some fields is logged, within spans that have thresholds of their own. -/
def admits (f : Filter) (spans : List Threshold) (level : Level) (target : String)
    (fields : List String) : Bool :=
  spans.any (Threshold.admits · level)
    || (f.statics.find? (·.coversEvent target fields)).any (Threshold.admits ·.threshold level)

/-- The filter in force: the overriding one if it is valid, else the configured one if that is valid,
else everything down to information. -/
def choose (override : Option String) (configured : String) : Filter :=
  ((override.bind parse?).or (parse? configured)).getD (ofDirectives [.plain none (some .info)])

end Filter

end Criteria.Logging
