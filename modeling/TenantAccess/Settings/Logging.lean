import TenantAccess.Json.Decode

/-!
# What to log

A filter is a list of directives: a level, or a module with a level of its own.
-/

namespace TenantAccess

inductive LogFormat where
  | json | pretty | compact
deriving DecidableEq

namespace LogFormat

def name : LogFormat → String
  | json => "json"
  | pretty => "pretty"
  | compact => "compact"

def ofName? (s : String) : Option LogFormat := [json, pretty, compact].find? fun f ↦ f.name = s

def decode (d : Dialect δ) (j : δ) : Option LogFormat := (d.caseName j).bind ofName?

end LogFormat

/-- At which moments of a span something is logged. -/
structure SpanEvents where
  onNew : Bool := false
  onClose : Bool := true

namespace SpanEvents

def decode (d : Dialect δ) (j : δ) : Option SpanEvents := do
  let fields ← d.record ["on_new", "on_close"] j
  some {
    onNew := ← Dialect.defaulted fields "on_new" false d.flag
    onClose := ← Dialect.defaulted fields "on_close" true d.flag }

end SpanEvents

structure LoggingSettings where
  level : String := "info"
  format : LogFormat := .json
  moduleLevels : SortedMap String String := ∅
  includeLocation : Bool := false
  includeThread : Bool := false
  includeTarget : Bool := true
  spanEvents : SpanEvents := {}

namespace LoggingSettings

def decode (d : Dialect δ) (j : δ) : Option LoggingSettings := do
  let fields ← d.record ["level", "format", "module_levels", "include_location", "include_thread",
    "include_target", "span_events"] j
  some {
    level := ← Dialect.defaulted fields "level" "info" d.text
    format := ← Dialect.defaulted fields "format" .json (LogFormat.decode d)
    moduleLevels := ← Dialect.defaulted fields "module_levels" ∅ (d.dictionary d.text)
    includeLocation := ← Dialect.defaulted fields "include_location" false d.flag
    includeThread := ← Dialect.defaulted fields "include_thread" false d.flag
    includeTarget := ← Dialect.defaulted fields "include_target" true d.flag
    spanEvents := ← Dialect.defaulted fields "span_events" {} (SpanEvents.decode d) }

/-- A level, in any case. -/
def isLevel (s : String) : Bool :=
  s.toLower ∈ ["trace", "debug", "info", "warn", "error", "off"]

/-- `LEVEL` or `MODULE=LEVEL`. -/
def isDirective (s : String) : Bool :=
  match s.splitOn "=" with
  | [level] => isLevel level
  | [_, level] => isLevel level
  | _ => false

/-- The directives of the settings: those of the level, which may be empty, and one for each
module. -/
def directives (l : LoggingSettings) : List String :=
  (l.level.splitOn ",").filter (· ≠ "") ++
    l.moduleLevels.entries.map fun e ↦ e.1 ++ "=" ++ e.2

def hasFilter (l : LoggingSettings) : Bool := l.directives.all isDirective

end LoggingSettings

end TenantAccess
