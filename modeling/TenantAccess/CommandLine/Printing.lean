import TenantAccess.CommandLine.Table
import TenantAccess.Json.Printer
import TenantAccess.Yaml.Printer

/-!
# What a command prints

Results are printed as a table, as JSON or as YAML.  Labels may be coloured.
-/

namespace TenantAccess

inductive OutputFormat where
  | table | json | yaml
deriving DecidableEq

def OutputFormat.name : OutputFormat → String
  | table => "table"
  | json => "json"
  | yaml => "yaml"

def OutputFormat.ofName? (s : String) : Option OutputFormat :=
  [table, json, yaml].find? fun f ↦ f.name = s

/-- What a part of the output is, which decides how it looks. -/
inductive Style where
  | success | error | warning | info | heading | label | faint

/-- The numbers that select a style on a terminal. -/
def Style.codes : Style → String
  | success => "1;32"
  | error => "1;31"
  | warning => "1;33"
  | info => "1;34"
  | heading => "1;4"
  | label => "36"
  | faint => "2"

def Style.apply (color : Bool) (style : Style) (s : String) : String :=
  if color then "\x1b[" ++ style.codes ++ "m" ++ s ++ "\x1b[0m" else s

structure Printed where
  out : String := ""
  err : String := ""

namespace Printed

def line (p : Printed) (s : String) : Printed := { p with out := p.out ++ s ++ "\n" }

def success (color : Bool) (s : String) (p : Printed) : Printed :=
  p.line (Style.success.apply color "[OK]" ++ " " ++ s)

def info (color : Bool) (s : String) (p : Printed) : Printed :=
  p.line (Style.info.apply color "[INFO]" ++ " " ++ s)

def warning (color : Bool) (s : String) (p : Printed) : Printed :=
  { p with err := p.err ++ Style.warning.apply color "[WARN]" ++ " " ++ s ++ "\n" }

def error (color : Bool) (s : String) (p : Printed) : Printed :=
  { p with err := p.err ++ Style.error.apply color "[ERROR]" ++ " " ++ s ++ "\n" }

def heading (color : Bool) (s : String) (p : Printed) : Printed :=
  ((p.line "").line (Style.heading.apply color s)).line ""

def detail (color : Bool) (key value : String) (p : Printed) : Printed :=
  p.line ("  " ++ Style.label.apply color key ++ ": " ++ value)

/-- A document.  Tables hold lists only, so a single item is JSON then. -/
def item (format : OutputFormat) (j : Json) (p : Printed) : Printed :=
  match format with
  | .table | .json => p.line (Json.pretty j)
  | .yaml => { p with out := p.out ++ Yaml.print j }

/-- Rows, given as a table and as documents. -/
def list (color : Bool) (format : OutputFormat) (t : Table) (docs : List Json) (p : Printed) :
    Printed :=
  match format with
  | .table =>
    if t.rows.isEmpty then p.line (Style.faint.apply color "No results found.") else p.line t.text
  | _ => p.item format (.arr docs)

end Printed

/-- The parts with commas between them, or a dash if that would be nothing. -/
def joinOrDash (parts : List String) : String :=
  let s := ", ".intercalate parts
  if s = "" then "-" else s

end TenantAccess
