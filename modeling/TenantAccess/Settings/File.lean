import TenantAccess.Ini.Reader
import TenantAccess.Json.Lenient
import TenantAccess.Json.Reader
import TenantAccess.Json5.Reader
import TenantAccess.Ron.Reader
import TenantAccess.Settings.Basic
import TenantAccess.Settings.Path
import TenantAccess.Toml.Reader
import TenantAccess.Yaml.Value

/-!
# Settings files

The ending of a file's name says how it is written.  What the environment sets goes before what the
file says, and what neither says has its default.
-/

namespace TenantAccess

inductive SettingsFormat where
  | toml | json | yaml | ini | ron | json5
deriving DecidableEq

namespace SettingsFormat

/-- The endings of names, those that are tried first before the others. -/
def endings : List (String × SettingsFormat) :=
  [("toml", toml), ("json", json), ("yaml", yaml), ("yml", yaml), ("ini", ini), ("ron", ron),
    ("json5", json5)]

/-- What follows the last point of a name, unless the point comes first. -/
def ending? (name : String) : Option String :=
  match ((name.splitOn "/").getLast?.getD "").splitOn "." |>.reverse with
  | _ :: [] => none
  | _ :: "" :: [] => none
  | ending :: _ => some ending
  | [] => none

def ofName? (name : String) : Option SettingsFormat :=
  (ending? name).bind fun e ↦ endings.lookup e

def parse : SettingsFormat → String → Option Json
  | toml, text => Toml.parse text
  | json, text => Json.parse text
  | yaml, text => Yaml.parse text
  | ini, text => Ini.parse text
  | ron, text => Ron.parse text
  | json5, text => Json5.parse text

end SettingsFormat

namespace Settings

/-- A name to which an ending can be added: nothing follows the name of the file itself. -/
def bareName? (name : String) : Option String :=
  match (name.splitOn "/").reverse.dropWhile (fun n ↦ n = "" || n = ".") with
  | [] | ".." :: _ => none
  | names => some ("/".intercalate names.reverse)

/-- The members in the file `name`, or in the first that is there with an ending behind it. -/
def members? (read : String → Option String) (name : String) : Option (List (String × Json)) := do
  let (format, text) ←
    match read name with
    | some text => (SettingsFormat.ofName? name).map (·, text)
    | none => do
      let name ← bareName? name
      SettingsFormat.endings.findSome? fun (ending, format) ↦
        (read (name ++ "." ++ ending)).map (format, ·)
  Json.members? (← format.parse text)

/-- The settings in a file, if one is named, under those of the environment. -/
def load (read : String → Option String) (file : Option String)
    (environment : List (String × String)) : Except Error Settings :=
  let settings? := do
    let fields ← match file with
      | some name => members? read name
      | none => some []
    decode Json.lenient (← overrideBy? environment (← overlayAll? fields (.obj [])))
  match settings? with
  | some settings => settings.validate
  | none => .error .configurationLoad

end Settings

end TenantAccess
