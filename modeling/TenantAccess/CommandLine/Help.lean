import TenantAccess.CommandLine.Arguments

/-!
# Help

The short form has one line for each option, the long form a paragraph.
-/

namespace TenantAccess.Help

def programName : String := "dbaas-authz"

def programVersion : String := "0.1.0"

def about : Option CommandName → String
  | none => "DBaaS multi-tenant authorization controller"
  | some .plan => "Print the RBAC objects a manifest would produce, without writing"
  | some .reconcile => "Reconcile a manifest to a settled state and print the result"
  | some .run => "Run the controller over a manifest until interrupted"
  | some .validateConfig => "Check whether a config in a manifest would be admitted"

def longAbout : Option CommandName → String
  | none =>
    "Derives per-tenant and per-inventory RBAC objects and keeps one DBaaSConfig active per " ++
      "namespace."
  | c => about c

/-- An entry of a list: what stands in front, the text behind, remarks on the value in both forms,
and the values that it can have. -/
structure Entry where
  head : String
  text : String
  remarks : List String := []
  values : List (String × String) := []

def positionEntry (value : String) : Entry :=
  if value = "MANIFEST" then ⟨"<MANIFEST>", "Manifest file", [], []⟩
  else
    ⟨"<" ++ value ++ ">", "Name of the config to check against the others in its namespace", [], []⟩

def formats : List (String × String) :=
  [("table", "Render as a formatted table"), ("json", "Render as JSON"), ("yaml", "Render as YAML")]

/-- The options of the program or a command; `config?` is what the environment says. -/
def options (isLong : Bool) (config? : Option String) (of : Option CommandName) : List Entry :=
  (if of.all (·.takesSettings) then
    [⟨"-c, --config <CONFIG>", "Settings file (TOML, YAML or JSON)",
      ["[env: DBAAS_AUTHZ_CONFIG=" ++ config?.getD "" ++ "]"], []⟩]
  else []) ++
  (if of = some .reconcile then
    [⟨"    --max-reconciles <MAX_RECONCILES>",
      "Give up when the store has not settled after this many reconciles", ["[default: 1000]"], []⟩]
  else []) ++
  [⟨"-o, --output <OUTPUT>", "Output format", ["[default: table]"], formats⟩,
    ⟨"    --no-color", "Disable colored output", [], []⟩,
    ⟨"-h, --help",
      if isLong then "Print help (see a summary with '-h')"
      else "Print help (see more with '--help')", [], []⟩,
    ⟨"-V, --version", "Print version", [], []⟩]

def blanks (n : Nat) : String := String.ofList (List.replicate n ' ')

def lineWidth : Nat := 100

/-- The text of an entry and what is remarked on it, on one line. -/
def Entry.line (e : Entry) : String :=
  let values :=
    if e.values.isEmpty then []
    else ["[possible values: " ++ ", ".intercalate (e.values.map (·.1)) ++ "]"]
  " ".intercalate (e.text :: e.remarks ++ values)

/-- Whether the texts have too little room behind heads of that width: those take more than two
fifths of the line with the space around them, and some text does not fit in what is left. -/
def isCrowded (width : Nat) (entries : List Entry) : Bool :=
  let taken := width + 12
  2 * lineWidth < 5 * taken && entries.any fun e ↦ lineWidth - taken < e.line.length

/-- Entries with their texts in one column, or below their heads if they have too little room. -/
def shortList (entries : List Entry) : List String :=
  let width := (entries.map (·.head.length)).foldl max 0
  if isCrowded width entries then entries.flatMap fun e ↦ ["  " ++ e.head, blanks 10 ++ e.line]
  else entries.map fun e ↦ "  " ++ e.head ++ blanks (width - e.head.length) ++ "  " ++ e.line

def longEntry (e : Entry) : List String :=
  let width := (e.values.map (·.1.length)).foldl max 0
  ["  " ++ e.head, blanks 10 ++ e.text] ++
    e.remarks.flatMap (fun r ↦ [blanks 10, blanks 10 ++ r]) ++
    (if e.values.isEmpty then []
    else ["", blanks 10 ++ "Possible values:"] ++ e.values.map fun (value, text) ↦
      blanks 10 ++ "- " ++ value ++ ": " ++ blanks (width - value.length) ++ text)

def longList (entries : List Entry) : List String :=
  (List.intersperse [""] (entries.map longEntry)).flatten

def list (isLong : Bool) (title : String) (entries : List Entry) : List String :=
  if entries.isEmpty then []
  else ["", title] ++ (if isLong then longList entries else shortList entries)

def usage : Option CommandName → String
  | none => "Usage: " ++ programName ++ " [OPTIONS] <COMMAND>"
  | some c =>
    "Usage: " ++ programName ++ " " ++ c.text ++ " [OPTIONS] " ++
      " ".intercalate (c.positions.map fun p ↦ "<" ++ p ++ ">")

def commands : List Entry :=
  CommandName.all.map (fun c ↦ (⟨c.text, about (some c), [], []⟩ : Entry)) ++
    [⟨"help", "Print this message or the help of the given subcommand(s)", [], []⟩]

def text (isLong : Bool) (config? : Option String) (of : Option CommandName) : String :=
  let lines := [if isLong then longAbout of else about of, "", usage of] ++
    (match of with
    | none => list false "Commands:" commands
    | some c => list isLong "Arguments:" (c.positions.map positionEntry)) ++
    list isLong "Options:" (options isLong config? of)
  "\n".intercalate lines ++ "\n"

/-- The help on the word that asks for help. -/
def textOnHelp : String :=
  let lines := ["Print this message or the help of the given subcommand(s)", "",
    "Usage: " ++ programName ++ " help [COMMAND]..."] ++
    list false "Arguments:" [⟨"[COMMAND]...", "Print help for the subcommand(s)", [], []⟩]
  "\n".intercalate lines ++ "\n"

def version (of : Option CommandName) : String :=
  programName ++ (match of with
    | none => ""
    | some c => "-" ++ c.text) ++ " " ++ programVersion ++ "\n"

end TenantAccess.Help
