import TenantAccess.CommandLine.Command
import TenantAccess.Json.Lenient

/-!
# Arguments of the program

Options that concern every command may stand before and after its name; behind it they count more.
An option may be given once in each of the two places.
-/

namespace TenantAccess

inductive CommandName where
  | plan | reconcile | run | validateConfig
deriving DecidableEq

namespace CommandName

def all : List CommandName := [plan, reconcile, run, validateConfig]

def text : CommandName → String
  | plan => "plan"
  | reconcile => "reconcile"
  | run => "run"
  | validateConfig => "validate-config"

def ofText? (s : String) : Option CommandName := all.find? fun n ↦ n.text = s

/-- The values that a command takes by position. -/
def positions : CommandName → List String
  | validateConfig => ["MANIFEST", "CONFIG"]
  | _ => ["MANIFEST"]

/-- Whether the option for the settings file may stand behind the command.  It may not where a value
by position has its name. -/
def takesSettings (c : CommandName) : Bool := !c.positions.contains "CONFIG"

end CommandName

inductive ValueOption where
  | config | output | maxReconciles
deriving DecidableEq

/-- Why the arguments call for no command. -/
inductive Halt where
  | usage
  /-- Help was asked for, `isLong` if in full. -/
  | help (about : Option CommandName) (isLong : Bool)
  /-- Help was asked for on the word `help` itself. -/
  | helpOnHelp
  | version (of : Option CommandName)
deriving DecidableEq

structure Arguments where
  config? : Option String := none
  format? : Option OutputFormat := none
  noColor : Bool := false
  most? : Option Nat := none
  positional : List String := []

namespace Arguments

/-- A count below `2 ^ 64` in digits, with a plus sign in front or not. -/
def count? (s : String) : Option Nat := Json.countOfText? s

/-- Take up an option, which must be new and have a value that it can have. -/
def give (a : Arguments) (value : String) : ValueOption → Except Halt Arguments
  | .config =>
    if a.config?.isSome ∨ value = "" then .error .usage else .ok { a with config? := some value }
  | .output =>
    match a.format?, OutputFormat.ofName? value with
    | none, some format => .ok { a with format? := some format }
    | _, _ => .error .usage
  | .maxReconciles =>
    match a.most?, count? value with
    | none, some n => .ok { a with most? := some n }
    | _, _ => .error .usage

/-- Which options and values are allowed in a place. -/
structure Place where
  /-- The command whose arguments these are. -/
  command? : Option CommandName
  /-- Whether the options that concern every command are allowed. -/
  hasCommon : Bool := true

inductive Meaning where
  | value (o : ValueOption)
  | noColor
  | halt (h : Halt)

namespace Place

/-- Whether the option for the settings file is allowed. -/
def takesSettings (p : Place) : Bool := p.hasCommon && p.command?.all (·.takesSettings)

def long? (p : Place) (name : String) : Option Meaning :=
  if name = "max-reconciles" then
    if p.command? = some .reconcile then some (.value .maxReconciles) else none
  else if name = "config" then if p.takesSettings then some (.value .config) else none
  else if !p.hasCommon then none
  else if name = "output" then some (.value .output)
  else if name = "no-color" then some .noColor
  else if name = "help" then some (.halt (.help p.command? true))
  else if name = "version" then some (.halt (.version p.command?))
  else none

def short? (p : Place) (c : Char) : Option Meaning :=
  if c = 'c' then if p.takesSettings then some (.value .config) else none
  else if !p.hasCommon then none
  else if c = 'o' then some (.value .output)
  else if c = 'h' then some (.halt (.help p.command? false))
  else if c = 'V' then some (.halt (.version p.command?))
  else none

def positions (p : Place) : Nat :=
  match p.command? with
  | some c => c.positions.length
  | none => 0

end Place

/-- An argument that is an option: what it means, and the value behind it in the same argument. -/
def option? (p : Place) (arg : String) : Option (Option Meaning × Option String) :=
  match arg.toList with
  | '-' :: '-' :: cs =>
    some (p.long? (String.ofList (cs.takeWhile (· ≠ '='))),
      match cs.dropWhile (· ≠ '=') with
      | '=' :: value => some (String.ofList value)
      | _ => none)
  | '-' :: c :: cs =>
    some (p.short? c,
      match cs with
      | [] => none
      | '=' :: value => some (String.ofList value)
      | value => some (String.ofList value))
  | _ => none

def looksLikeOption (arg : String) : Bool := "-".toList.isPrefixOf arg.toList && arg ≠ "-"

/-- Take up a value by position. -/
def addPosition (p : Place) (a : Arguments) (value : String) : Except Halt Arguments :=
  if a.positional.length < p.positions ∧ (a.positional ≠ [] ∨ value ≠ "") then
    .ok { a with positional := a.positional ++ [value] }
  else .error .usage

/-- The arguments in a place.  In the place before the name of a command they end there, and the
name and what follows it are left. -/
def scan (p : Place) (a : Arguments) : List String → Except Halt (Arguments × List String)
  | [] => .ok (a, [])
  | arg :: rest =>
    if arg = "--" then
      if p.command?.isNone then .error .usage
      else do return (← rest.foldlM (addPosition p) a, [])
    else
      match option? p arg with
      | none =>
        if p.command?.isNone then .ok (a, arg :: rest)
        else do scan p (← addPosition p a arg) rest
      | some (none, _) => .error .usage
      | some (some (.halt h), attached) =>
        .error (if attached.isSome && "--".isPrefixOf arg then .usage else h)
      | some (some .noColor, attached) =>
        if a.noColor ∨ attached.isSome then .error .usage
        else scan p { a with noColor := true } rest
      | some (some (.value o), some value) => do scan p (← a.give value o) rest
      | some (some (.value o), none) =>
        match rest with
        | [] => .error .usage
        | value :: rest =>
          if looksLikeOption value then .error .usage else do scan p (← a.give value o) rest

/-- How many reconciles are allowed unless told otherwise. -/
def defaultMost : Nat := 1000

/-- The command that the arguments behind its name call for. -/
def command? (a : Arguments) : CommandName → Option Command
  | .plan => a.positional.head?.map .plan
  | .reconcile => a.positional.head?.map (.reconcile · (a.most?.getD defaultMost))
  | .run => a.positional.head?.map .run
  | .validateConfig =>
    match a.positional with
    | [manifest, config] => some (.validateConfig manifest config)
    | _ => none

/-- The command in arguments that follow its name, none of which concern every command. -/
def parseCommand (name : CommandName) (args : List String) : Except Halt Command := do
  let (a, _) ← scan ⟨some name, false⟩ {} args
  match a.command? name with
  | some command => .ok command
  | none => .error .usage

structure Invocation where
  command : Command
  config? : Option String
  format : OutputFormat
  noColor : Bool

/-- The request for help that follows the word `help`. -/
def helpOn : List String → Halt
  | [] => .help none true
  | ["help"] => .helpOnHelp
  | [name] =>
    match CommandName.ofText? name with
    | some c => .help (some c) true
    | none => .usage
  | _ => .usage

/-- Read all arguments.  `config?` is the settings file that the environment names; it counts in
each place where the arguments name none. -/
def parse (config? : Option String) (args : List String) : Except Halt Invocation := do
  let (before, rest) ← scan ⟨none, true⟩ {} args
  match rest with
  | [] => .error .usage
  | "help" :: names => .error (helpOn names)
  | name :: rest =>
    match CommandName.ofText? name with
    | none => .error .usage
    | some name =>
      let place : Place := ⟨some name, true⟩
      let (behind, _) ← scan place {} rest
      let isOpen : Bool :=
        before.config?.isNone || (place.takesSettings && behind.config?.isNone)
      if config? = some "" ∧ isOpen then .error .usage
      match behind.command? name with
      | none => .error .usage
      | some command =>
        .ok {
          command
          config? := (behind.config?.or before.config?).or config?
          format := (behind.format?.or before.format?).getD .table
          noColor := behind.noColor || before.noColor }

end Arguments

end TenantAccess
