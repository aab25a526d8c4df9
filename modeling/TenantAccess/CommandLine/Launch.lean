import TenantAccess.CommandLine.Help
import TenantAccess.Settings.File
import TenantAccess.Settings.Variables

/-!
# The program as a whole

From the arguments, the environment and the files that are read to what is printed and the exit
code.
-/

namespace TenantAccess

structure Host where
  ambient : Ambient
  environment : List (String × String)
  read : String → Except String String
  /-- Whether the terminal shows colours. -/
  color : Bool := false

structure Exit where
  code : Nat
  printed : Printed

namespace Launch

def configVariable : String := "DBAAS_AUTHZ_CONFIG"

/-- The variables that set a setting each. -/
def settingVariables : List String :=
  ["CONTROLLER__MAX_CONCURRENT_RECONCILES", "CONTROLLER__REQUEUE_BASE_DELAY",
    "CONTROLLER__REQUEUE_MAX_DELAY", "CONTROLLER__ACQUIRE_TIMEOUT", "CONTROLLER__SHUTDOWN_GRACE",
    "OPERATOR__INSTALL_NAMESPACE", "OPERATOR__CREATE_DEFAULT_CONFIG", "ACCESS_REVIEW__ENDPOINT",
    "ACCESS_REVIEW__BEARER_TOKEN", "ACCESS_REVIEW__TIMEOUT", "LOGGING__LEVEL",
    "LOGGING__FORMAT"].map ("DBAAS_AUTHZ__" ++ ·)

def halted (config? : Option String) : Halt → Exit
  | .usage => ⟨2, { err := Help.usage none ++ "\n" }⟩
  | .help about isLong => ⟨0, { out := Help.text isLong config? about }⟩
  | .helpOnHelp => ⟨0, { out := Help.textOnHelp }⟩
  | .version of => ⟨0, { out := Help.version of }⟩

/-- Whether the environment asks for colours wherever the output goes. -/
def isColorForced (s : Host) : Bool := (s.environment.lookup "CLICOLOR_FORCE").any (· ≠ "0")

/-- Carry out an invocation.  The controller runs for `time` milliseconds if it is to run. -/
def perform (s : Host) (time : Nat) (i : Arguments.Invocation) : Exit :=
  let color := (s.color || isColorForced s) && !i.noColor
  match Settings.load (fun name ↦ (s.read name).toOption) i.config? s.environment with
  | .error e => ⟨1, ({} : Printed).error color e.text⟩
  | .ok settings =>
    if !settings.logging.hasFilter then ⟨1, { err := "Error: malformed filter\n" }⟩
    else
      let context : CommandContext :=
        { ambient := s.ambient, settings, format := i.format, color, read := s.read }
      let (succeeded, printed) := Command.outcome context time i.command
      ⟨if succeeded then 0 else 1, printed⟩

def config? (s : Host) : Option String := s.environment.lookup configVariable

def variablesFile : String := ".env"

def withVariables (s : Host) : Host :=
  match s.read variablesFile with
  | .ok text => { s with environment := Variables.extend s.environment text }
  | .error _ => s

def run (s : Host) (time : Nat) (args : List String) : Exit :=
  let s := withVariables s
  match Arguments.parse (config? s) args with
  | .error h => halted (config? s) h
  | .ok i => perform s time i

end Launch

end TenantAccess
