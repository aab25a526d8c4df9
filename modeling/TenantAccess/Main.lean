import TenantAccess.CommandLine.Launch

/-!
# The program

Reads the environment and the files that the arguments name, and prints what comes of them.  The
controller runs until its standard input ends.
-/

namespace TenantAccess

/-- The time at which objects are taken to be created; nothing that is printed shows it. -/
def startOfTime : Timestamp :=
  ⟨⟨1970, 1, 1, by decide⟩, 0, 0, 0, 0, by decide⟩

/-- The text of a file, or why it cannot be had. -/
def readText (name : String) : IO (Except String String) := do
  try
    return .ok (← IO.FS.readFile name)
  catch
    | .noFileOrDirectory .. => return .error "No such file or directory (os error 2)"
    | e => return .error (toString e)

def readEnvironment : IO (List (String × String)) :=
  (["CLICOLOR_FORCE", Launch.configVariable] ++ Launch.settingVariables).filterMapM fun name ↦ do
    return (← IO.getEnv name).map (name, ·)

/-- The names of the files that an invocation may read. -/
def namesToRead (i : Arguments.Invocation) : List String :=
  let manifest := match i.command with
    | .plan m | .reconcile m _ | .run m | .validateConfig m _ => m
  manifest :: i.config?.toList.flatMap fun c ↦
    c :: (Settings.bareName? c).toList.flatMap fun c ↦
      SettingsFormat.endings.map fun (ending, _) ↦ c ++ "." ++ ending

/-- Wait for the end of standard input; the milliseconds that passed. -/
def waitForEnd : IO Nat := do
  let start ← IO.monoMsNow
  let _ ← (← IO.getStdin).readToEnd
  return (← IO.monoMsNow) - start

end TenantAccess

open TenantAccess in
def main (args : List String) : IO UInt32 := do
  let file ← readText Launch.variablesFile
  let host := Launch.withVariables {
    ambient := ⟨startOfTime, fun n ↦ "uid-" ++ toString (n + 1)⟩
    environment := ← readEnvironment
    read := fun _ ↦ file
    color := (← (← IO.getStdout).isTty) && (← IO.getEnv "NO_COLOR").isNone }
  let exit ←
    match Arguments.parse (Launch.config? host) args with
    | .error h => pure (Launch.halted (Launch.config? host) h)
    | .ok i => do
      let files ← (namesToRead i).mapM fun name ↦ return (name, ← readText name)
      let time ← match i.command with
        | .run _ => waitForEnd
        | _ => pure 0
      let read := fun name ↦ (files.lookup name).getD (.error "not read")
      pure (Launch.perform { host with read } time i)
  IO.print exit.printed.out
  IO.eprint exit.printed.err
  return exit.code.toUInt32
