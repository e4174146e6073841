import HashBoard.Capture.Listing
import HashBoard.Device.Files
import HashBoard.Startup

/-!
# The command line

`dissect` lists a capture; without it the program starts up as a daemon. Boards are out of its
reach, so that a start with a sound configuration ends with no chains found.
-/

open HashBoard

def report (result : Except Failure String) : IO UInt32 := do
  match result with
  | .ok text =>
    IO.print text
    return 0
  | .error failure =>
    IO.eprint failure.text
    return 1

def readContent (path : String) : IO (Except String Bytes) := do
  try
    let content ← IO.FS.readBinFile path
    return .ok content.toList
  catch e => return .error (toString e)

def runDissect (arguments : List String) : IO UInt32 := do
  match Capture.Options.none.read arguments with
  | .error argument =>
    IO.eprintln s!"error: unexpected argument {Text.quoted argument} found"
    return 2
  | .ok options =>
    match options.inputs with
    | [path] =>
      let content ← readContent path
      let onTerminal ← (← IO.getStdout).isTty
      report (Capture.dissect options (onTerminal && !options.plain) path content)
    | _ =>
      IO.eprintln "error: one capture has to be named"
      return 2

def readEnvironment : IO Environment := do
  let settings ← Configuration.variableNames.filterMapM fun name => do
    return (← IO.getEnv name).map fun text => (name, some text)
  return ⟨settings⟩

def readConfiguration (path : String) : IO (Except ConfigurationError String) := do
  match ← readContent path with
  | .error source => return .error (.cannotRead path source)
  | .ok bytes =>
    match String.fromUTF8? ⟨bytes.toArray⟩ with
    | some text => return .ok text
    | none => return .error (.cannotRead path "stream did not contain valid UTF-8")

def runDaemon : IO UInt32 := do
  let environment ← readEnvironment
  let content ← readConfiguration ((environment.text? Configuration.pathVariable).getD "")
  let machine : Startup.Machine := {
    environment
    configText := fun _ => content
    regulatorRefusal := some Device.FileError.missing.message
    comesUp := fun _ => false }
  report ((Startup.run machine).map fun _ => "")

def main (arguments : List String) : IO UInt32 :=
  match arguments with
  | "dissect" :: rest => runDissect rest
  | _ => runDaemon
