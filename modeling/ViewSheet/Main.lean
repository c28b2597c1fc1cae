/-
  The command line of the studio.

  Everything is decided in `Studio.run`; here the file is read and the outcome is written: the tree
  to the standard output, the log and the complaint to the standard error.
-/
import Std.Time.Format
import ViewSheet.Studio.Run

open ViewSheet ViewSheet.Studio

/-- Reads a file. -/
def readContent (path : String) : IO FileContent := do
  try
    let content ← IO.FS.readBinFile path
    return .bytes content.toList
  catch e =>
    match e with
    | .noFileOrDirectory .. => return .missing
    | .noSuchThing .. => return .missing
    | .permissionDenied _ code details => return .unreadable s!"{details} (os error {code})"
    | .inappropriateType _ code details => return .unreadable s!"{details} (os error {code})"
    | other => return .unreadable (toString other)

/-- A log level with its padding. -/
def levelText : Level → String
  | .error => "ERROR"
  | .warn => "WARN "
  | .info => "INFO "

/-- What stands in front of a log line: the time, the level, and who logs. -/
def logHeader (now : Std.Time.Timestamp) (level : Level) : String :=
  let time := (Std.Time.DateTime.ofTimestamp now .UTC).format "uuuu-MM-dd'T'HH:mm:ss'Z'"
  s!"[{time} {levelText level} stage_studio] "

/-- Runs the studio. -/
def main (argv : List String) : IO UInt32 := do
  let outcome ← match parseArguments argv with
    | .error stop => pure (runStop stop)
    | .ok a => do pure (runArguments a (← readContent a.input))
  IO.print outcome.stdout
  IO.eprint (outcome.stderr (logHeader (← Std.Time.Timestamp.now)))
  return outcome.status.toUInt32
