import SoapBindings.Run
-- The program: files are those of the disk, and the log goes to the standard error.

namespace SoapBindings

abbrev Shell := ReaderT LogFilter IO

def DiskError.ofIO : IO.Error → DiskError
  | .noFileOrDirectory ..          => .notFound
  | .inappropriateType _ 20 _      => .notDirectory
  | .inappropriateType _ 21 _      => .isDirectory
  | .invalidArgument _ 36 _        => .nameTooLong
  | .permissionDenied _ code words =>
    .other { kind := "PermissionDenied", words, code? := some code.toNat }
  | e                              => .other { kind := "Other", words := toString e }

instance : MonadDisk Shell where
  readText path := do
    try
      let bytes ← IO.FS.readBinFile path
      match String.fromUTF8? bytes with
      | some text => return .ok text
      | none      => return .error .invalidText
    catch e => return .error (.ofIO e)
  writeText path text := do
    try
      IO.FS.writeFile path text
      return .ok ()
    catch e => return .error (.ofIO e)

instance : MonadJournal Shell where
  log r := do
    if (← read).accepts r then
      let text := String.intercalate "\n" r.lines
      IO.eprintln s!"[{r.severity.name} {r.target}] {text}"

def UsageError.text : UsageError → String
  | missingArgument => "a required argument is missing"
  | unknownArgument => "an argument is unknown"
  | repeatedOption  => "an option is given twice"
  | missingValue    => "an option needs a value"
  | invalidValue    => "the value of an option is invalid"

-- How a failure is told to the one who called the program. The errors of a run are shown with all
-- that they are made of.
def Failure.text : Failure → String
  | .usage e => s!"error: {e.text}"
  | .run e   => s!"Error: {e.debugText}"

end SoapBindings

open SoapBindings in
def main (args : List String) : IO UInt32 := do
  let filter := LogFilter.ofText (← IO.getEnv "RUST_LOG")
  let report ← ReaderT.run (invoke args : Shell Report) filter
  IO.print report.output
  if let some failure := report.failure then
    IO.eprintln failure.text
  return report.exitCode.toUInt32
