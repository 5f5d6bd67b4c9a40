import Harvard16.CommandLine.Commands

/-! The program: plays the session of its command line in the current directory. -/
namespace Harvard16.CommandLine

def errorText : IO.Error → String
  | .alreadyExists _ code details | .noFileOrDirectory _ code details
  | .invalidArgument _ code details | .permissionDenied _ code details
  | .resourceExhausted _ code details | .inappropriateType _ code details
  | .noSuchThing _ code details => s!"{details} (os error {code})"
  | error => toString error

def attempt {α : Type} (action : IO α) : IO (Except String α) := do
  try
    return .ok (← action)
  catch error =>
    return .error (errorText error)

def Session.perform : Session → IO Report
  | .finish report => return report
  | .read path next => do
    let outcome ← attempt (IO.FS.readBinFile path)
    (next (outcome.map (·.data.toList))).perform
  | .write path bytes next => do
    let outcome ← attempt (IO.FS.writeBinFile path ⟨bytes.toArray⟩)
    (next outcome).perform

end Harvard16.CommandLine

def main (arguments : List String) : IO UInt32 := do
  let report ← (Harvard16.CommandLine.session arguments).perform
  IO.print report.output
  IO.eprint report.errorOutput
  return UInt32.ofNat report.code
