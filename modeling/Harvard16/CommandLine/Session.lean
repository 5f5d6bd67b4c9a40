import Harvard16.CommandLine.Directory
import Harvard16.Text.Utf8

/-! Sessions with files. A session is a program as data: it ends with a report, or it asks for a file
to be read or written and goes on with what came of that. It can be played in a directory
that is a value, or in a real one. -/
namespace Harvard16.CommandLine

structure Report where
  code : Nat
  output : String
  messages : List String
  deriving DecidableEq, Repr

/-- What is printed to the standard error: every message with a line feed behind it. A name of a
file may bring line feeds of its own into a message. -/
def Report.errorOutput (report : Report) : String :=
  String.join (report.messages.map (· ++ "\n"))

inductive Session where
  | finish (report : Report)
  | read (path : String) (next : Except String (List UInt8) → Session)
  | write (path : String) (bytes : List UInt8) (next : Except String Unit → Session)

/-- What a session comes to: its report, the directory after it, and what it printed by way of
files before it came to its end. -/
structure Outcome where
  report : Report
  directory : Directory
  printed : Printed := {}
  deriving DecidableEq, Repr

def Outcome.output (outcome : Outcome) : String :=
  Text.Utf8.decode outcome.printed.output ++ outcome.report.output

def Outcome.errorOutput (outcome : Outcome) : String :=
  Text.Utf8.decode outcome.printed.errors ++ outcome.report.errorOutput

def Session.play (directory : Directory) : Session → Outcome
  | .finish report => { report, directory }
  | .read path next =>
    (next ((directory.read path).mapError Refusal.message)).play directory
  | .write path bytes next =>
    match directory.write path bytes with
    | .ok written =>
      let outcome := (next (.ok ())).play written.directory
      { outcome with printed := written.printed.append outcome.printed }
    | .error refusal => (next (.error refusal.message)).play directory

end Harvard16.CommandLine
