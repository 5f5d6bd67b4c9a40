import Harvard16.Assembly.Basic
import Harvard16.CommandLine.Arguments
import Harvard16.CommandLine.Session
import Harvard16.Config.Reader
import Harvard16.Instruction.Basic
import Harvard16.Image
import Harvard16.Machine.Snapshot
import Harvard16.Machine.Execution

/-! What the commands do. A program file is source, a bit dump or a binary image by its extension, and
all three become the same list of words before anything else happens to them. A command that
fails says why in its last message and has exit code one. -/
namespace Harvard16.CommandLine

def failure (reason : String) : String := "❌ " ++ reason

def warning (reason : String) : String := "⚠️  " ++ reason

def fail (reason : String) : Session := .finish ⟨1, "", [failure reason]⟩

/-- What stands behind the last dot in the name of a file; a dot at its start is no such dot. -/
def extension (path : String) : List Char :=
  let steps := (path.toList.splitOn '/').filter fun step => !step.isEmpty && step != ['.']
  let name := (steps.getLast?.getD []).reverse
  match name.dropWhile (· != '.') with
  | _ :: _ :: _ => (name.takeWhile (· != '.')).reverse
  | _ => []

def readText (path : String) (next : Except String String → Session) : Session :=
  .read path fun outcome =>
    next <| match outcome with
      | .error reason => .error reason
      | .ok bytes =>
        match String.fromUTF8? ⟨bytes.toArray⟩ with
        | some text => .ok text
        | none => .error "stream did not contain valid UTF-8"

def readSource (path : String) (next : Assembly → Session) : Session :=
  readText path fun
    | .error reason => fail s!"Failed to read {path}: {reason}"
    | .ok source =>
      let assembly := Assembly.ofSource source
      if assembly.isOk then next assembly
      else
        .finish ⟨1, "", assembly.errors.map (warning ·.message) ++
          [failure s!"Assembly failed with {assembly.errors.length} error(s)"]⟩

def readProgram (path : String) (next : List UInt16 → Session) : Session :=
  let image : Except Image.Error (List UInt16) → Session
    | .ok words => next words
    | .error error => fail error.message
  match String.ofList (extension path) with
  | "asm" | "s" => readSource path fun assembly => next assembly.words
  | "hex" | "txt" =>
    readText path fun
      | .error reason => fail s!"Failed to read {path}: {reason}"
      | .ok text => image (Image.BitDump.read text.toList)
  | _ =>
    .read path fun
      | .error reason => image (.error (.unreadable path reason))
      | .ok bytes => image (Image.ofBytes bytes)

def readConfig (path : Option String) (next : Config → Session) : Session :=
  match path with
  | none => next .default
  | some path =>
    readText path fun
      | .error reason => fail (ConfigError.unreadable path reason).toFault.message
      | .ok text =>
        match Config.parse text.toList with
        | .ok config => next config
        | .error error => fail error.toFault.message

def resultText (machine : Machine) (json : Bool) : String :=
  if json then machine.snapshot.json ++ "\n"
  else
    "\n━━━ Result ━━━\n" ++ machine.snapshot.text ++
      if machine.faults.total = 0 then "" else machine.faults.summary ++ "\n"

def runReport (machine : Machine) (budget : Nat) (trace json : Bool) : Report :=
  let (printed, outcome, machine) :=
    if trace then
      let (lines, outcome, machine) := machine.runTraced budget
      ("━━━ Execution ━━━\n" ++ String.join (lines.map (· ++ "\n")), outcome, machine)
    else
      let (outcome, machine) := machine.run budget
      ("", outcome, machine)
  let output := printed ++ resultText machine json
  match outcome with
  | .ok true => ⟨0, output, []⟩
  | .ok false =>
    let hint := s!"Reached max cycles limit ({budget}). Use --max-cycles to increase."
    ⟨0, output, [warning hint]⟩
  | .error fault => ⟨1, output, [failure s!"CPU error: {fault.message}"]⟩

def runProgram (program : String) (options : RunOptions) : Session :=
  readConfig options.config fun config =>
    let config := if options.strict then { config with policy := .strict } else config
    readProgram program fun words =>
      if words.isEmpty then fail "No instructions to execute"
      else
        match Machine.ofConfig config with
        | .error fault => fail fault.message
        | .ok machine =>
          match machine.load words 0 with
          | (.error fault, _) => fail s!"Failed to load program: {fault.message}"
          | (.ok (), machine) =>
            .finish (runReport machine (options.budget.getD config.cycleBudget) options.trace
              options.json)

def assembleFile (source : String) (output : Option String) (dump : Bool) : Session :=
  readSource source fun assembly =>
    let words := assembly.words
    let text := Image.BitDump.text words
    match output with
    | none => .finish ⟨0, if dump then text else assembly.listingText, []⟩
    | some path =>
      let bytes := if dump then text.toUTF8.data.toList else Image.toBytes words
      .write path bytes fun
        | .ok () => .finish ⟨0, s!"✅ Wrote {words.length} words to {path}\n", []⟩
        | .error reason =>
          if dump then fail s!"Failed to write {path}: {reason}"
          else fail (Image.Error.unreadable path reason).message

def disassembleFile (program : String) : Session :=
  readProgram program fun words => .finish ⟨0, Disassembly.text words, []⟩

def instructionRow (code name format rest : String) : String :=
  s!"{Text.padEnd 6 code} {Text.padEnd 6 name} {Text.padEnd 8 format} {rest}\n"

def instructionTable : String :=
  let rows := (List.range 16).map fun code =>
    let hex := "0x" ++ Text.hex 1 code
    match Opcode.ofCode? code with
    | none => instructionRow hex "-" "-" "reserved"
    | some op =>
      let range := op.format.layout.imm.elim "" fun field =>
        s!" [{field.least}..{field.greatest}]"
      instructionRow hex op.mnemonic op.format.tag (op.description ++ range)
  "RV16 instruction set\n\n" ++ instructionRow "CODE" "NAME" "FORMAT" "DESCRIPTION" ++
    String.join rows

def versionText : String := programName ++ " 0.1.0\n"

def Command.session : Command → Session
  | .run program options => runProgram program options
  | .assemble source output dump => assembleFile source output dump
  | .disassemble program => disassembleFile program
  | .instructionSet => .finish ⟨0, instructionTable, []⟩
  | .version => .finish ⟨0, versionText, []⟩
  | .help topic => .finish ⟨0, topic.page, []⟩

/-- The session of a command line; one that cannot be read has exit code two. -/
def session (arguments : List String) : Session :=
  match Command.parse? arguments with
  | some command => command.session
  | none => .finish ⟨2, "", []⟩

end Harvard16.CommandLine
