import Harvard16.Text.Cut
import Harvard16.Text.Numeral

/-! The command line. Switches may stand before or after operands; a switch with a value takes it from
behind an equals sign, from the rest of its cluster, or from the next argument, which must then not look
like a switch itself. After `--` everything is an operand. Every switch but `--verbose` may be given
once. Arguments are read from left to right: a fault refuses the whole line, and a question for help
or for the version that is reached without one is answered whatever stands behind it. -/
namespace Harvard16.CommandLine

def programName : String := "rv16-sim"

inductive ValueKind where
  | path | count
  deriving DecidableEq, Repr

def ValueKind.admits : ValueKind → String → Bool
  | .path, text => !text.isEmpty
  | .count, text => (Text.counter? text.toList).isSome

structure Value where
  name : String
  kind : ValueKind
  deriving DecidableEq, Repr

structure Switch where
  word : String
  letter : Option Char
  value : Option Value
  about : String
  deriving DecidableEq, Repr

namespace Switch

def verbose : Switch :=
  ⟨"verbose", some 'v', none,
    "Increase log verbosity (-v info, -vv debug, -vvv trace). RUST_LOG overrides"⟩

def help : Switch := ⟨"help", some 'h', none, "Print help"⟩

def version : Switch := ⟨"version", some 'V', none, "Print version"⟩

/-- A switch as a help page has it; dots say that it may be repeated. -/
def form (switch : Switch) : String :=
  let letter := switch.letter.elim "    " fun c => s!"-{c}, "
  let value := switch.value.elim "" fun value => s!" <{value.name}>"
  letter ++ "--" ++ switch.word ++ value ++ if switch = verbose then "..." else ""

end Switch

inductive Argument where
  | flag (word : String)
  | setting (word value : String)
  | operand (text : String)
  deriving DecidableEq, Repr

namespace Argument

def word? : Argument → Option String
  | .flag word | .setting word _ => some word
  | .operand _ => none

def operand? : Argument → Option String
  | .operand text => some text
  | _ => none

end Argument

def looksLikeSwitch (text : List Char) : Bool := text.head? = some '-' && text.length ≠ 1

/-- Letters that stand together behind one dash, with the switch that still lacks its value. -/
def cluster? (switches : List Switch) : List Char → Option (List Argument × Option Switch)
  | [] => some ([], none)
  | c :: rest =>
    match switches.find? (·.letter == some c) with
    | none => none
    | some switch =>
      if switch.value.isSome then
        match rest with
        | [] => some ([], some switch)
        | '=' :: value => some ([.setting switch.word (String.ofList value)], none)
        | value => some ([.setting switch.word (String.ofList value)], none)
      else if switch = .help then some ([.flag switch.word], none)
      else
        (cluster? switches rest).map fun (arguments, waiting) =>
          (.flag switch.word :: arguments, waiting)

def worded? (switches : List Switch) (text : List Char) :
    Option (List Argument × Option Switch) :=
  let word := String.ofList (text.takeWhile (· != '='))
  match switches.find? (·.word == word), text.dropWhile (· != '=') with
  | none, _ => none
  | some switch, [] =>
    if switch.value.isSome then some ([], some switch) else some ([.flag word], none)
  | some switch, _ :: value =>
    if switch.value.isSome then some ([.setting word (String.ofList value)], none) else none

def asksForHelp (arguments : List Argument) : Bool :=
  arguments.getLast? = some (.flag Switch.help.word)

/-- Sorts arguments out up to the first question for help; `waiting` is a switch that lacks its value. -/
def arguments? (switches : List Switch) (waiting : Option Switch) :
    List String → Option (List Argument)
  | [] => if waiting.isSome then none else some []
  | text :: rest =>
    match waiting with
    | some switch =>
      if looksLikeSwitch text.toList then none
      else (arguments? switches none rest).map (.setting switch.word text :: ·)
    | none =>
      if text = "--" then some (rest.map .operand)
      else
        let found := match text.toList with
          | '-' :: '-' :: word => worded? switches word
          | ['-'] => some ([.operand text], none)
          | '-' :: letters => cluster? switches letters
          | _ => some ([.operand text], none)
        match found with
        | none => none
        | some (arguments, waiting) =>
          if asksForHelp arguments then some arguments
          else (arguments? switches waiting rest).map (arguments ++ ·)

/-- Whether no switch but `--verbose` is given twice. -/
def distinct (arguments : List Argument) : Bool :=
  let words := (arguments.filterMap (·.word?)).filter (· != Switch.verbose.word)
  words.eraseDups.length = words.length

def isGiven (arguments : List Argument) (word : String) : Bool :=
  arguments.any (·.word? == some word)

def value? (arguments : List Argument) (word : String) : Option String :=
  arguments.findSome? fun
    | .setting w value => if w = word then some value else none
    | _ => none

structure RunOptions where
  budget : Option Nat
  strict : Bool
  trace : Bool
  json : Bool
  config : Option String
  deriving DecidableEq, Repr

inductive Verb where
  | run | assemble | disassemble | instructionSet
  deriving DecidableEq, Repr

inductive Topic where
  | program
  | verb (verb : Verb)
  | help
  deriving DecidableEq, Repr

inductive Command where
  | run (program : String) (options : RunOptions)
  | assemble (source : String) (output : Option String) (dump : Bool)
  | disassemble (program : String)
  | instructionSet
  | version
  | help (topic : Topic)
  deriving DecidableEq, Repr

namespace Verb

def all : List Verb := [.run, .assemble, .disassemble, .instructionSet]

def name : Verb → String
  | .run => "run"
  | .assemble => "asm"
  | .disassemble => "disasm"
  | .instructionSet => "isa"

def about : Verb → String
  | .run => "Run a program until it halts"
  | .assemble => "Assemble source to a program image"
  | .disassemble => "Disassemble a program image to readable text"
  | .instructionSet => "Print the instruction set"

def operand? : Verb → Option (String × String)
  | .run => some ("<PROGRAM>", "Path to the .asm source, .hex dump or binary image")
  | .assemble => some ("<SOURCE>", "Path to the source file")
  | .disassemble => some ("<PROGRAM>", "Path to the binary image or hex dump")
  | .instructionSet => none

def switches : Verb → List Switch
  | .run =>
    [⟨"max-cycles", some 'm', some ⟨"MAX_CYCLES", .count⟩,
        "Maximum number of cycles to run (default: from config, 1000)"⟩,
      .verbose,
      ⟨"strict", none, none, "Stop on the first fault instead of recovering"⟩,
      ⟨"trace", some 't', none, "Print every executed instruction"⟩,
      ⟨"json", none, none, "Print the final state as JSON"⟩,
      ⟨"config", some 'c', some ⟨"CONFIG", .path⟩, "JSON configuration file"⟩,
      .help]
  | .assemble =>
    [⟨"output", some 'o', some ⟨"OUTPUT", .path⟩, "Output file (prints a listing when omitted)"⟩,
      .verbose,
      ⟨"hex", none, none, "Write a hex dump instead of a binary image"⟩,
      .help]
  | .disassemble | .instructionSet => [.verbose, .help]

def admitsValue (verb : Verb) : Argument → Bool
  | .setting word value =>
    verb.switches.all fun switch =>
      switch.word != word || switch.value.all (·.kind.admits value)
  | .flag _ => true
  | .operand text => ValueKind.path.admits text

/-- Whether arguments can be given to a command, perhaps with others behind them. -/
def admits (verb : Verb) (arguments : List Argument) : Bool :=
  distinct arguments && arguments.all verb.admitsValue &&
    (arguments.filterMap (·.operand?)).length ≤ verb.operand?.toList.length

def command? (verb : Verb) (arguments : List Argument) : Option Command :=
  let operand? := (arguments.filterMap (·.operand?)).head?
  match verb with
  | .run =>
    operand?.map fun program => .run program
      { budget := (value? arguments "max-cycles").bind (Text.counter? ·.toList)
        strict := isGiven arguments "strict"
        trace := isGiven arguments "trace"
        json := isGiven arguments "json"
        config := value? arguments "config" }
  | .assemble =>
    operand?.map (.assemble · (value? arguments "output") (isGiven arguments "hex"))
  | .disassemble => operand?.map .disassemble
  | .instructionSet => some .instructionSet

def parse? (verb : Verb) (rest : List String) : Option Command := do
  let arguments ← arguments? verb.switches none rest
  if !verb.admits arguments then none
  else if asksForHelp arguments then some (.help (.verb verb))
  else verb.command? arguments

end Verb

namespace Topic

def about : Topic → String
  | .program => "Instruction-set simulator and assembler for the RV16 16-bit CPU"
  | .verb asked => asked.about
  | .help => "Print this message or the help of the given subcommand(s)"

def usage : Topic → String
  | .program => "[OPTIONS] [COMMAND]"
  | .verb asked => s!"{asked.name} [OPTIONS]" ++ asked.operand?.elim "" fun operand => " " ++ operand.1
  | .help => "help [COMMAND]..."

def pagePart (heading : String) (rows : List (String × String)) : String :=
  let width := (rows.map (·.1.length)).foldl max 0
  if rows.isEmpty then ""
  else s!"\n{heading}:\n" ++
    String.join (rows.map fun (form, about) => s!"  {Text.padEnd width form}  {about}\n")

def commands : Topic → List (String × String)
  | .program => Verb.all.map (fun verb => (verb.name, verb.about)) ++ [("help", Topic.help.about)]
  | .verb _ | .help => []

def operands : Topic → List (String × String)
  | .program => []
  | .verb asked => asked.operand?.toList
  | .help => [("[COMMAND]...", "Print help for the subcommand(s)")]

def switches : Topic → List Switch
  | .program => [.verbose, .help, .version]
  | .verb asked => asked.switches
  | .help => []

def page (topic : Topic) : String :=
  s!"{topic.about}\n\nUsage: {programName} {topic.usage}\n" ++
    pagePart "Commands" topic.commands ++ pagePart "Arguments" topic.operands ++
    pagePart "Options" (topic.switches.map fun switch => (switch.form, switch.about))

def parse? : List String → Option Topic
  | [] => some .program
  | ["help"] => some .help
  | [name] => (Verb.all.find? (·.name == name)).map .verb
  | _ => none

end Topic

namespace Command

def parse? : List String → Option Command
  | [] => some .instructionSet
  | "--verbose" :: rest => parse? rest
  | "--version" :: _ => some .version
  | "--help" :: _ => some (.help .program)
  | "--" :: rest => if rest.isEmpty then some .instructionSet else none
  | "help" :: rest => (Topic.parse? rest).map .help
  | text :: rest =>
    match text.toList with
    | '-' :: letter :: letters =>
      match (letter :: letters).dropWhile (· == 'v') with
      | [] => parse? rest
      | 'V' :: _ => some .version
      | 'h' :: _ => some (.help .program)
      | _ => none
    | _ => (Verb.all.find? (·.name == text)).bind (·.parse? rest)

end Command

end Harvard16.CommandLine
