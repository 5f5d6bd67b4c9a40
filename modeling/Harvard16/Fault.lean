import Harvard16.Text.Numeral

/-! What can go wrong, each with its cause. The wording is in `Fault.message` alone; addresses and
words are shown in hexadecimal with at least four digits. A fault that is raised while an
instruction runs is told where by `raisedAt`, which concerns accesses to memory only: an invalid
instruction knows its place from the start. -/
namespace Harvard16

inductive Access where
  | fetch | read | write
  deriving DecidableEq, Repr

def Access.description : Access → String
  | .fetch => "instruction fetch"
  | .read => "read"
  | .write => "write"

inductive Fault where
  | memory (address : Nat) (access : Access) (pc : Option UInt16)
  | invalidInstruction (word pc : UInt16)
  | invalidOperand (line : Nat) (message : String)
  | programTooLong (size capacity : Nat)
  | startOutside (start capacity : Nat)
  | unknownAluCode (code : Nat)
  | invalidConfig (message : String)
  deriving DecidableEq, Repr

namespace Fault

inductive Kind where
  | memory | instruction | operand | capacity | alu | config
  deriving DecidableEq, Repr

def Kind.tag : Kind → String
  | .memory => "MEMORY"
  | .instruction => "INSTRUCTION"
  | .operand => "OPERAND"
  | .capacity => "CAPACITY"
  | .alu => "ALU"
  | .config => "CONFIG"

def kind : Fault → Kind
  | .memory .. => .memory
  | .invalidInstruction .. => .instruction
  | .invalidOperand .. => .operand
  | .programTooLong .. | .startOutside .. => .capacity
  | .unknownAluCode _ => .alu
  | .invalidConfig _ => .config

def message : Fault → String
  | .memory address access pc =>
    let place := pc.elim "" fun pc => s!" (PC {Text.hexWord pc.toNat})"
    s!"invalid memory {access.description} at address {Text.hexWord address}{place}"
  | .invalidInstruction word pc =>
    s!"unknown instruction {Text.hexWord word.toNat} at PC {Text.hexWord pc.toNat}"
  | .invalidOperand _ message => s!"invalid operand: {message}"
  | .programTooLong size capacity =>
    s!"program of {size} words exceeds capacity of {capacity} words"
  | .startOutside start capacity =>
    s!"program start address {Text.hexWord start} outside memory of {capacity} words"
  | .unknownAluCode code => s!"unknown ALU operation code 0b{Text.binary 3 code}"
  | .invalidConfig message => s!"invalid configuration: {message}"

def pc? : Fault → Option UInt16
  | .memory _ _ pc => pc
  | .invalidInstruction _ pc => some pc
  | _ => none

def word? : Fault → Option UInt16
  | .invalidInstruction word _ => some word
  | _ => none

/-- A memory fault as raised by the instruction at `pc`; every other fault unchanged. -/
def raisedAt (fault : Fault) (pc : UInt16) : Fault :=
  match fault with
  | .memory address access _ => .memory address access (some pc)
  | fault => fault

end Fault

end Harvard16
