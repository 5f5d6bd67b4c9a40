import Harvard16.Alu
import Harvard16.Instruction.Basic

/-! The control unit. It turns the opcode of an instruction into the signals that steer the data
path; an invalid instruction gets signals that do nothing but move on to the next word. -/
namespace Harvard16

inductive OperandSource where
  | register | immediate
  deriving DecidableEq, Repr

inductive WriteSource where
  | alu | memory | pcPlusOne
  deriving DecidableEq, Repr

inductive PcUpdate where
  | increment | conditional | jump | halt
  deriving DecidableEq, Repr

structure Signals where
  aluOp : Option AluOp
  sourceA : Option OperandSource
  sourceB : Option OperandSource
  registerWrite : Bool
  writeSource : Option WriteSource
  memoryRead : Bool
  memoryWrite : Bool
  branch : Bool
  jump : Bool
  pcUpdate : PcUpdate
  valid : Bool
  deriving DecidableEq, Repr

namespace Signals

def invalid : Signals :=
  { aluOp := none
    sourceA := none
    sourceB := none
    registerWrite := false
    writeSource := none
    memoryRead := false
    memoryWrite := false
    branch := false
    jump := false
    pcUpdate := .increment
    valid := false }

def nop : Signals := { invalid with valid := true }

def arithmetic (op : AluOp) (sourceB : OperandSource) : Signals :=
  { nop with
    aluOp := some op
    sourceA := some .register
    sourceB := some sourceB
    registerWrite := true
    writeSource := some .alu }

def comparison (op : AluOp) : Signals :=
  { nop with
    aluOp := some op
    sourceA := some .register
    sourceB := some .register
    branch := true
    pcUpdate := .conditional }

def ofOpcode : Opcode → Signals
  | .add => arithmetic .add .register
  | .sub => arithmetic .sub .register
  | .and => arithmetic .and .register
  | .or => arithmetic .or .register
  | .xor => arithmetic .xor .register
  | .addi => arithmetic .add .immediate
  | .andi => arithmetic .and .immediate
  | .ori => arithmetic .or .immediate
  | .lw => { arithmetic .add .immediate with writeSource := some .memory, memoryRead := true }
  | .sw =>
    { nop with
      aluOp := some .add
      sourceA := some .register
      sourceB := some .immediate
      memoryWrite := true }
  | .beq => comparison .eq
  | .bne => comparison .ne
  | .jal =>
    { nop with
      registerWrite := true
      writeSource := some .pcPlusOne
      jump := true
      pcUpdate := .jump }
  | .nop => nop
  | .halt => { nop with pcUpdate := .halt }

def ofInstruction (instruction : Instruction) : Signals :=
  instruction.opcode?.elim invalid ofOpcode

def accessesMemory (signals : Signals) : Bool := signals.memoryRead || signals.memoryWrite

def halts (signals : Signals) : Bool := signals.pcUpdate = .halt

/-- The kind of data access that the signals ask for; reading goes first. -/
def access? (signals : Signals) : Option Access :=
  if signals.memoryRead then some .read
  else if signals.memoryWrite then some .write
  else none

end Signals

/-- A bundle of signals with the mnemonic that it was generated for. -/
structure ControlRecord where
  mnemonic : String
  signals : Signals
  deriving DecidableEq, Repr

def ControlRecord.ofInstruction (instruction : Instruction) : ControlRecord :=
  ⟨instruction.mnemonic, .ofInstruction instruction⟩

structure ControlUnit where
  generated : Nat
  history : BoundedLog Instruction
  deriving DecidableEq, Repr

namespace ControlUnit

def initial : ControlUnit := ⟨0, .empty 10⟩

def generate (control : ControlUnit) (instruction : Instruction) : ControlUnit :=
  ⟨control.generated + 1, control.history.push instruction⟩

def records (control : ControlUnit) : List ControlRecord :=
  control.history.entries.map .ofInstruction

end ControlUnit

end Harvard16
