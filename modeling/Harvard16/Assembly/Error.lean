import Harvard16.Fault
import Harvard16.Instruction.Opcode

/-! Errors of assembly: a cause, and the number of the line that it belongs to. -/
namespace Harvard16.Assembly

inductive Cause where
  | unknownMnemonic (name : String)
  | operandCount (op : Opcode) (expected found : Nat)
  | invalidRegister (name : String)
  | invalidNumber (text : String)
  | outOfRange (value least greatest : Int)
  | invalidMemoryOperand (operand : String)
  | undefinedLabel (label : String)
  | invalidLabel (label : String)
  | duplicateLabel (label : String) (first : Nat)
  | programTooLarge
  deriving DecidableEq, Repr

structure LineError where
  line : Nat
  cause : Cause
  deriving DecidableEq, Repr

namespace LineError

def message (error : LineError) : String :=
  let line := error.line
  match error.cause with
  | .unknownMnemonic name => s!"unknown mnemonic on line {line}: {name}"
  | .operandCount op expected found =>
    s!"wrong operand count on line {line}: {op.mnemonic} takes {expected}, got {found}"
  | .invalidRegister name => s!"invalid register on line {line}: {name}"
  | .invalidNumber text => s!"invalid number on line {line}: {text}"
  | .outOfRange value least greatest =>
    s!"value out of range on line {line}: {value} not in {least}..={greatest}"
  | .invalidMemoryOperand operand =>
    s!"invalid memory operand on line {line}: {operand} (expected offset(reg))"
  | .undefinedLabel label => s!"undefined label on line {line}: {label}"
  | .invalidLabel label => s!"invalid label on line {line}: {label}"
  | .duplicateLabel label first =>
    s!"duplicate label on line {line}: {label} (first defined on line {first})"
  | .programTooLarge => s!"program too large on line {line}: address space exhausted"

def toFault (error : LineError) : Fault := .invalidOperand error.line error.message

end LineError

end Harvard16.Assembly
