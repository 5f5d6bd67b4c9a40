import Harvard16.Assembly.Labels
import Harvard16.Instruction.Basic
import Harvard16.Registers

/-! Operands and instructions of assembly. A line is cut into tokens at commas and blanks: a mnemonic
and its operands. The number of operands is checked first and then each operand from left to
right, so the first fault of a line is the one reported. The operands of a load or store from
the second on are read together as one text, `offset(base)`, where a missing offset is zero. A number is
decimal, or hexadecimal behind `0x`, with at most one minus sign in front, and its magnitude has at
most 31 bits, so that it fits a signed word of 32 bits with either sign. -/
namespace Harvard16.Assembly

def magnitudeBound : Nat := 0x80000000

def magnitude? : List Char → Option Nat
  | '0' :: 'x' :: digits | '0' :: 'X' :: digits => Text.hexadecimal? magnitudeBound digits
  | digits => Text.decimal? magnitudeBound digits

def number? (text : List Char) : Option Int :=
  match text with
  | '-' :: digits => (magnitude? digits).map fun n => -(n : Int)
  | digits => (magnitude? digits).map fun n => (n : Int)

/-- Whether an operand is meant as a number: a digit comes first, minus signs aside. -/
def looksNumeric (text : List Char) : Bool :=
  (text.dropWhile (· == '-')).head?.any Char.isDigit

def isSeparator (c : Char) : Bool := c == ',' || Text.isBlank c

def register (text : List Char) : Except Cause Nat :=
  match RegisterName.index? text with
  | some i => .ok i
  | none => .error (.invalidRegister (String.ofList text))

def immediate (field : Field) (text : List Char) : Except Cause Int :=
  match number? text with
  | none => .error (.invalidNumber (String.ofList text))
  | some value =>
    if field.fits value then .ok value
    else .error (.outOfRange value field.least field.greatest)

/-- The distance from `address` to a label, taken modulo the width of the field. -/
def distance (field : Field) (address : Nat) (label : Label) : Int :=
  field.extract (field.pack ((label.address : Int) - address))

def branchTarget (labels : LabelTable) (field : Field) (address : Nat) (text : List Char) :
    Except Cause Int :=
  if looksNumeric text then immediate field text
  else
    match labels.lookup? (String.ofList text) with
    | some label => .ok (distance field address label)
    | none => .error (.undefinedLabel (String.ofList text))

def memoryOperand (field : Field) (text : List Char) : Except Cause (Nat × Nat) :=
  let parts? := if text.getLast? = some ')' then Text.cutAt? '(' text.dropLast else none
  match parts? with
  | none => .error (.invalidMemoryOperand (String.ofList text))
  | some (offset, base) => do
    let offset ← if offset.isEmpty then .ok 0 else immediate field offset
    let base ← register base
    return (offset.toNat, base)

/-- A register and a memory operand, however many tokens the latter is spread over. -/
def memoryForm (op : Opcode) (operands : List (List Char)) :
    Except Cause (Nat × Nat × Nat) :=
  match operands with
  | first :: second :: rest => do
    let register ← register first
    let (offset, base) ← memoryOperand .low (second :: rest).flatten
    return (register, offset, base)
  | _ => .error (.operandCount op 2 operands.length)

def instructionOf (labels : LabelTable) (address : Nat) (op : Opcode)
    (operands : List (List Char)) : Except Cause Instruction :=
  match op.format, operands with
  | .r, [rd, rs1, rs2] => do
    return .r op (← register rd) (← register rs1) (← register rs2)
  | .i, operands =>
    if op = .lw then do
      let (rd, offset, base) ← memoryForm op operands
      return .i op rd base offset
    else
      match operands with
      | [rd, rs1, imm] => do
        return .i op (← register rd) (← register rs1) (← immediate .low imm).toNat
      | _ => .error (.operandCount op 3 operands.length)
  | .s, operands => do
    let (rs2, offset, base) ← memoryForm op operands
    return .s op rs2 base offset
  | .b, [rs1, rs2, target] => do
    return .b op (← register rs1) (← register rs2)
      (← branchTarget labels .lowSigned address target)
  | .j, [rd, target] => do
    return .j op (← register rd) (← branchTarget labels .wideSigned address target)
  | .special, [] => .ok (.special op)
  | .r, operands | .b, operands => .error (.operandCount op 3 operands.length)
  | .j, operands => .error (.operandCount op 2 operands.length)
  | .special, operands => .error (.operandCount op 0 operands.length)

def parseInstruction (labels : LabelTable) (address : Nat) (text : List Char) :
    Except Cause Instruction :=
  let tokens := Text.tokens isSeparator text
  let name := tokens.headD []
  match Opcode.ofMnemonic? name with
  | none => .error (.unknownMnemonic (String.ofList name))
  | some op => instructionOf labels address op tokens.tail

end Harvard16.Assembly
