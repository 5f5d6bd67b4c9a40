import Harvard16.Instruction.Layout
import Harvard16.Text.Numeral

/-! Instructions and their words. Decoding never fails: a word in the reserved slot, and a special
word with stray payload bits, becomes `invalid` and keeps its word. Encoding follows the
format of the opcode, takes each operand modulo the width of its field, and puts zero where
the instruction has no such operand. Words are disassembled below a heading, each in a row with its
address, the word and its instruction. -/
namespace Harvard16

/-- The constructor gives the shape of an instruction; offsets of `b` and `j` count words from the
instruction's own address. -/
inductive Instruction where
  | r (op : Opcode) (rd rs1 rs2 : Nat)
  | i (op : Opcode) (rd rs1 imm : Nat)
  | s (op : Opcode) (rs2 rs1 offset : Nat)
  | b (op : Opcode) (rs1 rs2 : Nat) (offset : Int)
  | j (op : Opcode) (rd : Nat) (offset : Int)
  | special (op : Opcode)
  | invalid (word : UInt16)
  deriving DecidableEq, Repr

namespace Instruction

def decode (word : UInt16) : Instruction :=
  match Opcode.ofCode? (Field.opcode.bits word) with
  | none => .invalid word
  | some op =>
    let layout := op.format.layout
    let register (place : Option Field) : Nat := (Layout.read place word).toNat
    match op.format with
    | .r => .r op (register layout.rd) (register layout.rs1) (register layout.rs2)
    | .i => .i op (register layout.rd) (register layout.rs1) (Layout.read layout.imm word).toNat
    | .s => .s op (register layout.rs2) (register layout.rs1) (Layout.read layout.imm word).toNat
    | .b => .b op (register layout.rs1) (register layout.rs2) (Layout.read layout.imm word)
    | .j => .j op (register layout.rd) (Layout.read layout.imm word)
    | .special => if Field.payload.bits word = 0 then .special op else .invalid word

structure Operands where
  rd : Int
  rs1 : Int
  rs2 : Int
  imm : Int
  deriving DecidableEq, Repr

def operands : Instruction → Operands
  | .r _ rd rs1 rs2 => ⟨rd, rs1, rs2, 0⟩
  | .i _ rd rs1 imm => ⟨rd, rs1, 0, imm⟩
  | .s _ rs2 rs1 offset => ⟨0, rs1, rs2, offset⟩
  | .b _ rs1 rs2 offset => ⟨0, rs1, rs2, offset⟩
  | .j _ rd offset => ⟨rd, 0, 0, offset⟩
  | .special _ | .invalid _ => ⟨0, 0, 0, 0⟩

def Operands.pack (operands : Operands) (op : Opcode) : UInt16 :=
  let layout := op.format.layout
  Field.opcode.pack op.code ||| Layout.write layout.rd operands.rd |||
    Layout.write layout.rs1 operands.rs1 ||| Layout.write layout.rs2 operands.rs2 |||
    Layout.write layout.imm operands.imm

def opcode? : Instruction → Option Opcode
  | .r op .. | .i op .. | .s op .. | .b op .. | .j op .. | .special op => some op
  | .invalid _ => none

def encode (instruction : Instruction) : UInt16 :=
  match instruction with
  | .invalid word => word
  | .r op .. | .i op .. | .s op .. | .b op .. | .j op .. | .special op =>
    instruction.operands.pack op

def word : Instruction → UInt16
  | .invalid word => word
  | instruction => instruction.encode

def format? (instruction : Instruction) : Option Format := instruction.opcode?.map (·.format)

def isValid (instruction : Instruction) : Bool := instruction.opcode?.isSome

def mnemonic (instruction : Instruction) : String :=
  instruction.opcode?.elim "UNKNOWN" (·.mnemonic)

def description (instruction : Instruction) : String :=
  instruction.opcode?.elim "Unknown instruction" (·.description)

/-- The instruction in assembly. The shape decides the form, and a load alone of its shape has the
form of a memory operand. -/
def text : Instruction → String
  | .r op rd rs1 rs2 => s!"{name op} x{rd}, x{rs1}, x{rs2}"
  | .i .lw rd rs1 imm => s!"{name .lw} x{rd}, {imm}(x{rs1})"
  | .i op rd rs1 imm => s!"{name op} x{rd}, x{rs1}, {imm}"
  | .s op rs2 rs1 offset => s!"{name op} x{rs2}, {offset}(x{rs1})"
  | .b op rs1 rs2 offset => s!"{name op} x{rs1}, x{rs2}, {offset}"
  | .j op rd offset => s!"{name op} x{rd}, {offset}"
  | .special op => name op
  | .invalid word => "unknown 0x" ++ Text.upperHex 4 word.toNat
where
  name (op : Opcode) : String := String.ofList op.keyword

end Instruction

namespace Disassembly

def heading : String := "# RV16 disassembly\n# -----------------\n\n"

def row (address : Nat) (word : UInt16) : String :=
  s!"{Text.upperHex 4 address}: {Text.upperHex 4 word.toNat}  {(Instruction.decode word).text}"

def text (words : List UInt16) : String :=
  heading ++ String.join (words.zipIdx.map fun (word, address) => row address word ++ "\n")

end Disassembly

end Harvard16
