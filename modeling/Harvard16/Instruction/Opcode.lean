/-! The opcode space. Four bits name an operation; slot 13 is reserved. Every opcode belongs to
one format, which alone decides where the operands lie in a word and how many an assembly
line must give. -/
namespace Harvard16

inductive Format where
  | r | i | s | b | j | special
  deriving DecidableEq, Repr

namespace Format

def all : List Format := [.r, .i, .s, .b, .j, .special]

def tag : Format → String
  | .r => "R"
  | .i => "I"
  | .s => "S"
  | .b => "B"
  | .j => "J"
  | .special => "Special"

end Format

inductive Opcode where
  | add | sub | and | or | xor
  | addi | andi | ori
  | lw | sw
  | beq | bne
  | jal
  | nop | halt
  deriving DecidableEq, Repr

namespace Opcode

def all : List Opcode :=
  [.add, .sub, .and, .or, .xor, .addi, .andi, .ori, .lw, .sw, .beq, .bne, .jal, .nop, .halt]

def code : Opcode → Nat
  | .add => 0
  | .sub => 1
  | .and => 2
  | .or => 3
  | .xor => 4
  | .addi => 5
  | .andi => 6
  | .ori => 7
  | .lw => 8
  | .sw => 9
  | .beq => 10
  | .bne => 11
  | .jal => 12
  | .nop => 14
  | .halt => 15

/-- The opcode in a slot of the table. Only the low four bits of a code count, and slot 13 is empty. -/
def ofCode? (code : Nat) : Option Opcode :=
  match code % 16 with
  | 0 => some .add
  | 1 => some .sub
  | 2 => some .and
  | 3 => some .or
  | 4 => some .xor
  | 5 => some .addi
  | 6 => some .andi
  | 7 => some .ori
  | 8 => some .lw
  | 9 => some .sw
  | 10 => some .beq
  | 11 => some .bne
  | 12 => some .jal
  | 14 => some .nop
  | 15 => some .halt
  | _ => none

@[simp] theorem ofCode?_code (op : Opcode) : ofCode? op.code = some op := by cases op <;> rfl

theorem ofCode?_eq_some_iff {c : Nat} {op : Opcode} : ofCode? c = some op ↔ op.code = c % 16 := by
  constructor
  · intro h
    unfold ofCode? at h
    split at h <;> rename_i slot <;> cases h <;> exact slot.symm
  · intro slot
    have low : ofCode? c = ofCode? (c % 16) := by rw [ofCode?, ofCode?, Nat.mod_mod]
    rw [low, ← slot, ofCode?_code]

def format : Opcode → Format
  | .add | .sub | .and | .or | .xor => .r
  | .addi | .andi | .ori | .lw => .i
  | .sw => .s
  | .beq | .bne => .b
  | .jal => .j
  | .nop | .halt => .special

def mnemonic : Opcode → String
  | .add => "ADD"
  | .sub => "SUB"
  | .and => "AND"
  | .or => "OR"
  | .xor => "XOR"
  | .addi => "ADDI"
  | .andi => "ANDI"
  | .ori => "ORI"
  | .lw => "LW"
  | .sw => "SW"
  | .beq => "BEQ"
  | .bne => "BNE"
  | .jal => "JAL"
  | .nop => "NOP"
  | .halt => "HALT"

def keyword (op : Opcode) : List Char := op.mnemonic.toList.map Char.toLower

def description : Opcode → String
  | .add => "Add"
  | .sub => "Subtract"
  | .and => "Bitwise AND"
  | .or => "Bitwise OR"
  | .xor => "Bitwise XOR"
  | .addi => "Add Immediate"
  | .andi => "AND Immediate"
  | .ori => "OR Immediate"
  | .lw => "Load Word"
  | .sw => "Store Word"
  | .beq => "Branch if Equal"
  | .bne => "Branch if Not Equal"
  | .jal => "Jump and Link"
  | .nop => "No Operation"
  | .halt => "Halt Execution"

def ofMnemonic? (name : List Char) : Option Opcode :=
  let lower := name.map Char.toLower
  all.find? (·.keyword == lower)

@[simp] theorem ofMnemonic?_keyword (op : Opcode) : ofMnemonic? op.keyword = some op := by
  cases op <;> decide

theorem ofMnemonic?_congr {a b : List Char} (h : a.map Char.toLower = b.map Char.toLower) :
    ofMnemonic? a = ofMnemonic? b := by
  simp [ofMnemonic?, h]

end Opcode

end Harvard16
