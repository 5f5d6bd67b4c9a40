import Harvard16.BoundedLog
import Harvard16.Fault

/-! The arithmetic logic unit: seven operations on sixteen-bit words, chosen by code. Each sets all
three flags. Zero and negative describe the result; overflow is the carry out of an addition
and nothing else, so a subtraction that wraps leaves it clear. -/
namespace Harvard16

inductive AluOp where
  | add | sub | and | or | xor | eq | ne
  deriving DecidableEq, Repr

namespace AluOp

def code : AluOp → Nat
  | .add => 0
  | .sub => 1
  | .and => 2
  | .or => 3
  | .xor => 4
  | .eq => 5
  | .ne => 6

def ofCode? (code : Nat) : Option AluOp :=
  match code with
  | 0 => some .add
  | 1 => some .sub
  | 2 => some .and
  | 3 => some .or
  | 4 => some .xor
  | 5 => some .eq
  | 6 => some .ne
  | _ => none

def name : AluOp → String
  | .add => "ADD"
  | .sub => "SUB"
  | .and => "AND"
  | .or => "OR"
  | .xor => "XOR"
  | .eq => "EQ"
  | .ne => "NE"

def result (op : AluOp) (a b : UInt16) : UInt16 :=
  match op with
  | .add => a + b
  | .sub => a - b
  | .and => a &&& b
  | .or => a ||| b
  | .xor => a ^^^ b
  | .eq => if a = b then 1 else 0
  | .ne => if a = b then 0 else 1

def carries (op : AluOp) (a b : UInt16) : Bool := op = .add ∧ 0xFFFF < a.toNat + b.toNat

end AluOp

structure Flags where
  zero : Bool
  overflow : Bool
  negative : Bool
  deriving DecidableEq, Repr

namespace Flags

def clear : Flags := ⟨false, false, false⟩

def text (flags : Flags) : String :=
  String.ofList [if flags.zero then 'Z' else '-', if flags.overflow then 'V' else '-',
    if flags.negative then 'N' else '-']

end Flags

/-- One use of the unit. Result and flags follow from it. -/
structure Calculation where
  op : AluOp
  a : UInt16
  b : UInt16
  deriving DecidableEq, Repr

namespace Calculation

def result (c : Calculation) : UInt16 := c.op.result c.a c.b

def flags (c : Calculation) : Flags :=
  ⟨c.result == 0, c.op.carries c.a c.b, 0x8000 ≤ c.result⟩

end Calculation

structure Alu where
  lastResult : UInt16
  flags : Flags
  operations : Nat
  history : BoundedLog Calculation
  deriving DecidableEq, Repr

namespace Alu

def initial : Alu := ⟨0, .clear, 0, .empty 10⟩

def perform (alu : Alu) (c : Calculation) : Alu :=
  ⟨c.result, c.flags, alu.operations + 1, alu.history.push c⟩

def execute (alu : Alu) (a b code : Nat) : Except Fault UInt16 × Alu :=
  match AluOp.ofCode? code with
  | none => (.error (.unknownAluCode code), alu)
  | some op =>
    let c : Calculation := ⟨op, UInt16.ofNat a, UInt16.ofNat b⟩
    (.ok c.result, alu.perform c)

end Alu

end Harvard16
