import Harvard16.Instruction.Opcode

/-! Bit fields of a sixteen-bit word, and where the operands of a format lie. A field is a run of bits,
read as an unsigned number or in two's complement. Packing takes a value modulo the width of the field
and loses the bits that a shift would push past the word. The opcode is in bits 15 to 12 of every word;
the other twelve are shared out as below, from bits 11 to 8 down to bits 3 to 0, and a format that
lacks an operand has no field for it.

  R        rd      rs1     rs2
  I        rd      rs1     immediate, unsigned
  S        rs2     rs1     offset, unsigned
  B        rs1     rs2     offset, signed
  J        rd      offset, signed, in all eight low bits
  special  zeros -/
namespace Harvard16

structure Field where
  shift : Nat
  width : Nat
  signed : Bool
  deriving DecidableEq, Repr

namespace Field

def opcode : Field := ⟨12, 4, false⟩
def high : Field := ⟨8, 4, false⟩
def mid : Field := ⟨4, 4, false⟩
def low : Field := ⟨0, 4, false⟩
def lowSigned : Field := ⟨0, 4, true⟩
def wideSigned : Field := ⟨0, 8, true⟩
def payload : Field := ⟨0, 12, false⟩

def span (f : Field) : Nat := 1 <<< f.width

def half (f : Field) : Nat := 1 <<< (f.width - 1)

theorem span_pos (f : Field) : 0 < f.span := by
  rw [span, Nat.shiftLeft_eq, Nat.one_mul]
  exact Nat.two_pow_pos f.width

def mask (f : Field) : UInt16 := UInt16.ofNat (f.span - 1)

/-- The bits of the field, moved down to the bottom of the word. -/
def bits (f : Field) (word : UInt16) : Nat := (word.toNat >>> f.shift) % f.span

theorem bits_lt (f : Field) (word : UInt16) : f.bits word < f.span := Nat.mod_lt _ f.span_pos

/-- The value of the field; the top bit of a signed field counts negatively. -/
def extract (f : Field) (word : UInt16) : Int :=
  if f.signed ∧ f.half ≤ f.bits word then (f.bits word : Int) - f.span else f.bits word

/-- The word that holds a value in this field and zeros elsewhere. -/
def pack (f : Field) (value : Int) : UInt16 :=
  UInt16.ofNat ((value % f.span).toNat <<< f.shift)

def least (f : Field) : Int := if f.signed then -(f.half : Int) else 0

def greatest (f : Field) : Int := if f.signed then (f.half : Int) - 1 else (f.span : Int) - 1

def fits (f : Field) (value : Int) : Bool := f.least ≤ value ∧ value ≤ f.greatest

end Field

structure Layout where
  rd : Option Field
  rs1 : Option Field
  rs2 : Option Field
  imm : Option Field
  deriving DecidableEq, Repr

def Format.layout : Format → Layout
  | .r => ⟨some .high, some .mid, some .low, none⟩
  | .i => ⟨some .high, some .mid, none, some .low⟩
  | .s => ⟨none, some .mid, some .high, some .low⟩
  | .b => ⟨none, some .high, some .mid, some .lowSigned⟩
  | .j => ⟨some .high, none, none, some .wideSigned⟩
  | .special => ⟨none, none, none, none⟩

namespace Layout

def read (place : Option Field) (word : UInt16) : Int := place.elim 0 (·.extract word)

def write (place : Option Field) (value : Int) : UInt16 := place.elim 0 (·.pack value)

end Layout

end Harvard16
