import Harvard16.Proofs.Encoding

/-! Canonical forms. An instruction may have a shape that is not its opcode's, and operands that no field
can hold. Its word then stands for another instruction: the opcode is kept, the shape is that of the
opcode's format, and each operand of that format is what its field leaves of it. Main statement: a
word is the word of what it decodes to, and an instruction whose shape and operands are those of its
opcode is what its word decodes to. -/
namespace Harvard16

namespace Field

theorem valueOf_residue_unsigned {f : Field} (unsigned : f.signed = false) (value : Int) :
    f.valueOf (f.residue value) = value % f.span := by
  simp [valueOf, unsigned, cast_residue]

theorem valueOf_residue_signed {f : Field} (h : f.InWord) (signed : f.signed = true) (value : Int) :
    f.valueOf (f.residue value) = value.bmod f.span := by
  have halves := f.span_eq_half h
  have residue := f.cast_residue value
  rw [valueOf, Int.bmod, ← residue]
  simp only [signed, true_and]
  split <;> split <;> omega

end Field

namespace Instruction

/-- The operands that the fields of a format leave: registers and immediates modulo sixteen, offsets of
branches and jumps in two's complement, and zero where the format has no such operand. -/
def Operands.reduced (operands : Operands) : Format → Operands
  | .r => ⟨operands.rd % 16, operands.rs1 % 16, operands.rs2 % 16, 0⟩
  | .i => ⟨operands.rd % 16, operands.rs1 % 16, 0, operands.imm % 16⟩
  | .s => ⟨0, operands.rs1 % 16, operands.rs2 % 16, operands.imm % 16⟩
  | .b => ⟨0, operands.rs1 % 16, operands.rs2 % 16, operands.imm.bmod 16⟩
  | .j => ⟨operands.rd % 16, 0, 0, operands.imm.bmod 256⟩
  | .special => ⟨0, 0, 0, 0⟩

theorem read_pack_reduced (op : Opcode) (operands : Operands) :
    Operands.read op.format.layout (operands.pack op) = operands.reduced op.format := by
  have high (value : Int) : Field.high.valueOf (Field.high.residue value) = value % 16 :=
    Field.valueOf_residue_unsigned rfl value
  have mid (value : Int) : Field.mid.valueOf (Field.mid.residue value) = value % 16 :=
    Field.valueOf_residue_unsigned rfl value
  have low (value : Int) : Field.low.valueOf (Field.low.residue value) = value % 16 :=
    Field.valueOf_residue_unsigned rfl value
  have lowSigned (value : Int) :
      Field.lowSigned.valueOf (Field.lowSigned.residue value) = value.bmod 16 :=
    Field.valueOf_residue_signed (by decide) rfl value
  have wideSigned (value : Int) :
      Field.wideSigned.valueOf (Field.wideSigned.residue value) = value.bmod 256 :=
    Field.valueOf_residue_signed (by decide) rfl value
  cases format : op.format <;>
    simp (disch := decide) [Operands.read, Operands.pack, Operands.reduced, Layout.read, Layout.write,
      Format.layout, format, Field.extract_eq_valueOf, Field.bits_or, Field.bits_pack,
      Field.bits_pack_of_disjoint, high, mid, low, lowSigned, wideSigned]

theorem decode_pack_reduced (op : Opcode) (operands : Operands) :
    decode (operands.pack op) = ofOperands op (operands.reduced op.format) := by
  rw [decode_eq, bits_opcode_pack, Opcode.ofCode?_code]
  simp only [read_pack_reduced]
  exact if_neg fun stray => stray.2 (bits_payload_pack stray.1 operands)

theorem fit_reduced (operands : Operands) (op : Opcode) :
    (operands.reduced op.format).Fit op.format.layout := by
  rw [← read_pack_reduced]
  exact fit_read _ _

theorem word_eq_encode (instruction : Instruction) : instruction.word = instruction.encode := by
  cases instruction <;> rfl

/-- A word is the word of what it decodes to. The word of an instruction with an opcode decodes to a
well-formed instruction of that opcode, with the operands that the fields of its format leave. An
instruction that is well formed is therefore what its word decodes to, and no other well-formed
instruction has its word. -/
theorem decode_encode_reduced :
    (∀ word, (decode word).encode = word ∧ (decode word).word = word) ∧
    (∀ (instruction : Instruction) (op : Opcode), instruction.opcode? = some op →
      (decode instruction.encode).opcode? = some op ∧ (decode instruction.encode).WellFormed ∧
        (decode instruction.encode).operands = instruction.operands.reduced op.format) ∧
    (∀ instruction : Instruction, instruction.WellFormed → decode instruction.encode = instruction) ∧
    ∀ a b : Instruction, a.WellFormed → b.WellFormed → a.encode = b.encode → a = b := by
  refine ⟨?_, ?_, fun instruction => decode_encode, ?_⟩
  · intro word
    exact ⟨encode_decode word, (word_eq_encode _).trans (encode_decode word)⟩
  · intro instruction op code
    have fit := fit_reduced instruction.operands op
    rw [encode_of_opcode? code, decode_pack_reduced]
    exact ⟨opcode?_ofOperands op _, wellFormed_ofOperands fit, operands_ofOperands fit⟩
  · intro a b first second same
    rw [← decode_encode first, ← decode_encode second, same]

theorem decode_encode_reduced_misshapen :
    let misshapen := i .beq 200 17 250
    let branch := b .beq 1 0 (-6)
    misshapen.opcode? = some .beq ∧
      (decode misshapen.encode).operands = misshapen.operands.reduced .b ∧
      branch.WellFormed ∧ decode branch.encode = branch ∧
      misshapen.encode = branch.encode ∧ decode misshapen.encode = branch := by
  intro misshapen branch
  obtain ⟨inverse, reduces, inverts, injective⟩ := decode_encode_reduced
  have code : misshapen.opcode? = some .beq := rfl
  obtain ⟨-, formed, operands⟩ := reduces misshapen .beq code
  have branching : branch.WellFormed := ⟨rfl, by decide, by decide, by decide⟩
  have same : misshapen.encode = branch.encode := by decide
  have canonical : decode misshapen.encode = branch :=
    injective _ _ formed branching ((inverse misshapen.encode).1.trans same)
  exact ⟨code, operands, branching, inverts branch branching, same, canonical⟩

end Instruction

end Harvard16
