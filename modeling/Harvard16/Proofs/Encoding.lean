import Harvard16.Instruction.Basic
import Harvard16.Proofs.BitFields

/-! Words and instructions. Every opcode lays out its operands in places that do not overlap, so a word
is taken apart and put together again without loss: a word decodes to an instruction in the
shape of its opcode's format, and such an instruction is what its own word decodes to. -/
namespace Harvard16

namespace Field

instance (f : Field) : Decidable f.InWord :=
  decidable_of_iff (1 ≤ f.width ∧ f.shift + f.width ≤ 16) ⟨fun h => ⟨h.1, h.2⟩, fun h => ⟨h.1, h.2⟩⟩

instance (f g : Field) : Decidable (f.Disjoint g) := inferInstanceAs (Decidable (_ ∨ _))

theorem residue_valueOf (f : Field) {bits : Nat} (bound : bits < f.span) :
    f.residue (f.valueOf bits) = bits := by
  have exact : f.valueOf bits % f.span = bits := by
    unfold valueOf
    split
    · rw [Int.sub_emod_right, Int.emod_eq_of_lt (by omega) (by omega)]
    · rw [Int.emod_eq_of_lt (by omega) (by omega)]
  rw [residue, exact, Int.toNat_natCast]

theorem testBit_pack_extract {f : Field} (h : f.InWord) (word : UInt16) (i : Nat) :
    (f.pack (f.extract word)).toNat.testBit i =
      (decide (f.shift ≤ i ∧ i < f.shift + f.width) && word.toNat.testBit i) := by
  rw [testBit_pack h, extract_eq_valueOf, residue_valueOf f (f.bits_lt word), testBit_bits]
  by_cases low : f.shift ≤ i
  · have place : f.shift + (i - f.shift) = i := by omega
    have width : i - f.shift < f.width ↔ i < f.shift + f.width := by omega
    simp [low, place, width]
  · simp [low]

end Field

namespace Instruction

def Operands.read (layout : Layout) (word : UInt16) : Operands :=
  ⟨Layout.read layout.rd word, Layout.read layout.rs1 word, Layout.read layout.rs2 word,
    Layout.read layout.imm word⟩

def ofOperands (op : Opcode) (operands : Operands) : Instruction :=
  match op.format with
  | .r => .r op operands.rd.toNat operands.rs1.toNat operands.rs2.toNat
  | .i => .i op operands.rd.toNat operands.rs1.toNat operands.imm.toNat
  | .s => .s op operands.rs2.toNat operands.rs1.toNat operands.imm.toNat
  | .b => .b op operands.rs1.toNat operands.rs2.toNat operands.imm
  | .j => .j op operands.rd.toNat operands.imm
  | .special => .special op

/-- Whether each operand fits its place, and is zero where it has none. -/
def Operands.Fit (layout : Layout) (operands : Operands) : Prop :=
  place layout.rd operands.rd ∧ place layout.rs1 operands.rs1 ∧ place layout.rs2 operands.rs2 ∧
    place layout.imm operands.imm
where
  place (field : Option Field) (value : Int) : Prop := field.elim (value = 0) (·.fits value = true)

/-- The instructions that words stand for, invalid ones apart: the shape is that of the opcode's
format, and every operand fits its place. -/
def WellFormed : Instruction → Prop
  | .r op rd rs1 rs2 => op.format = .r ∧ rd < 16 ∧ rs1 < 16 ∧ rs2 < 16
  | .i op rd rs1 imm => op.format = .i ∧ rd < 16 ∧ rs1 < 16 ∧ imm < 16
  | .s op rs2 rs1 offset => op.format = .s ∧ rs2 < 16 ∧ rs1 < 16 ∧ offset < 16
  | .b op rs1 rs2 offset =>
    op.format = .b ∧ rs1 < 16 ∧ rs2 < 16 ∧ Field.lowSigned.fits offset = true
  | .j op rd offset => op.format = .j ∧ rd < 16 ∧ Field.wideSigned.fits offset = true
  | .special op => op.format = .special
  | .invalid _ => False

@[simp] theorem opcode?_ofOperands (op : Opcode) (operands : Operands) :
    (ofOperands op operands).opcode? = some op := by
  unfold ofOperands
  cases op.format <;> rfl

theorem encode_of_opcode? {instruction : Instruction} {op : Opcode} (h : instruction.opcode? = some op) :
    instruction.encode = instruction.operands.pack op := by
  cases instruction <;> simp_all [opcode?, encode]

theorem decode_eq (word : UInt16) :
    decode word =
      match Opcode.ofCode? (Field.opcode.bits word) with
      | none => .invalid word
      | some op =>
        if op.format = .special ∧ Field.payload.bits word ≠ 0 then .invalid word
        else ofOperands op (.read op.format.layout word) := by
  cases found : Opcode.ofCode? (Field.opcode.bits word) with
  | none => simp only [decode, found]
  | some op =>
    simp only [decode, found, ofOperands, Operands.read]
    cases op.format <;> simp

theorem decode_cases (word : UInt16) :
    (decode word = .invalid word ∧
      (Field.opcode.bits word = 13 ∨
        14 ≤ Field.opcode.bits word ∧ Field.payload.bits word ≠ 0)) ∨
      ∃ op, op.code = Field.opcode.bits word ∧
        (op.format = .special → Field.payload.bits word = 0) ∧
        decode word = ofOperands op (.read op.format.layout word) := by
  rw [decode_eq]
  cases found : Opcode.ofCode? (Field.opcode.bits word) with
  | none =>
    have slot : ∀ c < 16, Opcode.ofCode? c = none → c = 13 := by decide
    exact .inl ⟨rfl, .inl (slot _ (Field.opcode.bits_lt word) found)⟩
  | some op =>
    have code := Opcode.ofCode?_eq_some_iff.1 found
    rw [Nat.mod_eq_of_lt (show _ < 16 from Field.opcode.bits_lt word)] at code
    by_cases stray : op.format = .special ∧ Field.payload.bits word ≠ 0
    · have late : ∀ other : Opcode, other.format = .special → 14 ≤ other.code := by
        intro other
        cases other <;> decide
      exact .inl ⟨if_pos stray, .inr ⟨code ▸ late op stray.1, stray.2⟩⟩
    · refine .inr ⟨op, code, fun special => ?_, if_neg stray⟩
      exact Decidable.byContradiction fun payload => stray ⟨special, payload⟩

theorem fit_read (format : Format) (word : UInt16) :
    (Operands.read format.layout word).Fit format.layout := by
  have fits (f : Field) (h : f.InWord) : f.fits (f.extract word) = true :=
    Field.fits_valueOf h (f.bits_lt word)
  cases format <;>
    simp [Operands.Fit, Operands.Fit.place, Operands.read, Layout.read, Format.layout,
      fits .high (by decide), fits .mid (by decide), fits .low (by decide),
      fits .lowSigned (by decide), fits .wideSigned (by decide)]

theorem operands_ofOperands {op : Opcode} {operands : Operands} (fit : operands.Fit op.format.layout) :
    (ofOperands op operands).operands = operands := by
  have nonneg {f : Field} {value : Int} (unsigned : f.signed = false) (h : f.fits value = true) :
      0 ≤ value := by
    simp [Field.fits, Field.least, unsigned] at h
    exact h.1
  obtain ⟨rd, rs1, rs2, imm⟩ := operands
  cases format : op.format <;>
    simp only [format, Operands.Fit, Operands.Fit.place, Format.layout, Option.elim] at fit <;>
    obtain ⟨frd, frs1, frs2, fimm⟩ := fit <;>
    simp only [ofOperands, format, Instruction.operands, Operands.mk.injEq] <;>
    grind [Field.high, Field.mid, Field.low]

theorem read_pack {op : Opcode} {operands : Operands} (fit : operands.Fit op.format.layout) :
    Operands.read op.format.layout (operands.pack op) = operands := by
  obtain ⟨rd, rs1, rs2, imm⟩ := operands
  cases format : op.format <;>
    simp only [format, Operands.Fit, Operands.Fit.place, Format.layout, Option.elim] at fit <;>
    obtain ⟨frd, frs1, frs2, fimm⟩ := fit <;>
    simp (disch := first | decide | assumption) [Operands.read, Operands.pack, Layout.read,
      Layout.write, Format.layout, Field.extract_eq_valueOf, Field.bits_or, Field.bits_pack,
      Field.bits_pack_of_disjoint, Field.valueOf_residue_of_fits, *]

theorem bits_opcode_pack (op : Opcode) (operands : Operands) :
    Field.opcode.bits (operands.pack op) = op.code := by
  have code : Field.opcode.residue op.code = op.code := by cases op <;> rfl
  cases format : op.format <;>
    simp (disch := decide) [Operands.pack, Layout.write, Format.layout, format, Field.bits_or,
      Field.bits_pack, Field.bits_pack_of_disjoint, code]

theorem bits_payload_pack {op : Opcode} (special : op.format = .special) (operands : Operands) :
    Field.payload.bits (operands.pack op) = 0 := by
  simp (disch := decide) [Operands.pack, Layout.write, Format.layout, special,
    Field.bits_pack_of_disjoint]

theorem decode_pack {op : Opcode} {operands : Operands} (fit : operands.Fit op.format.layout) :
    decode (operands.pack op) = ofOperands op operands := by
  rw [decode_eq, bits_opcode_pack, Opcode.ofCode?_code]
  simp only [read_pack fit]
  exact if_neg fun stray => stray.2 (bits_payload_pack stray.1 operands)

theorem wellFormed_ofOperands {op : Opcode} {operands : Operands}
    (fit : operands.Fit op.format.layout) : (ofOperands op operands).WellFormed := by
  have lt {f : Field} {value : Int} (unsigned : f.signed = false) (h : f.fits value = true) :
      value.toNat < f.span := Field.toNat_lt_of_fits unsigned h
  cases format : op.format <;>
    simp only [format, Operands.Fit, Operands.Fit.place, Format.layout, Option.elim] at fit <;>
    obtain ⟨hd, h1, h2, himm⟩ := fit <;>
    simp only [ofOperands, format]
  case r => exact ⟨format, lt rfl hd, lt rfl h1, lt rfl h2⟩
  case i => exact ⟨format, lt rfl hd, lt rfl h1, lt rfl himm⟩
  case s => exact ⟨format, lt rfl h2, lt rfl h1, lt rfl himm⟩
  case b => exact ⟨format, lt rfl h1, lt rfl h2, himm⟩
  case j => exact ⟨format, lt rfl hd, himm⟩
  case special => exact format

theorem WellFormed.fit {instruction : Instruction} (h : instruction.WellFormed) :
    ∃ op, instruction.operands.Fit op.format.layout ∧
      ofOperands op instruction.operands = instruction := by
  have high (n : Nat) : Field.high.fits n = true ↔ n < 16 := Field.fits_natCast rfl n
  have mid (n : Nat) : Field.mid.fits n = true ↔ n < 16 := Field.fits_natCast rfl n
  have low (n : Nat) : Field.low.fits n = true ↔ n < 16 := Field.fits_natCast rfl n
  cases instruction with
  | invalid => exact h.elim
  | special op =>
    have format : op.format = .special := h
    refine ⟨op, ?_, ?_⟩
    · simp [format, Format.layout, Operands.Fit, Operands.Fit.place, operands]
    · simp [ofOperands, format]
  | r op | i op | s op | b op | j op =>
    obtain ⟨format, bounds⟩ := h
    refine ⟨op, ?_, ?_⟩
    · simpa [format, Format.layout, Operands.Fit, Operands.Fit.place, operands, high, mid, low,
        and_left_comm, and_assoc] using bounds
    · simp [ofOperands, format, operands]

theorem decode_encode {instruction : Instruction} (h : instruction.WellFormed) :
    decode instruction.encode = instruction := by
  obtain ⟨op, fit, shape⟩ := h.fit
  have code : instruction.opcode? = some op := by rw [← shape, opcode?_ofOperands]
  rw [encode_of_opcode? code, decode_pack fit, shape]

theorem pack_read {op : Opcode} {word : UInt16} (code : op.code = Field.opcode.bits word)
    (payload : op.format = .special → Field.payload.bits word = 0) :
    (Operands.read op.format.layout word).pack op = word := by
  have head : (op.code : Int) = Field.opcode.extract word := by
    rw [code]
    rfl
  have cover (i : Nat) (set : word.toNat.testBit i = true) : i < 16 :=
    Nat.lt_of_not_le fun high => by
      have bound : word.toNat < 2 ^ i :=
        Nat.lt_of_lt_of_le word.toNat_lt (Nat.pow_le_pow_right (by decide) high)
      simp [Nat.testBit_lt_two_pow bound] at set
  have clear (special : op.format = .special) (i : Nat) (low : i < 12) :
      word.toNat.testBit i = false := by
    have bit := Field.testBit_bits .payload word i
    rw [payload special] at bit
    simpa [Field.payload, low] using bit.symm
  apply UInt16.toNat_inj.1
  apply Nat.eq_of_testBit_eq
  intro i
  cases set : word.toNat.testBit i with
  | false =>
    cases format : op.format <;>
      simp (disch := decide) [Operands.pack, Operands.read, Layout.read, Layout.write, Format.layout,
        format, head, Field.testBit_pack_extract, set]
  | true =>
    have low := cover i set
    have used (special : op.format = .special) : 12 ≤ i :=
      Nat.le_of_not_lt fun below => by simp [clear special i below] at set
    cases format : op.format <;>
      simp (disch := decide) [Operands.pack, Operands.read, Layout.read, Layout.write, Format.layout,
        format, head, Field.testBit_pack_extract, set, Field.opcode, Field.high, Field.mid, Field.low,
        Field.lowSigned, Field.wideSigned]
    case special => exact ⟨used format, low⟩
    all_goals omega

theorem wellFormed_decode (word : UInt16) : (decode word).WellFormed ∨ decode word = .invalid word := by
  obtain ⟨invalid, -⟩ | ⟨op, -, -, decoded⟩ := decode_cases word
  · exact .inr invalid
  · rw [decoded]
    exact .inl (wellFormed_ofOperands (fit_read op.format word))

theorem encode_decode (word : UInt16) : (decode word).encode = word := by
  obtain ⟨invalid, -⟩ | ⟨op, code, payload, decoded⟩ := decode_cases word
  · rw [invalid]
    rfl
  · have code? : (decode word).opcode? = some op := by rw [decoded, opcode?_ofOperands]
    rw [encode_of_opcode? code?, decoded, operands_ofOperands (fit_read op.format word),
      pack_read code payload]

end Instruction

end Harvard16
