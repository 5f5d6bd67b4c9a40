import Harvard16.Machine.Operation
import Harvard16.Proofs.Execution
import Harvard16.Proofs.Listing
import Harvard16.Proofs.ProgramMemory

/-! Labels as targets of branches and jumps. No label name reads as a number, so a defined label is
always looked up. The distance to a label goes through a field that may be too narrow for it,
and the machine adds what it reads there to the address of the instruction. Main statement:
from a program without errors, wherever it is loaded, a transfer reaches its label when the
distance fits, and otherwise an address that is congruent to the label's. -/
namespace Harvard16

namespace Assembly

theorem toNat_of_isAlpha {c : Char} (h : c.isAlpha = true) : 65 ≤ c.toNat ∧ c.toNat ≤ 122 := by
  have ranges : (decide (65 ≤ c.val ∧ c.val ≤ 90) || 97 ≤ c.val && c.val ≤ 122) = true := h
  simp [UInt32.le_iff_toNat_le] at ranges
  omega

theorem not_numeric_of_starts {c : Char} (h : isLabelName.starts c = true) :
    c ≠ '-' ∧ c.isDigit = false := by
  simp only [isLabelName.starts, Bool.or_eq_true, beq_iff_eq] at h
  rcases h with (alpha | rfl) | rfl
  · have above := (toNat_of_isAlpha alpha).1
    constructor
    · rintro rfl
      exact absurd above (by decide)
    · simp [Char.isDigit, UInt32.le_iff_toNat_le]
      omega
  · decide
  · decide

theorem head_of_isLabelName {name : List Char} (h : isLabelName name = true) :
    ∃ c cs, name = c :: cs ∧ c ≠ '-' ∧ c.isDigit = false := by
  cases name with
  | nil => cases h
  | cons c cs =>
    have first : isLabelName.starts c = true := (Bool.and_eq_true_iff.1 h).1
    exact ⟨c, cs, rfl, not_numeric_of_starts first⟩

theorem looksNumeric_of_isLabelName {name : List Char} (h : isLabelName name = true) :
    looksNumeric name = false := by
  obtain ⟨c, cs, rfl, minus, digit⟩ := head_of_isLabelName h
  simp [looksNumeric, minus, digit]

theorem number?_of_isLabelName {name : List Char} (h : isLabelName name = true) :
    number? name = none := by
  obtain ⟨c, cs, rfl, minus, digit⟩ := head_of_isLabelName h
  have zero : c ≠ '0' := by
    rintro rfl
    exact absurd digit (by decide)
  simp [number?, magnitude?, minus, zero, Text.decimal?, digit]

theorem isLabelName_of_lookup? {lines : List PlacedLine} {name : List Char} {label : Label}
    (h : (collectLabels lines).lookup? (String.ofList name) = some label) :
    isLabelName name = true := by
  rw [lookup?_collectLabels] at h
  have named : label.name = String.ofList name := by simpa using List.find?_some h
  obtain ⟨placed, -, defined⟩ := List.mem_filterMap.1 (List.mem_of_find?_eq_some h)
  obtain ⟨text, -, rest⟩ := Option.bind_eq_some_iff.1 defined
  split at rest
  · rename_i valid
    cases rest
    have same : text = name := String.ofList_injective named
    rw [← same]
    exact valid.1
  · cases rest

theorem branchTarget_of_lookup? {lines : List PlacedLine} {name : List Char} {label : Label}
    (h : (collectLabels lines).lookup? (String.ofList name) = some label) (field : Field)
    (address : Nat) :
    branchTarget (collectLabels lines) field address name = .ok (distance field address label) := by
  have words := looksNumeric_of_isLabelName (isLabelName_of_lookup? h)
  simp [branchTarget, words, h]

end Assembly

theorem Registers.write_congr (registers : Registers) (i : Nat) {a b : Nat}
    (same : UInt16.ofNat a = UInt16.ofNat b) : registers.write i a = registers.write i b := by
  cases i with
  | zero => rfl
  | succ i => simp only [write, store, same]

namespace Machine

/-- `Takes machine tokens target reach registers`: a line with these tokens is a transfer to `target`
that the machine takes. It reaches back by `reach` and ahead by less, and has `registers` behind it. -/
inductive Takes (machine : Machine) :
    List (List Char) → List Char → Nat → Registers → Prop
  | beq {name rs1 rs2 target : List Char} (mnemonic : Opcode.ofMnemonic? name = some .beq)
      (equal : machine.registers.readNamed rs1 = machine.registers.readNamed rs2) :
      Takes machine [name, rs1, rs2, target] target 8 machine.registers
  | bne {name rs1 rs2 target : List Char} (mnemonic : Opcode.ofMnemonic? name = some .bne)
      (differ : machine.registers.readNamed rs1 ≠ machine.registers.readNamed rs2) :
      Takes machine [name, rs1, rs2, target] target 8 machine.registers
  | jal {name rd target : List Char} (mnemonic : Opcode.ofMnemonic? name = some .jal) :
      Takes machine [name, rd, target] target 128
        (machine.registers.writeNamed rd (machine.pc.toNat + 1))

variable (machine : Machine) {word : UInt16}

theorem perform_branch {op : Opcode} {alu : AluOp} {rs1 rs2 : Nat} {offset : Int}
    (decoded : Instruction.decode word = .b op rs1 rs2 offset)
    (signals : Signals.ofOpcode op = .comparison alu)
    (taken : alu.result (machine.registers.read rs1) (machine.registers.read rs2) = 1) :
    (machine.perform word).1 = .ok true ∧ (machine.perform word).2.registers = machine.registers ∧
      (machine.perform word).2.pc = machine.target offset := by
  have result : Calculation.result
      ⟨alu, (machine.seen word).registers.read rs1, (machine.seen word).registers.read rs2⟩ = 1 := taken
  rw [perform_eq, decoded, execute_branch _ _ _ _ signals]
  simp only [result]
  exact ⟨rfl, rfl, rfl⟩

theorem perform_jump {rd : Nat} {offset : Int} (decoded : Instruction.decode word = .j .jal rd offset) :
    (machine.perform word).1 = .ok true ∧
      (machine.perform word).2.registers = machine.registers.write rd (machine.pc.toNat + 1) ∧
      (machine.perform word).2.pc = machine.target offset := by
  have following : UInt16.ofNat (machine.pc.toNat + 1) = UInt16.ofNat (machine.pc + 1).toNat := by
    apply UInt16.toNat_inj.1
    simp
  rw [machine.registers.write_congr rd following]
  rw [perform_eq, decoded, execute_jump]
  exact ⟨rfl, rfl, rfl⟩

end Machine

namespace Assembly

theorem toNat_add_ofInt (a : UInt16) (z : Int) :
    ((a + UInt16.ofInt z).toNat : Int) = (a.toNat + z) % 65536 := by
  simp [UInt16.ofInt]
  omega

/-- From the instruction's address the distance leads to the label if it fits, and to an address that
is congruent to the label's in any case. -/
theorem target_distance {field : Field} (h : field.InWord) (signed : field.signed = true)
    {machine : Machine} {start address : Nat} (here : machine.pc.toNat = start + address)
    (label : Label) :
    let target := machine.target (distance field address label)
    target.toNat % (2 * field.half) = (start + label.address) % (2 * field.half) ∧
      (-(field.half : Int) ≤ label.address - address → (label.address - address : Int) < field.half →
        target = UInt16.ofNat (start + label.address)) := by
  intro target
  have exact : (target.toNat : Int) = (start + address + distance field address label) % 65536 := by
    have sum := toNat_add_ofInt machine.pc (distance field address label)
    rwa [here, Int.natCast_add] at sum
  constructor
  · have divides : ((2 * field.half : Nat) : Int) ∣ 65536 := by
      rw [← field.span_eq_half h, field.span_eq]
      exact Int.ofNat_dvd.2 (Nat.pow_dvd_pow 2 (by have := h.fits_word; omega : field.width ≤ 16))
    have residue : distance field address label % (2 * field.half : Nat) =
        (label.address - address : Int) % (2 * field.half : Nat) := by
      rw [← field.span_eq_half h]
      exact Field.extract_pack_emod h _
    apply Int.ofNat_inj.1
    rw [Int.natCast_emod, exact, Int.emod_emod_of_dvd _ divides, Int.add_emod, residue, ← Int.add_emod,
      Int.natCast_emod, Int.natCast_add]
    congr 1
    omega
  · intro least greatest
    have fits : field.fits (label.address - address) = true := by
      simp [Field.fits, Field.least, Field.greatest, signed]
      omega
    have same : distance field address label = label.address - address :=
      Field.extract_pack_of_fits h fits
    apply UInt16.toNat_inj.1
    apply Int.ofNat_inj.1
    rw [exact, same, UInt16.toNat_ofNat']
    omega

theorem step_of_listed {source : String} (correct : (ofSource source).errors = []) {entry : ListingEntry}
    (listed : entry ∈ (ofSource source).listing) (nonzero : entry.word ≠ 0) {machine : Machine}
    (active : machine.state ≠ .halted) {start : Nat}
    (held : machine.program.Holds start (ofSource source).words)
    (here : machine.pc.toNat = start + entry.address) :
    machine.step = machine.perform entry.word := by
  have word := getElem?_words correct listed
  have found : machine.program.words[machine.pc.toNat]? = some entry.word := by
    rw [here, ← word]
    exact held _ (List.getElem?_eq_some_iff.1 word).1
  have halted : machine.isHalted = false := by simpa [Machine.isHalted] using active
  exact Machine.step_of_fetch halted (Machine.fetch_of_getElem? found (.inl nonzero))

theorem instructionOf_branch {labels : LabelTable} {address : Nat} {op : Opcode} (format : op.format = .b)
    {rs1 rs2 target : List Char} {instruction : Instruction}
    (h : instructionOf labels address op [rs1, rs2, target] = .ok instruction) :
    ∃ i j offset, RegisterName.index? rs1 = some i ∧ RegisterName.index? rs2 = some j ∧
      branchTarget labels .lowSigned address target = .ok offset ∧ instruction = .b op i j offset := by
  unfold instructionOf at h
  simp only [format] at h
  obtain ⟨i, first, h⟩ := bind_eq_ok_iff.1 h
  obtain ⟨j, second, h⟩ := bind_eq_ok_iff.1 h
  obtain ⟨offset, distant, h⟩ := bind_eq_ok_iff.1 h
  cases h
  exact ⟨i, j, offset, register_eq_ok_iff.1 first, register_eq_ok_iff.1 second, distant, rfl⟩

theorem instructionOf_jump {labels : LabelTable} {address : Nat} {rd target : List Char}
    {instruction : Instruction} (h : instructionOf labels address .jal [rd, target] = .ok instruction) :
    ∃ i offset, RegisterName.index? rd = some i ∧
      branchTarget labels .wideSigned address target = .ok offset ∧
      instruction = .j .jal i offset := by
  obtain ⟨i, first, h⟩ := bind_eq_ok_iff.1 h
  obtain ⟨offset, distant, h⟩ := bind_eq_ok_iff.1 h
  cases h
  exact ⟨i, offset, register_eq_ok_iff.1 first, distant, rfl⟩

theorem target_of_transfer {source : String} (correct : (ofSource source).errors = [])
    {entry : ListingEntry} (listed : entry ∈ (ofSource source).listing) {machine : Machine}
    (active : machine.state ≠ .halted) {start : Nat}
    (held : machine.program.Holds start (ofSource source).words)
    (here : machine.pc.toNat = start + entry.address) {target : List Char} {reach : Nat}
    {registers : Registers}
    (taken : machine.Takes (Text.tokens isSeparator entry.source.toList) target reach registers)
    {label : Label} (defined : (ofSource source).labels.lookup? (String.ofList target) = some label) :
    ∃ field : Field, field.InWord ∧ field.signed = true ∧ field.half = reach ∧
      machine.step.1 = .ok true ∧ machine.step.2.registers = registers ∧
      machine.step.2.pc = machine.target (distance field entry.address label) := by
  obtain ⟨instruction, encoded, spelled⟩ := exists_of_mem_listing listed
  have decoded : Instruction.decode entry.word = instruction := by
    rw [encoded]
    exact decode_encode_of_parse spelled
  have resolved (field : Field) := branchTarget_of_lookup? defined field entry.address
  have nonzero (other : ∀ op rd rs1 rs2, instruction ≠ .r op rd rs1 rs2) : entry.word ≠ 0 := by
    intro zero
    rw [zero] at decoded
    exact other _ _ _ _ decoded.symm
  unfold parseInstruction at spelled
  generalize Text.tokens isSeparator entry.source.toList = tokens at taken spelled
  cases taken with
  | @beq name rs1 rs2 target mnemonic equal =>
    simp only [List.headD_cons, mnemonic, List.tail_cons] at spelled
    obtain ⟨i, j, offset, first, second, distant, rfl⟩ := instructionOf_branch rfl spelled
    cases (resolved .lowSigned).symm.trans distant
    simp only [Registers.readNamed, first, second, Option.elim_some] at equal
    rw [step_of_listed correct listed (nonzero nofun) active held here]
    exact ⟨.lowSigned, by decide, rfl, rfl, machine.perform_branch decoded rfl (if_pos equal)⟩
  | @bne name rs1 rs2 target mnemonic differ =>
    simp only [List.headD_cons, mnemonic, List.tail_cons] at spelled
    obtain ⟨i, j, offset, first, second, distant, rfl⟩ := instructionOf_branch rfl spelled
    cases (resolved .lowSigned).symm.trans distant
    simp only [Registers.readNamed, first, second, Option.elim_some] at differ
    rw [step_of_listed correct listed (nonzero nofun) active held here]
    exact ⟨.lowSigned, by decide, rfl, rfl, machine.perform_branch decoded rfl (if_neg differ)⟩
  | @jal name rd target mnemonic =>
    simp only [List.headD_cons, mnemonic, List.tail_cons] at spelled
    obtain ⟨i, offset, first, distant, rfl⟩ := instructionOf_jump spelled
    cases (resolved .wideSigned).symm.trans distant
    rw [step_of_listed correct listed (nonzero nofun) active held here]
    rw [Registers.writeNamed_eq, first]
    exact ⟨.wideSigned, by decide, rfl, rfl, machine.perform_jump decoded⟩

/-- A defined label is no number, and as an operand it stands for the distance to it, taken into the
field. From a source without errors, a transfer to a label goes to the label's place in memory if
the distance is within reach, and otherwise to a place that is congruent to it. -/
theorem step_transfer (source : String) :
    (∀ (name : List Char) (d : Nat), (ofSource source).label? (String.ofList name) = some d →
      number? name = none ∧ ∀ field address,
        branchTarget (ofSource source).labels field address name =
          .ok (field.extract (field.pack (d - address)))) ∧
    ((ofSource source).errors = [] → ∀ entry ∈ (ofSource source).listing,
      ∀ (machine : Machine) (start : Nat) (target : List Char) (reach : Nat) (registers : Registers)
        (d : Nat),
      machine.state ≠ .halted → machine.program.Holds start (ofSource source).words →
      machine.pc.toNat = start + entry.address →
      machine.Takes (Text.tokens isSeparator entry.source.toList) target reach registers →
      (ofSource source).label? (String.ofList target) = some d →
        machine.step.1 = .ok true ∧ machine.step.2.registers = registers ∧
        machine.step.2.pc.toNat % (2 * reach) = (start + d) % (2 * reach) ∧
        (-(reach : Int) ≤ d - entry.address → (d - entry.address : Int) < reach →
          machine.step.2.pc = UInt16.ofNat (start + d))) := by
  constructor
  · intro name d defined
    obtain ⟨label, found, rfl⟩ := Option.map_eq_some_iff.1 defined
    exact ⟨number?_of_isLabelName (isLabelName_of_lookup? found), branchTarget_of_lookup? found⟩
  · intro correct entry listed machine start target reach registers d active held here taken defined
    obtain ⟨label, found, rfl⟩ := Option.map_eq_some_iff.1 defined
    obtain ⟨field, inWord, signed, rfl, answer, linked, arrived⟩ :=
      target_of_transfer correct listed active held here taken found
    refine ⟨answer, linked, ?_⟩
    rw [arrived]
    exact target_distance inWord signed here label

def loop : String := "loop: addi t0, t0, 1\n bne t0, t1, loop"

def inLoop : Machine :=
  ((Machine.build { Config.default with programSize := 4 }).session
    [.load [0x5551, 0xB56F] 1, .writeRegister 6 7, .step]).2

theorem step_transfer_loop :
    (ofSource loop).errors = [] ∧ inLoop.state ≠ .halted ∧
      inLoop.program.Holds 1 (ofSource loop).words ∧
      inLoop.Takes [['b', 'n', 'e'], ['t', '0'], ['t', '1'], ['l', 'o', 'o', 'p']] ['l', 'o', 'o', 'p'] 8
        inLoop.registers ∧
      inLoop.step.2.pc = 1 := by
  have listed : ⟨1, 2, "bne t0, t1, loop", 0xB56F⟩ ∈ (ofSource loop).listing := by decide +kernel
  have correct : (ofSource loop).errors = [] := by decide +kernel
  have active : inLoop.state ≠ .halted := by decide
  have words : (ofSource loop).words = [0x5551, 0xB56F] := by decide +kernel
  have held : inLoop.program.Holds 1 (ofSource loop).words := by
    have loaded : (ProgramMemory.blank 4).load [0x5551, 0xB56F] 1 = .ok inLoop.program := rfl
    rw [words]
    exact ProgramMemory.holds_load loaded
  have taken : inLoop.Takes [['b', 'n', 'e'], ['t', '0'], ['t', '1'], ['l', 'o', 'o', 'p']]
      ['l', 'o', 'o', 'p'] 8 inLoop.registers := .bne (by decide) (by decide)
  obtain ⟨-, arrives⟩ := step_transfer loop
  have defined : (ofSource loop).label? "loop" = some 0 := by decide +kernel
  obtain ⟨-, -, -, near⟩ := arrives correct _ listed inLoop 1 _ _ _ 0 active held rfl taken defined
  exact ⟨correct, active, held, taken, near (by decide) (by decide)⟩

end Assembly

end Harvard16
