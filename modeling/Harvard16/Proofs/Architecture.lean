import Harvard16.Proofs.Effects
import Harvard16.Proofs.Reachable

/-! The machine as its programs see it, and what an instruction word means there. A word is read by its
four hexadecimal digits; arithmetic is that of sixteen-bit words. The books of the machine
(counters, histories, logs and signals) do not appear. Main statement: under the graceful
policy a step of a reachable machine inside its program does exactly what the word means. -/
namespace Harvard16

/-- Registers, flags, the two memories and where execution stands. The data words are numbered from
`dataBase` on. -/
@[ext] structure Architecture where
  pc : UInt16
  state : RunState
  registers : Fin 16 → UInt16
  flags : Flags
  dataBase : UInt16
  data : Array UInt16
  program : ProgramMemory

namespace Architecture

def digit (word : UInt16) (place : Nat) : Fin 16 := Fin.ofNat 16 (word.toNat / 16 ^ place)

def signed (span n : Nat) : Int := if 2 * n < span then n else (n : Int) - span

/-- Register zero drops what is written to it. -/
def write (s : Architecture) (i : Fin 16) (value : UInt16) : Architecture :=
  { s with registers := fun j => if j = i ∧ i ≠ 0 then value else s.registers j }

def setFlags (s : Architecture) (result : UInt16) (carry : Bool) : Architecture :=
  { s with flags := ⟨result = 0, carry, 0x8000 ≤ result⟩ }

def advance (s : Architecture) : Architecture := { s with pc := s.pc + 1, state := .running }

def branch (s : Architecture) (holds : Bool) (target : UInt16) : Architecture :=
  let compared := s.advance.setFlags (if holds then 1 else 0) false
  { compared with pc := if holds then target else s.pc + 1 }

/-- The meaning of a word. -/
def next (s : Architecture) (word : UInt16) : Architecture :=
  let h := digit word 2
  let m := digit word 1
  let l := digit word 0
  let a := s.registers m
  let b := s.registers l
  let imm := UInt16.ofNat l
  let e := (a + imm).toNat
  let calculate (result : UInt16) (carry : Bool) := (s.advance.setFlags result carry).write h result
  match digit word 3 with
  | 0 => calculate (a + b) (0xFFFF < a.toNat + b.toNat)
  | 1 => calculate (a - b) false
  | 2 => calculate (a &&& b) false
  | 3 => calculate (a ||| b) false
  | 4 => calculate (a ^^^ b) false
  | 5 => calculate (a + imm) (0xFFFF < a.toNat + imm.toNat)
  | 6 => calculate (a &&& imm) false
  | 7 => calculate (a ||| imm) false
  | 8 => s.advance.write h (s.data[e]?.getD 0)
  | 9 => { s.advance with data := s.data.setIfInBounds e (s.registers h) }
  | 10 => s.branch (s.registers h = a) (s.pc + UInt16.ofInt (signed 16 l))
  | 11 => s.branch (s.registers h ≠ a) (s.pc + UInt16.ofInt (signed 16 l))
  | 12 =>
    let jumped := { s.advance with pc := s.pc + UInt16.ofInt (signed 256 (word.toNat % 256)) }
    jumped.write h (s.pc + 1)
  | 15 => if word = 0xF000 then { s with state := .halted } else s.advance
  | _ => s.advance

end Architecture

def Machine.architecture (machine : Machine) : Architecture :=
  { pc := machine.pc
    state := machine.state
    registers := fun i => machine.registers.read i
    flags := machine.alu.flags
    dataBase := machine.data.base
    data := machine.data.words
    program := machine.program }

namespace Architecture

theorem bits_opcode (word : UInt16) : Field.opcode.bits word = digit word 3 := by
  simp [Field.bits, Field.opcode, Field.span, digit, Nat.shiftRight_eq_div_pow]

theorem extract_high (word : UInt16) : Field.high.extract word = digit word 2 := by
  simp [Field.extract, Field.bits, Field.high, Field.span, digit, Nat.shiftRight_eq_div_pow]

theorem extract_mid (word : UInt16) : Field.mid.extract word = digit word 1 := by
  simp [Field.extract, Field.bits, Field.mid, Field.span, digit, Nat.shiftRight_eq_div_pow]

theorem extract_low (word : UInt16) : Field.low.extract word = digit word 0 := by
  simp [Field.extract, Field.bits, Field.low, Field.span, digit]

theorem extract_lowSigned (word : UInt16) : Field.lowSigned.extract word = signed 16 (digit word 0) := by
  simp only [Field.extract, Field.bits, Field.half, Field.lowSigned, Field.span, digit, signed]
  simp
  split <;> split <;> omega

theorem extract_wideSigned (word : UInt16) :
    Field.wideSigned.extract word = signed 256 (word.toNat % 256) := by
  simp only [Field.extract, Field.bits, Field.half, Field.wideSigned, Field.span, signed]
  simp
  split <;> split <;> omega

theorem read_layout (format : Format) (word : UInt16) :
    Instruction.Operands.read format.layout word =
      let h := digit word 2
      let m := digit word 1
      let l := digit word 0
      match format with
      | .r => ⟨h, m, l, 0⟩
      | .i => ⟨h, m, 0, l⟩
      | .s => ⟨0, m, h, l⟩
      | .b => ⟨0, h, m, signed 16 l⟩
      | .j => ⟨h, 0, 0, signed 256 (word.toNat % 256)⟩
      | .special => ⟨0, 0, 0, 0⟩ := by
  cases format <;>
    simp [Instruction.Operands.read, Layout.read, Format.layout, extract_high, extract_mid,
      extract_low, extract_lowSigned, extract_wideSigned]

theorem payload_eq_zero_iff {word : UInt16} (head : digit word 3 = 15) :
    Field.payload.bits word = 0 ↔ word = 0xF000 := by
  have top : word.toNat / 4096 % 16 = 15 := congrArg Fin.val head
  have bound := word.toNat_lt
  rw [← UInt16.toNat_inj]
  simp [Field.bits, Field.payload, Field.span]
  omega

theorem read_write (registers : Registers) (i j : Fin 16) (value : UInt16) :
    (registers.write i value.toNat).read j =
      if j = i ∧ i ≠ 0 then value else registers.read j := by
  have places : (i : Nat) = j ∧ Registers.writable i = true ↔ j = i ∧ i ≠ 0 := by
    simp [Registers.writable]
    omega
  rw [Registers.read_write, UInt16.ofNat_toNat]
  simp only [places]

end Architecture

theorem AluOp.carries_add (a b : UInt16) : add.carries a b = decide (0xFFFF < a.toNat + b.toNat) := by
  simp [carries]

theorem AluOp.carries_of_ne {op : AluOp} (other : op ≠ add) (a b : UInt16) : op.carries a b = false := by
  simp [carries, other]

theorem AluOp.result_eq (a b : UInt16) : eq.result a b = if decide (a = b) then 1 else 0 := by
  simp [result]

theorem AluOp.result_ne (a b : UInt16) : ne.result a b = if decide (a ≠ b) then 1 else 0 := by
  simp [result]

namespace Machine

open Architecture

variable {machine : Machine} {word : UInt16}

/-- The answer is that of a machine in this state, and this state is what can be seen after it. -/
def Shows (outcome : Except Fault Bool × Machine) (seen : Architecture) : Prop :=
  outcome.1 = .ok (decide (seen.state ≠ .halted)) ∧ outcome.2.architecture = seen

theorem shows_register {op : Opcode} {alu : AluOp} {rd rs1 rs2 : Fin 16}
    (decoded : Instruction.decode word = .r op rd rs1 rs2)
    (signals : Signals.ofOpcode op = .arithmetic alu .register) {value : UInt16} {carry : Bool}
    (result : alu.result (machine.registers.read rs1) (machine.registers.read rs2) = value)
    (carries : alu.carries (machine.registers.read rs1) (machine.registers.read rs2) = carry) :
    Shows (machine.perform word)
      ((machine.architecture.advance.setFlags value carry).write rd value) := by
  subst result carries
  rw [perform_eq, decoded, execute_register _ _ _ _ signals]
  constructor
  · rfl
  · simp only [architecture, retire, read_write]
    rfl

theorem shows_immediate {op : Opcode} {alu : AluOp} {rd rs1 imm : Fin 16}
    (decoded : Instruction.decode word = .i op rd rs1 imm)
    (signals : Signals.ofOpcode op = .arithmetic alu .immediate) {value : UInt16} {carry : Bool}
    (result : alu.result (machine.registers.read rs1) (UInt16.ofNat imm) = value)
    (carries : alu.carries (machine.registers.read rs1) (UInt16.ofNat imm) = carry) :
    Shows (machine.perform word)
      ((machine.architecture.advance.setFlags value carry).write rd value) := by
  subst result carries
  rw [perform_eq, decoded, execute_immediate _ _ _ _ signals]
  constructor
  · rfl
  · simp only [architecture, retire, read_write]
    rfl

theorem shows_load {rd rs1 imm : Fin 16} (graceful : machine.faults.policy = .graceful)
    (decoded : Instruction.decode word = .i .lw rd rs1 imm) :
    let e := (machine.registers.read rs1 + UInt16.ofNat imm).toNat
    Shows (machine.perform word)
      (machine.architecture.advance.write rd (machine.data.words[e]?.getD 0)) := by
  intro e
  have place : (machine.seen word).data.peek? ((machine.seen word).dataAddress rs1 imm) =
      machine.data.words[e]? := machine.data.peek?_offset e
  have policy : (machine.seen word).faults.policy = .graceful := graceful
  rw [perform_eq, decoded, execute_load, place]
  cases machine.data.words[e]? with
  | some value =>
    constructor
    · rfl
    · simp only [architecture, retire, read_write]
      rfl
  | none =>
    rw [report_graceful policy]
    constructor
    · rfl
    · simp only [architecture, retire, read_write]
      rfl

theorem shows_store {rs2 rs1 offset : Fin 16} (graceful : machine.faults.policy = .graceful)
    (decoded : Instruction.decode word = .s .sw rs2 rs1 offset) :
    let e := (machine.registers.read rs1 + UInt16.ofNat offset).toNat
    Shows (machine.perform word) { machine.architecture.advance with
      data := machine.data.words.setIfInBounds e (machine.registers.read rs2) } := by
  intro e
  have place : (machine.seen word).data.index? ((machine.seen word).dataAddress rs1 offset) =
      if e < machine.data.size then some e else none := machine.data.index?_offset e
  have policy : (machine.seen word).faults.policy = .graceful := graceful
  rw [perform_eq, decoded, execute_store, place]
  by_cases inside : e < machine.data.size
  · rw [if_pos inside]
    exact ⟨rfl, rfl⟩
  · have same : machine.data.words.setIfInBounds e (machine.registers.read rs2) = machine.data.words :=
      Array.setIfInBounds_eq_of_size_le (Nat.le_of_not_lt inside)
    rw [if_neg inside, same]
    simp only [report_graceful policy]
    exact ⟨rfl, rfl⟩

theorem shows_branch {op : Opcode} {alu : AluOp} {rs1 rs2 : Fin 16} {offset : Int}
    (decoded : Instruction.decode word = .b op rs1 rs2 offset)
    (signals : Signals.ofOpcode op = .comparison alu) (holds : Bool)
    (compares : alu.result (machine.registers.read rs1) (machine.registers.read rs2) =
      if holds then 1 else 0) (other : alu ≠ .add) :
    Shows (machine.perform word)
      (machine.architecture.branch holds (machine.pc + UInt16.ofInt offset)) := by
  let c : Calculation :=
    ⟨alu, (machine.seen word).registers.read rs1, (machine.seen word).registers.read rs2⟩
  have result : c.result = if holds then 1 else 0 := compares
  have flags : c.flags = ⟨(if holds then 1 else 0) = (0 : UInt16), false,
      0x8000 ≤ (if holds then 1 else 0 : UInt16)⟩ := by
    cases holds <;> simp [Calculation.flags, result, AluOp.carries_of_ne other, c]
  rw [perform_eq, decoded, execute_branch _ _ _ _ signals]
  simp only [Shows, architecture, retire, Alu.perform, flags, result, c]
  cases holds <;> exact ⟨rfl, rfl⟩

theorem shows_jump {rd : Fin 16} {offset : Int}
    (decoded : Instruction.decode word = .j .jal rd offset) :
    Shows (machine.perform word)
      (Architecture.write { machine.architecture.advance with pc := machine.pc + UInt16.ofInt offset }
        rd (machine.pc + 1)) := by
  rw [perform_eq, decoded, execute_jump]
  constructor
  · rfl
  · simp only [architecture, retire, read_write]
    rfl

theorem shows_nop (decoded : Instruction.decode word = .special .nop) :
    Shows (machine.perform word) machine.architecture.advance := by
  rw [perform_eq, decoded, execute_nop]
  exact ⟨rfl, rfl⟩

theorem shows_halt (decoded : Instruction.decode word = .special .halt) :
    Shows (machine.perform word) { machine.architecture with state := .halted } := by
  rw [perform_eq, decoded, execute_halt]
  exact ⟨rfl, rfl⟩

theorem shows_invalid (graceful : machine.faults.policy = .graceful)
    (decoded : Instruction.decode word = .invalid word) :
    Shows (machine.perform word) machine.architecture.advance := by
  have policy : (machine.seen word).faults.policy = .graceful := graceful
  rw [perform_eq, decoded, execute_invalid]
  simp only [report_graceful policy]
  exact ⟨rfl, rfl⟩

theorem next_of_invalid {s : Architecture}
    (cause : Field.opcode.bits word = 13 ∨
      14 ≤ Field.opcode.bits word ∧ Field.payload.bits word ≠ 0) :
    s.next word = s.advance := by
  rw [bits_opcode] at cause
  rcases cause with reserved | ⟨late, stray⟩
  · have head : digit word 3 = 13 := Fin.ext reserved
    rw [next, head]
    rfl
  · have top : digit word 3 = 14 ∨ digit word 3 = 15 := by
      have bound := (digit word 3).isLt
      simp only [Fin.ext_iff]
      omega
    rcases top with head | head
    · rw [next, head]
      rfl
    · rw [next, head]
      exact if_neg fun halts => stray ((payload_eq_zero_iff head).2 halts)

theorem state_next (s : Architecture) (word : UInt16) :
    (s.next word).state = if word = 0xF000 then .halted else .running := by
  by_cases halts : word = 0xF000
  · subst halts
    rfl
  · rw [if_neg halts]
    unfold next
    split <;> first | rfl | rw [if_neg halts]; rfl

theorem shows_next (graceful : machine.faults.policy = .graceful) (word : UInt16) :
    Shows (machine.perform word) (machine.architecture.next word) := by
  obtain ⟨invalid, cause⟩ | ⟨op, code, payload, decoded⟩ := Instruction.decode_cases word
  · rw [next_of_invalid cause]
    exact shows_invalid graceful invalid
  · have head : digit word 3 = Fin.ofNat 16 op.code := by
      rw [code, bits_opcode]
      simp
    rw [read_layout] at decoded
    cases op with
    | add =>
      rw [next, head]
      exact shows_register decoded rfl rfl (AluOp.carries_add _ _)
    | sub | and | or | xor =>
      rw [next, head]
      exact shows_register decoded rfl rfl (AluOp.carries_of_ne (by decide) _ _)
    | addi =>
      rw [next, head]
      exact shows_immediate decoded rfl rfl (AluOp.carries_add _ _)
    | andi | ori =>
      rw [next, head]
      exact shows_immediate decoded rfl rfl (AluOp.carries_of_ne (by decide) _ _)
    | lw =>
      rw [next, head]
      exact shows_load graceful decoded
    | sw =>
      rw [next, head]
      exact shows_store graceful decoded
    | beq =>
      rw [next, head]
      exact shows_branch decoded rfl _ (AluOp.result_eq _ _) (by decide)
    | bne =>
      rw [next, head]
      exact shows_branch decoded rfl _ (AluOp.result_ne _ _) (by decide)
    | jal =>
      rw [next, head]
      exact shows_jump decoded
    | nop =>
      rw [next, head]
      exact shows_nop decoded
    | halt =>
      have whole : word = 0xF000 := (payload_eq_zero_iff head).1 (payload rfl)
      rw [whole] at decoded ⊢
      exact shows_halt decoded

/-- Inside its program a machine that has not halted does what its word means, and answers whether
that word lets it go on. -/
theorem step_next {machine : Machine} (reachable : machine.Reachable)
    (graceful : machine.faults.policy = .graceful) (active : machine.state ≠ .halted)
    (inside : machine.pc.toNat < machine.program.stop) :
    ∃ word, machine.program.words[machine.pc.toNat]? = some word ∧
      machine.step.1 = .ok (decide (word ≠ 0xF000)) ∧
      machine.step.2.architecture = machine.architecture.next word := by
  have bound : machine.pc.toNat < machine.program.words.size :=
    Nat.lt_of_lt_of_le inside reachable.stop_le
  have found := Array.getElem?_eq_getElem bound
  have halted : machine.isHalted = false := by simpa [isHalted] using active
  obtain ⟨answer, after⟩ := shows_next graceful machine.program.words[machine.pc.toNat]
  refine ⟨_, found, ?_⟩
  rw [step_of_fetch halted (fetch_of_getElem? found (.inr inside))]
  refine ⟨answer.trans ?_, after⟩
  rw [state_next]
  by_cases halts : machine.program.words[machine.pc.toNat] = 0xF000 <;> simp [halts]

def branchingBack : Machine :=
  ((build { Config.default with programSize := 4 }).session [.load [0xA00F] 0]).2

theorem step_next_branchingBack :
    branchingBack.Reachable ∧ branchingBack.state ≠ .halted ∧
      branchingBack.pc.toNat < branchingBack.program.stop ∧
      branchingBack.step.1 = .ok true ∧ branchingBack.step.2.pc = 0xFFFF := by
  have reachable : branchingBack.Reachable := reachable_session (Config.check_eq_ok_iff.1 rfl) _
  have active : branchingBack.state ≠ .halted := by decide
  have inside : branchingBack.pc.toNat < branchingBack.program.stop := by decide
  obtain ⟨word, found, answer, after⟩ := step_next reachable rfl active inside
  cases found
  exact ⟨reachable, active, inside, answer, congrArg Architecture.pc after⟩

end Machine

end Harvard16
