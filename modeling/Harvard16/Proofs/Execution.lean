import Harvard16.Machine.Execution
import Harvard16.Proofs.Encoding

/-! What the execution of an instruction does, one equation for each shape that decoding gives. Only three
shapes can fault: a load and a store outside the data memory, and an invalid instruction. The
machine then asks its policy, and nothing has been changed before it asks. -/
namespace Harvard16

/-- The instructions that decoding gives, sorted by the signals that steer them. -/
inductive Instruction.Shape : Instruction → Prop
  | register {op : Opcode} {alu : AluOp} (rd rs1 rs2 : Nat)
      (signals : Signals.ofOpcode op = .arithmetic alu .register) : Shape (.r op rd rs1 rs2)
  | immediate {op : Opcode} {alu : AluOp} (rd rs1 imm : Nat)
      (signals : Signals.ofOpcode op = .arithmetic alu .immediate) : Shape (.i op rd rs1 imm)
  | load (rd rs1 imm : Nat) : Shape (.i .lw rd rs1 imm)
  | store (rs2 rs1 offset : Nat) : Shape (.s .sw rs2 rs1 offset)
  | branch {op : Opcode} {alu : AluOp} (rs1 rs2 : Nat) (offset : Int)
      (signals : Signals.ofOpcode op = .comparison alu) : Shape (.b op rs1 rs2 offset)
  | jump (rd : Nat) (offset : Int) : Shape (.j .jal rd offset)
  | nop : Shape (.special .nop)
  | halt : Shape (.special .halt)
  | invalid (word : UInt16) : Shape (.invalid word)

theorem Instruction.shape_ofOperands (op : Opcode) (operands : Operands) :
    (ofOperands op operands).Shape := by
  cases op with
  | add | sub | and | or | xor => exact .register _ _ _ rfl
  | addi | andi | ori => exact .immediate _ _ _ rfl
  | lw => exact .load _ _ _
  | sw => exact .store _ _ _
  | beq | bne => exact .branch _ _ _ rfl
  | jal => exact .jump _ _
  | nop => exact .nop
  | halt => exact .halt

theorem Instruction.shape_decode (word : UInt16) : (decode word).Shape := by
  obtain ⟨invalid, -⟩ | ⟨op, -, -, decoded⟩ := decode_cases word
  · rw [invalid]
    exact .invalid word
  · rw [decoded]
    exact shape_ofOperands op _

namespace Machine

variable (machine : Machine)

theorem report_graceful {α : Type} {machine : Machine} (policy : machine.faults.policy = .graceful)
    (fault : Fault) (fallback : α) :
    machine.report fault fallback =
      (.ok fallback, { machine with faults := machine.faults.record fault }) := by
  simp [report, FaultHandler.handle, policy]

theorem report_strict {α : Type} {machine : Machine} (policy : machine.faults.policy = .strict)
    (fault : Fault) (fallback : α) :
    machine.report fault fallback =
      (.error fault, { machine with faults := machine.faults.record fault }) := by
  simp [report, FaultHandler.handle, policy]

theorem fetch_eq :
    machine.fetch =
      match machine.program.words[machine.pc.toNat]? with
      | some word =>
        (.ok (if word = 0 ∧ machine.program.stop ≤ machine.pc.toNat then none else some word), machine)
      | none =>
        if machine.program.stop ≤ machine.pc.toNat then (.ok none, machine)
        else machine.report (.memory machine.pc.toNat .fetch (some machine.pc)) (some 0) := by
  unfold fetch ProgramMemory.fetch
  cases machine.program.words[machine.pc.toNat]? <;> rfl

theorem fetch_of_getElem? {machine : Machine} {word : UInt16}
    (found : machine.program.words[machine.pc.toNat]? = some word)
    (used : word ≠ 0 ∨ machine.pc.toNat < machine.program.stop) :
    machine.fetch = (.ok (some word), machine) := by
  rw [fetch_eq, found]
  have going : ¬(word = 0 ∧ machine.program.stop ≤ machine.pc.toNat) := by
    rintro ⟨zero, past⟩
    rcases used with nonzero | inside
    · exact nonzero zero
    · omega
  simp only [if_neg going]

theorem execute_register {op : Opcode} {alu : AluOp} (rd rs1 rs2 : Nat)
    (signals : Signals.ofOpcode op = .arithmetic alu .register) :
    machine.execute (.r op rd rs1 rs2) =
      let c : Calculation := ⟨alu, machine.registers.read rs1, machine.registers.read rs2⟩
      (.ok .next, { machine with
        alu := machine.alu.perform c
        registers := machine.registers.write rd c.result.toNat }) := by
  simp [execute, Signals.ofInstruction, Instruction.opcode?, signals, Signals.arithmetic, Signals.nop,
    Signals.invalid, calculate, writeBack]

theorem execute_immediate {op : Opcode} {alu : AluOp} (rd rs1 imm : Nat)
    (signals : Signals.ofOpcode op = .arithmetic alu .immediate) :
    machine.execute (.i op rd rs1 imm) =
      let c : Calculation := ⟨alu, machine.registers.read rs1, UInt16.ofNat imm⟩
      (.ok .next, { machine with
        alu := machine.alu.perform c
        registers := machine.registers.write rd c.result.toNat }) := by
  simp [execute, Signals.ofInstruction, Instruction.opcode?, signals, Signals.arithmetic, Signals.nop,
    Signals.invalid, calculate, writeBack]

theorem execute_load (rd rs1 imm : Nat) :
    machine.execute (.i .lw rd rs1 imm) =
      match machine.data.peek? (machine.dataAddress rs1 imm) with
      | some word =>
        (.ok .next, { machine with
          data := { machine.data with reads := machine.data.reads + 1 }
          stats := machine.stats.countRead
          registers := machine.registers.write rd word.toNat })
      | none =>
        match machine.report (.memory (machine.dataAddress rs1 imm) .read (some machine.pc))
          (0 : UInt16) with
        | (.ok word, machine) =>
          (.ok .next, { machine with registers := machine.registers.write rd word.toNat })
        | (.error fault, machine) => (.error fault, machine) := by
  simp only [execute, loadWord, DataMemory.read]
  cases machine.data.peek? (machine.dataAddress rs1 imm) with
  | some word => rfl
  | none =>
    simp only [Fault.raisedAt]
    cases machine.report (.memory (machine.dataAddress rs1 imm) .read (some machine.pc)) (0 : UInt16) with
    | mk answer machine => cases answer <;> rfl

theorem execute_store (rs2 rs1 offset : Nat) :
    machine.execute (.s .sw rs2 rs1 offset) =
      match machine.data.index? (machine.dataAddress rs1 offset) with
      | some i =>
        (.ok .next, { machine with
          data := { machine.data with
            words := machine.data.words.setIfInBounds i (machine.registers.read rs2)
            writes := machine.data.writes + 1 }
          stats := machine.stats.countWrite })
      | none =>
        match machine.report (.memory (machine.dataAddress rs1 offset) .write (some machine.pc)) () with
        | (.ok (), machine) => (.ok .next, machine)
        | (.error fault, machine) => (.error fault, machine) := by
  simp only [execute, storeWord, DataMemory.write]
  cases machine.data.index? (machine.dataAddress rs1 offset) with
  | some i => simp
  | none => rfl

theorem execute_branch {op : Opcode} {alu : AluOp} (rs1 rs2 : Nat) (offset : Int)
    (signals : Signals.ofOpcode op = .comparison alu) :
    machine.execute (.b op rs1 rs2 offset) =
      let c : Calculation := ⟨alu, machine.registers.read rs1, machine.registers.read rs2⟩
      let taken := c.result = 1
      (.ok (if taken then .jump (machine.target offset) else .next), { machine with
        alu := machine.alu.perform c
        stats := machine.stats.countBranch taken }) := by
  simp [execute, Signals.ofInstruction, Instruction.opcode?, signals, Signals.comparison, Signals.nop,
    Signals.invalid, calculate, target]

theorem execute_jump (rd : Nat) (offset : Int) :
    machine.execute (.j .jal rd offset) =
      (.ok (.jump (machine.target offset)),
        { machine with registers := machine.registers.write rd (machine.pc + 1).toNat }) := rfl

theorem execute_nop : machine.execute (.special .nop) = (.ok .next, machine) := rfl

theorem execute_halt : machine.execute (.special .halt) = (.ok .halt, machine) := rfl

theorem execute_invalid (word : UInt16) :
    machine.execute (.invalid word) =
      match machine.report (.invalidInstruction word machine.pc) () with
      | (.ok (), machine) => (.ok .next, machine)
      | (.error fault, machine) => (.error fault, machine) := rfl

def setup : ProgramMemory × Config := (machine.program, machine.config)

theorem setup_report {α : Type} (fault : Fault) (fallback : α) :
    (machine.report fault fallback).2.setup = machine.setup := by
  simp [report, FaultHandler.handle, FaultHandler.record, setup, Machine.config]

theorem setup_execute {instruction : Instruction} (shape : instruction.Shape) :
    (machine.execute instruction).2.setup = machine.setup := by
  cases shape with
  | register rd rs1 rs2 signals =>
    rw [execute_register _ _ _ _ signals]
    rfl
  | immediate rd rs1 imm signals =>
    rw [execute_immediate _ _ _ _ signals]
    rfl
  | load rd rs1 imm =>
    have kept := machine.setup_report
      (.memory (machine.dataAddress rs1 imm) .read (some machine.pc)) (0 : UInt16)
    rw [execute_load]
    split
    · rfl
    · split <;> simp_all [setup, Machine.config]
  | store rs2 rs1 offset =>
    have kept := machine.setup_report
      (.memory (machine.dataAddress rs1 offset) .write (some machine.pc)) ()
    rw [execute_store]
    split
    · simp [setup, Machine.config, DataMemory.size]
    · split <;> simp_all [setup, Machine.config]
  | branch rs1 rs2 offset signals =>
    rw [execute_branch _ _ _ _ signals]
    rfl
  | jump rd offset => rfl
  | nop => rfl
  | halt => rfl
  | invalid word =>
    have kept := machine.setup_report (.invalidInstruction word machine.pc) ()
    rw [execute_invalid]
    split <;> simp_all [setup, Machine.config]

def seen (word : UInt16) : Machine :=
  { machine with control := machine.control.generate (.decode word) }

theorem perform_eq (word : UInt16) :
    machine.perform word =
      match (machine.seen word).execute (.decode word) with
      | (.ok flow, machine) => (.ok (flow ≠ .halt), machine.retire word (.decode word) flow)
      | (.error fault, machine) => (.error fault, machine) := rfl

theorem setup_perform (word : UInt16) : (machine.perform word).2.setup = machine.setup := by
  have kept := (machine.seen word).setup_execute (Instruction.shape_decode word)
  rw [perform_eq]
  split <;> rename_i executed <;> rw [executed] at kept <;> exact kept

theorem setup_fetch : machine.fetch.2.setup = machine.setup := by
  rw [fetch_eq]
  split
  · rfl
  · split
    · rfl
    · exact machine.setup_report _ _

theorem setup_step : machine.step.2.setup = machine.setup := by
  have kept := machine.setup_fetch
  unfold step
  split
  · rfl
  · split <;> rename_i fetched <;> rw [fetched] at kept
    · rw [setup_perform, kept]
    · exact kept
    · exact kept

theorem step_of_fetch {machine : Machine} {word : UInt16} (active : machine.isHalted = false)
    (found : machine.fetch = (.ok (some word), machine)) : machine.step = machine.perform word := by
  simp [step, active, found]

end Machine

end Harvard16
