import Harvard16.Proofs.Execution

/-! Effects. Whatever an instruction is, its execution comes to one of a few things: a calculation, a word
read from data or written there, a comparison, a jump, nothing, a halt, or a fault. Which of them it
is depends on the registers, the words of data and the address alone, and not even on the base of
the data memory: an access is known by its place in the window, inside of it or not. What is done to
the machine is then the same for every instruction with that effect. -/
namespace Harvard16

theorem DataMemory.index?_offset (memory : DataMemory) (e : Nat) :
    memory.index? (memory.base.toNat + e) = if e < memory.size then some e else none := by
  simp [index?]

theorem DataMemory.peek?_offset (memory : DataMemory) (e : Nat) :
    memory.peek? (memory.base.toNat + e) = memory.words[e]? := by
  rw [peek?, index?_offset]
  split
  · rfl
  · rename_i outside
    exact (Array.getElem?_eq_none (Nat.le_of_not_lt outside)).symm

/-- What an instruction comes to. An access that strays has its place outside of the window. -/
inductive Effect where
  | calculate (calculation : Calculation) (rd : Nat)
  | read (word : UInt16) (rd : Nat)
  | write (place : Nat) (word : UInt16)
  | compare (calculation : Calculation) (target : UInt16)
  | jump (target : UInt16) (rd : Nat)
  | nothing
  | halt
  | strayRead (place : Nat) (rd : Nat)
  | strayWrite (place : Nat)
  | invalid (word : UInt16)

namespace Effect

def calculation (op : Opcode) (a b : UInt16) : Calculation :=
  ⟨(Signals.ofOpcode op).aluOp.getD .add, a, b⟩

def place (registers : Registers) (rs1 offset : Nat) : Nat :=
  (registers.read rs1 + UInt16.ofNat offset).toNat

def ofInstruction (pc : UInt16) (registers : Registers) (data : Array UInt16) : Instruction → Effect
  | .r op rd rs1 rs2 => .calculate (calculation op (registers.read rs1) (registers.read rs2)) rd
  | .i .lw rd rs1 imm =>
    match data[place registers rs1 imm]? with
    | some word => .read word rd
    | none => .strayRead (place registers rs1 imm) rd
  | .i op rd rs1 imm => .calculate (calculation op (registers.read rs1) (UInt16.ofNat imm)) rd
  | .s _ rs2 rs1 offset =>
    if place registers rs1 offset < data.size then
      .write (place registers rs1 offset) (registers.read rs2)
    else .strayWrite (place registers rs1 offset)
  | .b op rs1 rs2 offset =>
    .compare (calculation op (registers.read rs1) (registers.read rs2)) (pc + UInt16.ofInt offset)
  | .j _ rd offset => .jump (pc + UInt16.ofInt offset) rd
  | .special .halt => .halt
  | .special _ => .nothing
  | .invalid word => .invalid word

end Effect

namespace Machine

open Effect (place)

variable (machine : Machine)

def effect (instruction : Instruction) : Effect :=
  .ofInstruction machine.pc machine.registers machine.data.words instruction

/-- Reports a fault; if that is excused, the register that waits gets zero. -/
def excuse (fault : Fault) (waiting : Option Nat) : Except Fault Flow × Machine :=
  match machine.report fault () with
  | (.ok (), machine) =>
    (.ok .next, { machine with
      registers := waiting.elim machine.registers (machine.registers.write · 0) })
  | (.error fault, machine) => (.error fault, machine)

def enact : Effect → Except Fault Flow × Machine
  | .calculate c rd =>
    (.ok .next, { machine with
      alu := machine.alu.perform c
      registers := machine.registers.write rd c.result.toNat })
  | .read word rd =>
    (.ok .next, { machine with
      data := { machine.data with reads := machine.data.reads + 1 }
      stats := machine.stats.countRead
      registers := machine.registers.write rd word.toNat })
  | .write place word =>
    (.ok .next, { machine with
      data := { machine.data with
        words := machine.data.words.setIfInBounds place word
        writes := machine.data.writes + 1 }
      stats := machine.stats.countWrite })
  | .compare c target =>
    (.ok (if c.result = 1 then .jump target else .next), { machine with
      alu := machine.alu.perform c
      stats := machine.stats.countBranch (c.result = 1) })
  | .jump target rd =>
    (.ok (.jump target), { machine with registers := machine.registers.write rd (machine.pc + 1).toNat })
  | .nothing => (.ok .next, machine)
  | .halt => (.ok .halt, machine)
  | .strayRead place rd =>
    machine.excuse (.memory (machine.data.base.toNat + place) .read (some machine.pc)) (some rd)
  | .strayWrite place =>
    machine.excuse (.memory (machine.data.base.toNat + place) .write (some machine.pc)) none
  | .invalid word => machine.excuse (.invalidInstruction word machine.pc) none

theorem excuse_graceful {machine : Machine} (policy : machine.faults.policy = .graceful) (fault : Fault)
    (waiting : Option Nat) :
    machine.excuse fault waiting = (.ok .next, { machine with
      faults := machine.faults.record fault
      registers := waiting.elim machine.registers (machine.registers.write · 0) }) := by
  rw [excuse, report_graceful policy]

theorem excuse_strict {machine : Machine} (policy : machine.faults.policy = .strict) (fault : Fault)
    (waiting : Option Nat) :
    machine.excuse fault waiting =
      (.error fault, { machine with faults := machine.faults.record fault }) := by
  rw [excuse, report_strict policy]

theorem execute_eq_enact {instruction : Instruction} (shape : instruction.Shape) :
    machine.execute instruction = machine.enact (machine.effect instruction) := by
  cases shape with
  | register rd rs1 rs2 signals =>
    rw [execute_register _ _ _ _ signals, effect, Effect.ofInstruction, Effect.calculation, signals]
    rfl
  | @immediate op alu rd rs1 imm signals =>
    have other : op ≠ .lw := by
      rintro rfl
      cases congrArg Signals.memoryRead signals
    rw [execute_immediate _ _ _ _ signals, effect, Effect.ofInstruction, Effect.calculation, signals]
    · rfl
    · simpa using other
  | load rd rs1 imm =>
    have found : machine.data.peek? (machine.dataAddress rs1 imm) =
        machine.data.words[place machine.registers rs1 imm]? := machine.data.peek?_offset _
    rw [execute_load, effect, Effect.ofInstruction, found]
    cases machine.data.words[place machine.registers rs1 imm]? with
    | some word => rfl
    | none =>
      cases policy : machine.faults.policy with
      | graceful =>
        simp only [enact, excuse_graceful policy, report_graceful policy]
        rfl
      | strict =>
        simp only [enact, excuse_strict policy, report_strict policy]
        rfl
  | store rs2 rs1 offset =>
    have found : machine.data.index? (machine.dataAddress rs1 offset) =
        if place machine.registers rs1 offset < machine.data.words.size then some (place machine.registers rs1 offset)
        else none := machine.data.index?_offset _
    rw [execute_store, effect, Effect.ofInstruction, found]
    by_cases inside : place machine.registers rs1 offset < machine.data.words.size
    · rw [if_pos inside, if_pos inside]
      rfl
    · rw [if_neg inside, if_neg inside]
      cases policy : machine.faults.policy with
      | graceful =>
        simp only [enact, excuse_graceful policy, report_graceful policy]
        rfl
      | strict =>
        simp only [enact, excuse_strict policy, report_strict policy]
        rfl
  | branch rs1 rs2 offset signals =>
    rw [execute_branch _ _ _ _ signals, effect, Effect.ofInstruction, Effect.calculation, signals]
    rfl
  | jump rd offset => rfl
  | nop => rfl
  | halt => rfl
  | invalid word =>
    rw [execute_invalid, effect, Effect.ofInstruction, enact]
    cases policy : machine.faults.policy with
    | graceful =>
      rw [excuse_graceful policy, report_graceful policy]
      rfl
    | strict => rw [excuse_strict policy, report_strict policy]

end Machine

end Harvard16
