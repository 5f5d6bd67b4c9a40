import Harvard16.Proofs.Fetching

/-! Conservation of counts. Cycles, statistics, the arithmetic unit, the control unit, the data memory and
the log of faults are counted apart, each at its own place. An instruction leaves exactly one mark:
a calculation, an access to data, a fault, or its own place in the statistics when it is a jump or
special. Together with what happened outside of instructions the counts therefore balance, in every
session and at any time since the machine was made or reset. -/
namespace Harvard16

/-- The formats, if it is counted at all, of an instruction that leaves its mark outside of the formats. -/
def Format.Plain : Option Format → Prop
  | some .b | some .j | some .special => False
  | some .r | some .i | some .s | none => True

theorem Format.Plain.ne {format? : Option Format} (plain : Plain format?) :
    format? ≠ some .b ∧ format? ≠ some .j ∧ format? ≠ some .special := by
  refine ⟨?_, ?_, ?_⟩ <;> rintro rfl <;> exact plain

theorem Opcode.plain_of_arithmetic {op : Opcode} {alu : AluOp} {source : OperandSource}
    (signals : Signals.ofOpcode op = .arithmetic alu source) : Format.Plain (some op.format) := by
  cases op with
  | add | sub | and | or | xor | addi | andi | ori | lw => trivial
  | sw | beq | bne | nop | halt => cases congrArg Signals.registerWrite signals
  | jal => cases congrArg Signals.aluOp signals

theorem Opcode.format_of_comparison {op : Opcode} {alu : AluOp}
    (signals : Signals.ofOpcode op = .comparison alu) : op.format = .b := by
  cases op with
  | beq | bne => rfl
  | add | sub | and | or | xor | addi | andi | ori | lw | sw | jal | nop | halt =>
    cases congrArg Signals.branch signals

structure Statistics.Counted (stats counted : Statistics) (format? : Option Format) : Prop where
  all : counted.r + counted.i + counted.s + counted.b + counted.j + counted.special =
    stats.r + stats.i + stats.s + stats.b + stats.j + stats.special + if format?.isSome then 1 else 0
  b : counted.b = stats.b + if format? = some .b then 1 else 0
  self : counted.j + counted.special =
    stats.j + stats.special + if format? = some .j ∨ format? = some .special then 1 else 0
  taken : counted.branchesTaken = stats.branchesTaken
  notTaken : counted.branchesNotTaken = stats.branchesNotTaken
  reads : counted.memoryReads = stats.memoryReads
  writes : counted.memoryWrites = stats.memoryWrites

theorem Statistics.counted_elim (stats : Statistics) (format? : Option Format) :
    stats.Counted (format?.elim stats stats.count) format? := by
  cases format? with
  | none => constructor <;> rfl
  | some format => cases format <;> constructor <;> simp [count] <;> omega

namespace Machine

def countedAs (instruction : Instruction) : Except Fault Flow → Option Format
  | .ok _ => instruction.format?
  | .error _ => none

/-- What the execution of an instruction does to the counts, `format?` being the format in which the
instruction is yet to be counted. -/
structure Marked (machine behind : Machine) (format? : Option Format) : Prop where
  r : behind.stats.r = machine.stats.r
  i : behind.stats.i = machine.stats.i
  s : behind.stats.s = machine.stats.s
  b : behind.stats.b = machine.stats.b
  j : behind.stats.j = machine.stats.j
  special : behind.stats.special = machine.stats.special
  branches : behind.stats.branchesTaken + behind.stats.branchesNotTaken =
    machine.stats.branchesTaken + machine.stats.branchesNotTaken + if format? = some .b then 1 else 0
  marks : behind.alu.operations + behind.stats.memoryReads + behind.stats.memoryWrites +
      behind.faults.total + (if format? = some .j ∨ format? = some .special then 1 else 0) =
    machine.alu.operations + machine.stats.memoryReads + machine.stats.memoryWrites +
      machine.faults.total + 1
  reads : behind.data.reads + machine.stats.memoryReads = machine.data.reads + behind.stats.memoryReads
  writes : behind.data.writes + machine.stats.memoryWrites =
    machine.data.writes + behind.stats.memoryWrites

section

variable {machine behind : Machine} {format? : Option Format}

theorem marked_fault {fault : Fault} (stats : behind.stats = machine.stats)
    (alu : behind.alu = machine.alu) (data : behind.data = machine.data)
    (recorded : behind.faults = machine.faults.record fault) (plain : Format.Plain format?) :
    Marked machine behind format? := by
  constructor <;> simp [stats, alu, data, recorded, FaultHandler.record, plain.ne]
  omega

theorem marked_calculation {c : Calculation} (stats : behind.stats = machine.stats)
    (alu : behind.alu = machine.alu.perform c) (data : behind.data = machine.data)
    (faults : behind.faults = machine.faults) (plain : Format.Plain format?) :
    Marked machine behind format? := by
  constructor <;> simp [stats, alu, data, faults, Alu.perform, plain.ne]
  omega

theorem marked_read (stats : behind.stats = machine.stats.countRead) (alu : behind.alu = machine.alu)
    (reads : behind.data.reads = machine.data.reads + 1)
    (writes : behind.data.writes = machine.data.writes) (faults : behind.faults = machine.faults)
    (plain : Format.Plain format?) : Marked machine behind format? := by
  constructor <;> simp [stats, alu, reads, writes, faults, Statistics.countRead, plain.ne]
  all_goals omega

theorem marked_write (stats : behind.stats = machine.stats.countWrite) (alu : behind.alu = machine.alu)
    (reads : behind.data.reads = machine.data.reads)
    (writes : behind.data.writes = machine.data.writes + 1) (faults : behind.faults = machine.faults)
    (plain : Format.Plain format?) : Marked machine behind format? := by
  constructor <;> simp [stats, alu, reads, writes, faults, Statistics.countWrite, plain.ne]
  all_goals omega

theorem marked_branch {c : Calculation} {taken : Bool}
    (stats : behind.stats = machine.stats.countBranch taken)
    (alu : behind.alu = machine.alu.perform c) (data : behind.data = machine.data)
    (faults : behind.faults = machine.faults) (format : format? = some .b) :
    Marked machine behind format? := by
  cases taken <;> constructor <;> simp [stats, alu, data, faults, Statistics.countBranch, Alu.perform, format]
  all_goals omega

theorem marked_self (stats : behind.stats = machine.stats) (alu : behind.alu = machine.alu)
    (data : behind.data = machine.data) (faults : behind.faults = machine.faults)
    (format : format? = some .j ∨ format? = some .special) : Marked machine behind format? := by
  constructor <;> rcases format with rfl | rfl <;> simp [stats, alu, data, faults]

end

theorem marked_execute (machine : Machine) {instruction : Instruction} (shape : instruction.Shape) :
    Marked machine (machine.execute instruction).2
      (countedAs instruction (machine.execute instruction).1) := by
  cases shape with
  | register rd rs1 rs2 signals =>
    rw [execute_register _ _ _ _ signals]
    exact marked_calculation rfl rfl rfl rfl (Opcode.plain_of_arithmetic signals)
  | immediate rd rs1 imm signals =>
    rw [execute_immediate _ _ _ _ signals]
    exact marked_calculation rfl rfl rfl rfl (Opcode.plain_of_arithmetic signals)
  | load rd rs1 imm =>
    rw [execute_load]
    cases machine.data.peek? (machine.dataAddress rs1 imm) with
    | some word => exact marked_read rfl rfl rfl rfl rfl trivial
    | none =>
      cases policy : machine.faults.policy with
      | graceful =>
        rw [report_graceful policy]
        exact marked_fault rfl rfl rfl rfl trivial
      | strict =>
        rw [report_strict policy]
        exact marked_fault rfl rfl rfl rfl trivial
  | store rs2 rs1 offset =>
    rw [execute_store]
    cases machine.data.index? (machine.dataAddress rs1 offset) with
    | some i => exact marked_write rfl rfl rfl rfl rfl trivial
    | none =>
      cases policy : machine.faults.policy with
      | graceful =>
        rw [report_graceful policy]
        exact marked_fault rfl rfl rfl rfl trivial
      | strict =>
        rw [report_strict policy]
        exact marked_fault rfl rfl rfl rfl trivial
  | branch rs1 rs2 offset signals =>
    rw [execute_branch _ _ _ _ signals]
    exact marked_branch rfl rfl rfl rfl (congrArg some (Opcode.format_of_comparison signals))
  | jump rd offset => exact marked_self rfl rfl rfl rfl (.inl rfl)
  | nop => exact marked_self rfl rfl rfl rfl (.inr rfl)
  | halt => exact marked_self rfl rfl rfl rfl (.inr rfl)
  | invalid word =>
    rw [execute_invalid]
    cases policy : machine.faults.policy with
    | graceful =>
      rw [report_graceful policy]
      exact marked_fault rfl rfl rfl rfl trivial
    | strict =>
      rw [report_strict policy]
      exact marked_fault rfl rfl rfl rfl trivial

/-- What has happened since the machine was made or reset and is not counted by the machine: steps and
loads that failed, and direct accesses to data that did not. -/
structure Tally where
  failedSteps : Nat
  failedLoads : Nat
  reads : Nat
  writes : Nat

namespace Tally

def zero : Tally := ⟨0, 0, 0, 0⟩

/-- A run that answers a fault has ended with a step that failed, and with no other. -/
def went (tally : Tally) : Except Fault Bool → Tally
  | .ok _ => tally
  | .error _ => { tally with failedSteps := tally.failedSteps + 1 }

def enter (tally : Tally) : Operation × Answer → Tally
  | (.step, .went outcome) => tally.went outcome
  | (.run _, .went outcome) => tally.went outcome
  | (.runDefault, .went outcome) => tally.went outcome
  | (.load .., .finished (.error _)) => { tally with failedLoads := tally.failedLoads + 1 }
  | (.readData _, .word (.ok _)) => { tally with reads := tally.reads + 1 }
  | (.writeData .., .finished (.ok _)) => { tally with writes := tally.writes + 1 }
  | (.reset, _) => zero
  | _ => tally

def ofSession (operations : List Operation) (answers : List Answer) : Tally :=
  (operations.zip answers).foldl enter zero

end Tally

structure Balanced (machine : Machine) (tally : Tally) : Prop where
  instructions : machine.instructions =
    machine.stats.r + machine.stats.i + machine.stats.s + machine.stats.b + machine.stats.j +
      machine.stats.special
  branches : machine.stats.b = machine.stats.branchesTaken + machine.stats.branchesNotTaken
  generated : machine.control.generated = machine.cycles + tally.failedSteps
  marks : machine.cycles + tally.failedSteps + tally.failedLoads =
    machine.alu.operations + machine.stats.j + machine.stats.special + machine.stats.memoryReads +
      machine.stats.memoryWrites + machine.faults.total
  reads : machine.data.reads = machine.stats.memoryReads + tally.reads
  writes : machine.data.writes = machine.stats.memoryWrites + tally.writes

theorem balanced_build (config : Config) : Balanced (build config) .zero := by
  constructor <;> rfl

theorem balanced_reset (machine : Machine) : Balanced machine.reset .zero := by
  constructor <;> rfl

section

variable {machine behind : Machine} {tally : Tally} {word : UInt16}

theorem balanced_retire (balanced : Balanced machine tally) {instruction : Instruction} {flow : Flow}
    (standing : behind.standing = (machine.seen word).standing)
    (marked : Marked (machine.seen word) behind instruction.format?) :
    Balanced (behind.retire word instruction flow) tally := by
  have cycles : behind.cycles = machine.cycles := congrArg Standing.cycles standing
  have instructions : behind.instructions = machine.instructions :=
    congrArg Standing.instructions standing
  have generated : behind.control.generated = machine.control.generated + 1 :=
    congrArg (·.control.generated) standing
  have valid : instruction.isValid = instruction.format?.isSome := by
    simp [Instruction.isValid, Instruction.format?]
  obtain ⟨r, i, s, b, j, special, branches, marks, reads, writes⟩ := marked
  obtain ⟨total, forks, unit, balance, fetched, stored⟩ := balanced
  obtain ⟨all, asBranch, asSelf, taken, notTaken, countedReads, countedWrites⟩ :=
    behind.stats.counted_elim instruction.format?
  simp only [seen] at *
  constructor <;> simp only [retire, valid]
  all_goals omega

theorem balanced_failed (balanced : Balanced machine tally)
    (standing : behind.standing = (machine.seen word).standing)
    (marked : Marked (machine.seen word) behind none) (fault : Fault) :
    Balanced behind (tally.went (.error fault)) := by
  have cycles : behind.cycles = machine.cycles := congrArg Standing.cycles standing
  have instructions : behind.instructions = machine.instructions :=
    congrArg Standing.instructions standing
  have generated : behind.control.generated = machine.control.generated + 1 :=
    congrArg (·.control.generated) standing
  obtain ⟨r, i, s, b, j, special, branches, marks, reads, writes⟩ := marked
  obtain ⟨total, forks, unit, balance, fetched, stored⟩ := balanced
  constructor <;> simp [Tally.went, seen] at * <;> omega

theorem balanced_perform (balanced : Balanced machine tally) (word : UInt16) :
    Balanced (machine.perform word).2 (tally.went (machine.perform word).1) := by
  have standing := (machine.seen word).standing_execute (Instruction.shape_decode word)
  have marked := (machine.seen word).marked_execute (Instruction.shape_decode word)
  rw [perform_eq]
  generalize (machine.seen word).execute (.decode word) = outcome at standing marked ⊢
  obtain ⟨ending, behind⟩ := outcome
  cases ending with
  | ok flow => exact balanced_retire balanced standing marked
  | error fault => exact balanced_failed balanced standing marked fault

theorem balanced_step (laid : machine.program.LaidOut) (balanced : Balanced machine tally) :
    Balanced machine.step.2 (tally.went machine.step.1) := by
  rcases step_cases laid with same | ended | ⟨word, -, performed⟩
  · rw [same]
    exact balanced
  · rw [ended]
    exact { balanced with }
  · rw [performed]
    exact balanced_perform balanced word

theorem balanced_run (laid : machine.program.LaidOut) (balanced : Balanced machine tally) (budget : Nat) :
    Balanced (machine.run budget).2 (tally.went (machine.run budget).1) := by
  induction budget generalizing machine with
  | zero => exact balanced
  | succ budget ih =>
    have stepped := balanced_step laid balanced
    have program := machine.program_step
    rw [run]
    generalize machine.step = outcome at stepped program ⊢
    obtain ⟨reply, next⟩ := outcome
    cases reply with
    | error fault => exact stepped
    | ok going =>
      cases going with
      | false => exact stepped
      | true => exact ih (by rwa [program]) stepped

theorem balanced_apply (laid : machine.program.LaidOut) (balanced : Balanced machine tally)
    (operation : Operation) :
    Balanced (machine.apply operation).2 (tally.enter (operation, (machine.apply operation).1)) := by
  cases operation with
  | load program start =>
    rw [apply]
    obtain ⟨memory, -, loaded⟩ | ⟨fault, -, failed⟩ := machine.load_cases program start
    · rw [loaded]
      exact { balanced with }
    · rw [failed]
      have marks := balanced.marks
      exact { balanced with marks := by simp only [Prod.map, Tally.enter, FaultHandler.record, id]; omega }
  | step => exact balanced_step laid balanced
  | run budget => exact balanced_run laid balanced budget
  | runDefault => exact balanced_run laid balanced machine.cycleBudget
  | reset => exact balanced_reset machine
  | setPolicy policy => exact { balanced with }
  | writeRegister i value => exact { balanced with }
  | writeData address value =>
    simp only [apply, DataMemory.write]
    cases machine.data.index? address with
    | some i => exact { balanced with writes := congrArg (· + 1) balanced.writes }
    | none => exact balanced
  | readData address =>
    simp only [apply, DataMemory.read]
    cases machine.data.peek? address with
    | some word => exact { balanced with reads := congrArg (· + 1) balanced.reads }
    | none => exact balanced
  | clearProgram => exact { balanced with }

end

/-- The counts of a machine and the tally of its session balance. -/
theorem balanced_session (config : Config) (operations : List Operation) :
    let (answers, machine) := (build config).session operations
    Balanced machine (.ofSession operations answers) := by
  -- A later part of a session begins at any machine and with any tally that balances it.
  suffices general : ∀ (machine : Machine) (tally : Tally), machine.program.LaidOut →
      Balanced machine tally →
      Balanced (machine.session operations).2
        ((operations.zip (machine.session operations).1).foldl Tally.enter tally) by
    exact general (build config) .zero (ProgramMemory.laidOut_blank _) (balanced_build config)
  induction operations with
  | nil =>
    intro machine tally laid balanced
    exact balanced
  | cons operation operations ih =>
    intro machine tally laid balanced
    exact ih (machine.apply operation).2 _ (machine.laidOut_apply operation laid)
      (balanced_apply laid balanced operation)

end Machine

end Harvard16
