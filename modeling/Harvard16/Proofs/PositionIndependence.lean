import Harvard16.Proofs.LabelTargets
import Harvard16.Proofs.Lockstep
import Harvard16.Proofs.StraightLine

/-! Programs that are moved. Branches and jumps are relative to the address that they stand at, and the
end of the program moves with its start, so a program does the same wherever it has been loaded. Two
things tell where it lies: a jump that keeps its return address, and a target before address zero,
which is the top of memory for a program that starts at zero and something else for one that does not.
Main statement: the runs of a program from zero and from another start, step by step, as long as the
first of them does neither. -/
namespace Harvard16

def Fault.moved (distance : UInt16) : Fault → Fault
  | .memory address access pc => .memory address access (pc.map (· + distance))
  | .invalidInstruction word pc => .invalidInstruction word (pc + distance)
  | fault => fault

namespace Instruction

/-- How far a branch that is taken, or a jump, goes. -/
def transfer? (registers : Registers) : Instruction → Option Int
  | .b .beq rs1 rs2 offset => if registers.read rs1 = registers.read rs2 then some offset else none
  | .b .bne rs1 rs2 offset => if registers.read rs1 = registers.read rs2 then none else some offset
  | .j _ _ offset => some offset
  | _ => none

def links : Instruction → Bool
  | .j _ rd _ => rd ≠ 0
  | _ => false

theorem transfer?_le {word : UInt16} {registers : Registers} {offset : Int}
    (transfers : offset ∈ (decode word).transfer? registers) : offset ≤ 127 := by
  have greatest {field : Field} (fits : field.fits offset = true) : offset ≤ field.greatest := by
    simp only [Field.fits, decide_eq_true_eq] at fits
    exact fits.2
  rcases wellFormed_decode word with formed | invalid
  · generalize decode word = instruction at transfers formed
    unfold transfer? at transfers
    split at transfers
    · obtain ⟨-, -, -, fits⟩ := formed
      split at transfers <;> cases transfers
      exact Int.le_trans (greatest fits) (by decide)
    · obtain ⟨-, -, -, fits⟩ := formed
      split at transfers <;> cases transfers
      exact Int.le_trans (greatest fits) (by decide)
    · obtain ⟨-, -, fits⟩ := formed
      cases transfers
      exact Int.le_trans (greatest fits) (by decide)
    · cases transfers
  · rw [invalid] at transfers
    cases transfers

end Instruction

namespace Effect

def moved (distance : UInt16) : Effect → Effect
  | .compare calculation target => .compare calculation (target + distance)
  | .jump target rd => .jump (target + distance) rd
  | effect => effect

theorem ofInstruction_moved (distance pc : UInt16) (registers : Registers) (data : Array UInt16)
    (instruction : Instruction) :
    ofInstruction (pc + distance) registers data instruction =
      (ofInstruction pc registers data instruction).moved distance := by
  have target (offset : UInt16) : pc + distance + offset = pc + offset + distance := by
    rw [UInt16.add_assoc, UInt16.add_comm distance, ← UInt16.add_assoc]
  unfold ofInstruction
  split
  case h_2 =>
    split <;> rfl
  case h_4 =>
    split <;> rfl
  case h_5 | h_6 => simp only [moved, target]
  all_goals rfl

end Effect

namespace Machine

def Flow.moved (distance : UInt16) : Flow → Flow
  | .jump target => .jump (target + distance)
  | flow => flow

/-- What a program works with and what is counted: all of the machine but the address, the program and
the logs of what was executed and what went wrong. -/
structure Workings where
  registers : Registers
  alu : Alu
  data : DataMemory
  control : ControlUnit
  state : RunState
  cycles : Nat
  instructions : Nat
  stats : Statistics
  faults : Nat
  policy : Policy

def workings (machine : Machine) : Workings :=
  { registers := machine.registers
    alu := machine.alu
    data := machine.data
    control := machine.control
    state := machine.state
    cycles := machine.cycles
    instructions := machine.instructions
    stats := machine.stats
    faults := machine.faults.total
    policy := machine.faults.policy }

structure Displaced (distance : UInt16) (a b : Machine) : Prop where
  workings : b.workings = a.workings
  pc : b.pc = a.pc + distance

section

variable {distance : UInt16} {a b : Machine}

theorem Displaced.effect (h : Displaced distance a b) (instruction : Instruction) :
    b.effect instruction = (a.effect instruction).moved distance := by
  have registers : b.registers = a.registers := congrArg Workings.registers h.workings
  have data : b.data = a.data := congrArg Workings.data h.workings
  rw [Machine.effect, Machine.effect, h.pc, registers, data, Effect.ofInstruction_moved]

theorem Displaced.excuse (h : Displaced distance a b) (fault : Fault) (waiting : Option Nat) :
    (b.excuse (fault.moved distance) waiting).1 =
        ((a.excuse fault waiting).1.map (Flow.moved distance)).mapError (Fault.moved distance) ∧
      Displaced distance (a.excuse fault waiting).2 (b.excuse (fault.moved distance) waiting).2 := by
  obtain ⟨same, pc⟩ := h
  have policies : b.faults.policy = a.faults.policy := congrArg Workings.policy same
  simp only [Machine.workings, Workings.mk.injEq] at same
  cases policy : a.faults.policy with
  | graceful =>
    rw [excuse_graceful policy, excuse_graceful (policies.trans policy)]
    exact ⟨rfl, by simp [Machine.workings, FaultHandler.record, same], pc⟩
  | strict =>
    rw [excuse_strict policy, excuse_strict (policies.trans policy)]
    exact ⟨rfl, by simp [Machine.workings, FaultHandler.record, same], pc⟩

theorem Displaced.enact (h : Displaced distance a b) {effect : Effect}
    (unlinked : ∀ target rd, effect = .jump target rd → rd = 0) :
    (b.enact (effect.moved distance)).1 =
        ((a.enact effect).1.map (Flow.moved distance)).mapError (Fault.moved distance) ∧
      Displaced distance (a.enact effect).2 (b.enact (effect.moved distance)).2 := by
  have pc : b.pc = a.pc + distance := h.pc
  have data : b.data = a.data := congrArg Workings.data h.workings
  cases effect with
  | strayRead place rd =>
    simp only [Effect.moved, Machine.enact, data, pc]
    exact h.excuse (.memory _ .read (some a.pc)) (some rd)
  | strayWrite place =>
    simp only [Effect.moved, Machine.enact, data, pc]
    exact h.excuse (.memory _ .write (some a.pc)) none
  | invalid word =>
    simp only [Effect.moved, Machine.enact, pc]
    exact h.excuse (.invalidInstruction word a.pc) none
  | jump target rd =>
    obtain rfl := unlinked target rd rfl
    exact ⟨rfl, h.workings, pc⟩
  | compare calculation target =>
    obtain ⟨same, -⟩ := h
    simp only [Machine.workings, Workings.mk.injEq] at same
    refine ⟨?_, ?_, pc⟩
    · simp only [Effect.moved, Machine.enact]
      split <;> rfl
    · simp [Effect.moved, Machine.enact, Machine.workings, same]
  | calculate | read | write | nothing | halt =>
    obtain ⟨same, -⟩ := h
    simp only [Machine.workings, Workings.mk.injEq] at same
    exact ⟨rfl, by simp [Effect.moved, Machine.enact, Machine.workings, same], pc⟩

theorem Displaced.retire (h : Displaced distance a b) (word : UInt16) (instruction : Instruction)
    (flow : Flow) :
    Displaced distance (a.retire word instruction flow)
      (b.retire word instruction (flow.moved distance)) := by
  obtain ⟨same, pc⟩ := h
  simp only [Machine.workings, Workings.mk.injEq] at same
  cases flow with
  | next =>
    have following : b.pc + 1 = a.pc + 1 + distance := by
      rw [pc, UInt16.add_assoc, UInt16.add_comm distance, ← UInt16.add_assoc]
    exact ⟨by simp [Flow.moved, Machine.retire, Machine.workings, same], following⟩
  | jump target => exact ⟨by simp [Flow.moved, Machine.retire, Machine.workings, same], rfl⟩
  | halt => exact ⟨by simp [Flow.moved, Machine.retire, Machine.workings, same], pc⟩

theorem unlinked_effect {machine : Machine} {instruction : Instruction}
    (unlinked : instruction.links = false) (target : UInt16) (rd : Nat)
    (jumps : machine.effect instruction = .jump target rd) : rd = 0 := by
  unfold Machine.effect Effect.ofInstruction at jumps
  split at jumps
  case h_6 =>
    cases jumps
    simpa [Instruction.links] using unlinked
  case h_2 => split at jumps <;> cases jumps
  case h_4 => split at jumps <;> cases jumps
  all_goals cases jumps

theorem Displaced.perform (h : Displaced distance a b) {word : UInt16}
    (unlinked : (Instruction.decode word).links = false) :
    (b.perform word).1 = (a.perform word).1.mapError (Fault.moved distance) ∧
      Displaced distance (a.perform word).2 (b.perform word).2 := by
  have seen : Displaced distance (a.seen word) (b.seen word) := by
    obtain ⟨same, pc⟩ := h
    simp only [Machine.workings, Workings.mk.injEq] at same
    exact ⟨by simp [Machine.seen, Machine.workings, same], pc⟩
  have shape := Instruction.shape_decode word
  have enacted := seen.enact (@unlinked_effect (a.seen word) _ unlinked)
  rw [perform_eq, perform_eq, execute_eq_enact _ shape, execute_eq_enact _ shape, seen.effect]
  generalize (a.seen word).enact _ = first at enacted ⊢
  generalize (b.seen word).enact _ = second at enacted ⊢
  obtain ⟨ending, behind⟩ := first
  obtain ⟨otherEnding, otherBehind⟩ := second
  obtain ⟨endings, displaced⟩ := enacted
  cases endings
  cases ending with
  | error fault => exact ⟨rfl, displaced⟩
  | ok flow =>
    refine ⟨?_, displaced.retire word _ flow⟩
    cases flow <;> rfl

end

def next? (machine : Machine) : Option Instruction :=
  if machine.isHalted then none
  else
    match machine.fetch.1 with
    | .ok (some word) => some (.decode word)
    | _ => none

/-- The next step keeps no return address, and it does not go to a target before address zero. -/
def Portable (machine : Machine) : Prop :=
  ∀ instruction ∈ machine.next?, instruction.links = false ∧
    ∀ offset ∈ instruction.transfer? machine.registers, 0 ≤ (machine.pc.toNat : Int) + offset

instance (machine : Machine) : Decidable machine.Portable :=
  inferInstanceAs (Decidable (∀ instruction ∈ machine.next?, _ ∧ ∀ offset ∈ _, _))

section

variable {machine : Machine}

theorem excuse_ne_jump (fault : Fault) (waiting : Option Nat) (target : UInt16) :
    (machine.excuse fault waiting).1 ≠ .ok (.jump target) := by
  intro jumps
  cases policy : machine.faults.policy with
  | graceful =>
    rw [excuse_graceful policy] at jumps
    cases jumps
  | strict =>
    rw [excuse_strict policy] at jumps
    cases jumps

theorem enact_jump {effect : Effect} {target : UInt16}
    (jumps : (machine.enact effect).1 = .ok (.jump target)) :
    (∃ rd, effect = .jump target rd) ∨
      ∃ calculation, effect = .compare calculation target ∧ calculation.result = 1 := by
  cases effect with
  | jump other rd =>
    cases jumps
    exact .inl ⟨rd, rfl⟩
  | compare calculation other =>
    simp only [enact] at jumps
    split at jumps
    · rename_i taken
      cases jumps
      exact .inr ⟨calculation, rfl, taken⟩
    · cases jumps
  | strayRead | strayWrite | invalid => exact absurd jumps (excuse_ne_jump _ _ _)
  | calculate | read | write | nothing | halt => cases jumps

theorem transfer?_of_branch {op : Opcode} {alu : AluOp} {rs1 rs2 : Nat} {offset : Int}
    (signals : Signals.ofOpcode op = .comparison alu)
    (taken : (Effect.calculation op (machine.registers.read rs1) (machine.registers.read rs2)).result = 1) :
    offset ∈ (Instruction.b op rs1 rs2 offset).transfer? machine.registers := by
  cases op with
  | beq =>
    have equal : machine.registers.read rs1 = machine.registers.read rs2 := by
      by_contra different
      simp [Effect.calculation, Calculation.result, Signals.ofOpcode, Signals.comparison, AluOp.result,
        different] at taken
    exact if_pos equal
  | bne =>
    have different : machine.registers.read rs1 ≠ machine.registers.read rs2 := by
      intro equal
      simp [Effect.calculation, Calculation.result, Signals.ofOpcode, Signals.comparison, AluOp.result,
        equal] at taken
    exact if_neg different
  | add | sub | and | or | xor | addi | andi | ori | lw | sw | jal | nop | halt => cases signals

theorem exists_transfer {instruction : Instruction} (shape : instruction.Shape) {target : UInt16}
    (jumps : (machine.execute instruction).1 = .ok (.jump target)) :
    ∃ offset ∈ instruction.transfer? machine.registers, target = machine.target offset := by
  have effects := enact_jump ((congrArg Prod.fst (execute_eq_enact machine shape)).symm.trans jumps)
  cases shape with
  | immediate rd rs1 imm signals =>
    rw [execute_immediate _ _ _ _ signals] at jumps
    cases jumps
  | branch rs1 rs2 offset signals =>
    obtain ⟨rd, jump⟩ | ⟨calculation, compare, taken⟩ := effects
    · cases jump
    · cases compare
      exact ⟨offset, transfer?_of_branch signals taken, rfl⟩
  | jump rd offset =>
    obtain ⟨rd, jump⟩ | ⟨calculation, compare, taken⟩ := effects
    · cases jump
      exact ⟨offset, rfl, rfl⟩
    · cases compare
  | load | store =>
    simp only [effect, Effect.ofInstruction] at effects
    split at effects <;> simp at effects
  | register | nop | halt | invalid =>
    simp [effect, Effect.ofInstruction] at effects

end

/-- A program at address zero and the same program somewhere else, and two machines that stand at the same
place in it, with room for any jump behind its end. -/
structure Moved (program : List UInt16) (distance : UInt16) (a b : Machine) : Prop where
  displaced : Displaced distance a b
  within : a.pc.toNat ≤ program.length + 127
  room : distance.toNat + program.length + 127 ≤ 0xFFFF
  loaded : a.program.loaded = (0, program)
  otherLoaded : b.program.loaded = (distance.toNat, program)
  laid : a.program.LaidOut
  otherLaid : b.program.LaidOut

section

variable {program : List UInt16} {distance : UInt16} {a b : Machine}

theorem Moved.toNat_pc (h : Moved program distance a b) : b.pc.toNat = a.pc.toNat + distance.toNat := by
  have within := h.within
  have room := h.room
  rw [h.displaced.pc, UInt16.toNat_add]
  exact Nat.mod_eq_of_lt (by omega)

theorem Moved.wordAt? (h : Moved program distance a b) :
    ProgramMemory.wordAt? a.program.loaded a.pc.toNat = program[a.pc.toNat]? ∧
      ProgramMemory.wordAt? b.program.loaded b.pc.toNat = program[a.pc.toNat]? := by
  rw [h.loaded, h.otherLoaded, h.toNat_pc]
  constructor
  · exact if_neg (Nat.not_lt_zero _)
  · rw [ProgramMemory.wordAt?, if_neg (Nat.not_lt.2 (Nat.le_add_left _ _)), Nat.add_sub_cancel]

theorem next?_of_fetched {machine : Machine} (laid : machine.program.LaidOut)
    (active : machine.isHalted = false) :
    machine.next? =
      (ProgramMemory.wordAt? machine.program.loaded machine.pc.toNat).map Instruction.decode := by
  rw [next?, if_neg (by simp [active]), fetch_of_laidOut laid, ProgramMemory.wordAt?_loaded laid]
  cases ProgramMemory.wordAt? machine.program.loaded machine.pc.toNat <;> rfl

theorem pc_perform_le {machine : Machine} {word : UInt16} {length : Nat}
    (inside : machine.pc.toNat < length) (room : length + 127 ≤ 0xFFFF)
    (upward : ∀ offset ∈ (Instruction.decode word).transfer? machine.registers,
      0 ≤ (machine.pc.toNat : Int) + offset) :
    (machine.perform word).2.pc.toNat ≤ length + 127 := by
  have shape := Instruction.shape_decode word
  have standing := (machine.seen word).standing_execute shape
  have transfers := @exists_transfer (machine.seen word) _ shape
  rw [perform_eq]
  generalize (machine.seen word).execute (.decode word) = outcome at standing transfers ⊢
  obtain ⟨ending, behind⟩ := outcome
  have pc : behind.pc = machine.pc := congrArg Standing.pc standing
  cases ending with
  | error fault =>
    show behind.pc.toNat ≤ length + 127
    rw [pc]
    omega
  | ok flow =>
    cases flow with
    | next =>
      show (behind.pc + 1).toNat ≤ length + 127
      rw [pc, UInt16.toNat_add]
      exact Nat.le_trans (Nat.mod_le _ _) (by simp; omega)
    | halt =>
      show behind.pc.toNat ≤ length + 127
      rw [pc]
      omega
    | jump target =>
      obtain ⟨offset, transfer, rfl⟩ := transfers rfl
      have far := Instruction.transfer?_le transfer
      have up := upward offset transfer
      have place := Assembly.toNat_add_ofInt machine.pc offset
      show (machine.pc + UInt16.ofInt offset).toNat ≤ length + 127
      omega

theorem Moved.step (h : Moved program distance a b) (portable : a.Portable) :
    b.step.1 = a.step.1.mapError (Fault.moved distance) ∧ Moved program distance a.step.2 b.step.2 := by
  have state : b.state = a.state := congrArg Workings.state h.displaced.workings
  have halted : b.isHalted = a.isHalted := by rw [isHalted, isHalted, state]
  have frame : a.step.2.program = a.program ∧ b.step.2.program = b.program :=
    ⟨program_step a, program_step b⟩
  suffices stepped : b.step.1 = a.step.1.mapError (Fault.moved distance) ∧
      Displaced distance a.step.2 b.step.2 ∧ a.step.2.pc.toNat ≤ program.length + 127 by
    obtain ⟨answers, displaced, within⟩ := stepped
    obtain ⟨-, -, room, loaded, otherLoaded, laid, otherLaid⟩ := h
    refine ⟨answers, displaced, within, room, ?_, ?_, ?_, ?_⟩
    · rwa [frame.1]
    · rwa [frame.2]
    · rwa [frame.1]
    · rwa [frame.2]
  cases active : a.isHalted with
  | true =>
    rw [step_of_isHalted active, step_of_isHalted (halted.trans active)]
    exact ⟨rfl, h.displaced, h.within⟩
  | false =>
    obtain ⟨fetched, otherFetched⟩ := h.wordAt?
    have upcoming := next?_of_fetched h.laid active
    rw [step_of_laidOut h.laid active, step_of_laidOut h.otherLaid (halted.trans active), otherFetched]
    rw [fetched] at upcoming ⊢
    cases found : program[a.pc.toNat]? with
    | some word =>
      rw [found] at upcoming
      obtain ⟨unlinked, upward⟩ := portable (.decode word) upcoming
      obtain ⟨inside, -⟩ := List.getElem?_eq_some_iff.1 found
      obtain ⟨answers, displaced⟩ := h.displaced.perform unlinked
      have room := h.room
      exact ⟨answers, displaced, pc_perform_le inside (by omega) upward⟩
    | none =>
      obtain ⟨same, pc⟩ := h.displaced
      simp only [Machine.workings, Workings.mk.injEq] at same
      exact ⟨rfl, ⟨by simp [Machine.workings, same], pc⟩, h.within⟩

theorem Moved.after (h : Moved program distance a b) {n : Nat}
    (portable : ∀ k < n, (a.after k).Portable) :
    (∀ k < n, b.answer k = (a.answer k).mapError (Fault.moved distance)) ∧
      Moved program distance (a.after n) (b.after n) := by
  induction n with
  | zero => exact ⟨by simp, h⟩
  | succ n ih =>
    obtain ⟨answers, moved⟩ := ih fun k before => portable k (Nat.lt_succ_of_lt before)
    obtain ⟨last, next⟩ := moved.step (portable n (Nat.lt_succ_self n))
    refine ⟨fun k before => ?_, next⟩
    rcases Nat.lt_succ_iff_lt_or_eq.1 before with earlier | rfl
    · exact answers k earlier
    · exact last

end

theorem moved_load {config : Config} {words : List UInt16} {start : Nat} {there : Machine}
    (loads : (build config).load words start = (.ok (), there))
    (room : start + words.length + 127 ≤ 0xFFFF) :
    ∃ here, (build config).load words 0 = (.ok (), here) ∧
      Moved words (UInt16.ofNat start) here there := by
  obtain ⟨memory, ok, rfl⟩ := of_load_build loads
  obtain ⟨before, fits, -⟩ := ProgramMemory.load_eq_ok_iff.1 ok
  rw [size_program_build] at before fits
  obtain ⟨here, loadsHere⟩ := @exists_load config words 0 (by omega) (by omega)
  refine ⟨here, loadsHere, ?_⟩
  obtain ⟨memoryHere, okHere, rfl⟩ := of_load_build loadsHere
  have distance : (UInt16.ofNat start).toNat = start := UInt16.toNat_ofNat_of_lt' (by
    show start < 65536
    omega)
  have loaded : memory.loaded = (start, words) := ProgramMemory.loaded_load ok
  refine ⟨⟨rfl, (UInt16.zero_add _).symm⟩, Nat.zero_le _, ?_, ProgramMemory.loaded_load okHere, ?_,
    ProgramMemory.laidOut_load okHere, ProgramMemory.laidOut_load ok⟩
  · rwa [distance]
  · rwa [distance]

/-- Let a program be loaded somewhere with room behind it for the widest jump. Then it can be loaded at
address zero. As long as the run from there neither keeps a return address nor goes to a target before
address zero, the run from the other start answers the same at each step, but for the place of the
fault in an answer, and is at the same place in the program with the same workings. -/
theorem after_moved {config : Config} {words : List UInt16} {start : Nat} {there : Machine}
    (loads : (build config).load words start = (.ok (), there))
    (room : start + words.length + 127 ≤ 0xFFFF) :
    ∃ here, (build config).load words 0 = (.ok (), here) ∧
      ∀ n, (∀ k < n, (here.after k).Portable) →
        (∀ k < n, there.answer k = (here.answer k).mapError (Fault.moved (UInt16.ofNat start))) ∧
          (there.after n).workings = (here.after n).workings ∧
          (there.after n).pc.toNat = (here.after n).pc.toNat + start := by
  obtain ⟨here, loadsHere, moved⟩ := moved_load loads room
  refine ⟨here, loadsHere, fun n portable => ?_⟩
  obtain ⟨answers, last⟩ := moved.after portable
  have place := last.toNat_pc
  rw [UInt16.toNat_ofNat_of_lt' (by show start < 65536; omega)] at place
  exact ⟨answers, last.displaced.workings, place⟩

def cramped : Config := { Config.default with
  programSize := 64, dataSize := 4, dataBase := 0, policy := .strict }

/-- Counts to two in a loop, jumps over nothing and loads from behind the data. -/
def countAndStray : List UInt16 := [0x5102, 0x5221, 0xB21F, 0xC001, 0x830F]

theorem after_moved_countAndStray :
    let there := ((build cramped).load countAndStray 5).2
    cramped.Valid ∧ (build cramped).load countAndStray 5 = (.ok (), there) ∧
      5 + countAndStray.length + 127 ≤ 0xFFFF ∧
      ∃ here, (build cramped).load countAndStray 0 = (.ok (), here) ∧
        (∀ k < 7, (here.after k).Portable) ∧
        here.answer 6 = .error (.memory 15 .read (some 4)) ∧
        there.answer 6 = .error (.memory 15 .read (some 9)) ∧
        (there.after 7).workings = (here.after 7).workings ∧ (there.after 7).pc.toNat = 9 := by
  intro there
  have valid : cramped.Valid := Config.check_eq_ok_iff.1 rfl
  have loads : (build cramped).load countAndStray 5 = (.ok (), there) := by decide +kernel
  have room : 5 + countAndStray.length + 127 ≤ 0xFFFF := by decide
  obtain ⟨here, loadsHere, moved⟩ := after_moved loads room
  obtain rfl : ((build cramped).load countAndStray 0).2 = here := congrArg Prod.snd loadsHere
  have portable : ∀ k < 7, (((build cramped).load countAndStray 0).2.after k).Portable := by decide +kernel
  have stray : ((build cramped).load countAndStray 0).2.answer 6 = .error (.memory 15 .read (some 4)) := by
    decide +kernel
  have last : (((build cramped).load countAndStray 0).2.after 7).pc.toNat = 4 := by decide +kernel
  obtain ⟨answers, workings, place⟩ := moved 7 portable
  refine ⟨valid, loads, room, _, loadsHere, portable, stray, ?_, workings, ?_⟩
  · rw [answers 6 (by decide), stray]
    rfl
  · rw [place, last]

end Machine

end Harvard16
