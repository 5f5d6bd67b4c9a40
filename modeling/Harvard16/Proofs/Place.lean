import Harvard16.Proofs.Capacities
import Harvard16.Proofs.Conservation
import Harvard16.Proofs.RunStates

/-! Where a machine stands, apart from what it has counted. A machine that is ready and one that is running
do the same, so two machines at one place go on side by side, one of them a number of cycles ahead.
Cycles and instructions on registers are counted together exactly when the machine moves on to the next
address, so they also tell how far it has come when nothing else was counted. -/
namespace Harvard16.Machine

/-- What the next steps of a machine depend on. -/
structure Place where
  pc : UInt16
  halted : Bool
  registers : Registers
  data : Array UInt16
  setup : ProgramMemory × Config

def place (machine : Machine) : Place :=
  { pc := machine.pc
    halted := machine.isHalted
    registers := machine.registers
    data := machine.data.words
    setup := machine.setup }

variable {a b : Machine}

theorem enact_state (machine : Machine) (state : RunState) (effect : Effect) :
    { machine with state }.enact effect =
      ((machine.enact effect).1, { (machine.enact effect).2 with state }) := by
  cases effect with
  | strayRead | strayWrite | invalid =>
    cases policy : machine.faults.policy with
    | graceful =>
      have same : { machine with state }.faults.policy = .graceful := policy
      rw [enact, enact, excuse_graceful policy, excuse_graceful same]
    | strict =>
      have same : { machine with state }.faults.policy = .strict := policy
      rw [enact, enact, excuse_strict policy, excuse_strict same]
  | calculate | read | write | compare | jump | nothing | halt => rfl

def bearing (machine : Machine) : Course := { machine.course with state := .running }

theorem perform_state (machine : Machine) (state : RunState) (word : UInt16) :
    ({ machine with state }.perform word).1 = (machine.perform word).1 ∧
      ({ machine with state }.perform word).2.bearing = (machine.perform word).2.bearing := by
  have shape := Instruction.shape_decode word
  have seen : { machine with state }.seen word = { machine.seen word with state } := rfl
  have effects : { machine.seen word with state }.effect (.decode word) =
      (machine.seen word).effect (.decode word) := rfl
  rw [perform_eq, perform_eq, seen, execute_eq_enact _ shape, execute_eq_enact _ shape, effects, enact_state]
  generalize (machine.seen word).enact ((machine.seen word).effect (.decode word)) = outcome
  obtain ⟨answer, next⟩ := outcome
  cases answer <;> exact ⟨rfl, rfl⟩

theorem course_running (same : b.place = a.place) :
    { b with state := .running }.course = { a with state := .running }.course := by
  have pc : b.pc = a.pc := congrArg Place.pc same
  have registers : b.registers = a.registers := congrArg Place.registers same
  have data : b.data.words = a.data.words := congrArg Place.data same
  have program : b.program = a.program := congrArg (·.setup.1) same
  have policy : b.faults.policy = a.faults.policy := congrArg (·.setup.2.policy) same
  simp [course, pc, registers, data, program, policy]

theorem place_eq (bearings : b.bearing = a.bearing) (setups : b.setup = a.setup)
    (halted : b.isHalted = a.isHalted) : b.place = a.place := by
  have pc : b.pc = a.pc := congrArg Course.pc bearings
  have registers : b.registers = a.registers := congrArg Course.registers bearings
  have data : b.data.words = a.data.words := congrArg Course.data bearings
  rw [place, place, pc, registers, data, setups, halted]

theorem isHalted_perform (active : a.isHalted = false) (word : UInt16) :
    (a.perform word).2.isHalted = decide ((a.perform word).1 = .ok false) := by
  have state : a.state ≠ .halted := by simpa [isHalted] using active
  rw [isHalted, state_perform]
  cases (a.perform word).1 with
  | error fault => simp [RunState.after, state]
  | ok going => cases going <;> simp [RunState.after]

theorem place_perform (same : b.place = a.place) (active : a.isHalted = false) (word : UInt16) :
    (b.perform word).1 = (a.perform word).1 ∧ (b.perform word).2.place = (a.perform word).2.place := by
  have bases : b.data.base = a.data.base := congrArg (·.setup.2.dataBase) same
  have otherActive : b.isHalted = false := (congrArg Place.halted same).trans active
  obtain ⟨answer, bearing⟩ := a.perform_state .running word
  obtain ⟨otherAnswer, otherBearing⟩ := b.perform_state .running word
  obtain ⟨outcomes, courses, -⟩ := perform_congr (course_running same) word
  have answers : (b.perform word).1 = (a.perform word).1 := by
    have shifted : SameBut a.data.base b.data.base (a.perform word).1 (b.perform word).1 := by
      rw [← answer, ← otherAnswer]
      exact outcomes
    rw [bases] at shifted
    exact shifted.eq
  have bearings : (b.perform word).2.bearing = (a.perform word).2.bearing := by
    rw [← bearing, ← otherBearing, Machine.bearing, courses]
    rfl
  refine ⟨answers, place_eq bearings ?_ ?_⟩
  · rw [setup_perform, setup_perform]
    exact congrArg Place.setup same
  · rw [isHalted_perform active, isHalted_perform otherActive, answers]

/-- How many cycles a step counts that gives this answer to a word, and how many of them are for an
instruction on registers. -/
def counted (word : UInt16) : Except Fault Bool → Nat × Nat
  | .ok _ => (1, if (Instruction.decode word).format? = some .r then 1 else 0)
  | .error _ => (0, 0)

theorem counts_perform (machine : Machine) (word : UInt16) :
    (machine.perform word).2.cycles = machine.cycles + (counted word (machine.perform word).1).1 ∧
      (machine.perform word).2.stats.r = machine.stats.r + (counted word (machine.perform word).1).2 := by
  have shape := Instruction.shape_decode word
  have standing := (machine.seen word).standing_execute shape
  have marked := (machine.seen word).marked_execute shape
  rw [perform_eq]
  generalize (machine.seen word).execute (.decode word) = outcome at standing marked ⊢
  obtain ⟨ending, behind⟩ := outcome
  have cycles : behind.cycles = machine.cycles := congrArg Standing.cycles standing
  have registers : behind.stats.r = machine.stats.r := marked.r
  cases ending with
  | error fault => exact ⟨cycles, registers⟩
  | ok flow =>
    refine ⟨congrArg (· + 1) cycles, ?_⟩
    rw [← registers]
    simp only [retire, counted]
    cases (Instruction.decode word).format? with
    | none => rfl
    | some format => cases format <;> rfl

/-- The second machine is where the first is, and has counted more: as many cycles as instructions on
registers. -/
structure Ahead (more : Nat) (first second : Machine) : Prop where
  place : second.place = first.place
  cycles : second.cycles = first.cycles + more
  registers : second.stats.r = first.stats.r + more
  laid : first.program.LaidOut

theorem Ahead.step {more : Nat} (ahead : Ahead more a b) :
    b.step.1 = a.step.1 ∧ Ahead more a.step.2 b.step.2 := by
  obtain ⟨place, cycles, registers, laid⟩ := ahead
  have halted : b.isHalted = a.isHalted := congrArg Place.halted place
  have pc : b.pc = a.pc := congrArg Place.pc place
  have program : b.program = a.program := congrArg (·.setup.1) place
  have otherLaid : b.program.LaidOut := by rwa [program]
  cases active : a.isHalted with
  | true =>
    rw [step_of_isHalted active, step_of_isHalted (halted.trans active)]
    exact ⟨rfl, place, cycles, registers, laid⟩
  | false =>
    rcases Nat.lt_or_ge a.pc.toNat a.program.stop with inside | beyond
    · obtain ⟨word, found, performed⟩ := step_before_stop laid active inside
      have otherFound : b.fetch = (.ok (some word), b) :=
        fetch_of_getElem? (by rwa [program, pc]) (.inr (by rwa [program, pc]))
      rw [performed, step_of_fetch (halted.trans active) otherFound]
      obtain ⟨answers, next⟩ := place_perform place active word
      obtain ⟨counts, others⟩ := a.counts_perform word
      obtain ⟨otherCounts, otherOthers⟩ := b.counts_perform word
      rw [answers] at otherCounts otherOthers
      refine ⟨answers, next, by omega, by omega, ?_⟩
      rwa [← performed, program_step]
    · have otherBeyond : b.program.stop ≤ b.pc.toNat := by rwa [program, pc]
      rw [step_past_stop laid active beyond, step_past_stop otherLaid (halted.trans active) otherBeyond]
      refine ⟨rfl, ?_, cycles, registers, laid⟩
      exact congrArg (fun place => { place with halted := true }) place

theorem Ahead.run {more : Nat} (ahead : Ahead more a b) (budget : Nat) :
    (b.run budget).1 = (a.run budget).1 ∧ Ahead more (a.run budget).2 (b.run budget).2 := by
  induction budget generalizing a b with
  | zero =>
    have halted : b.isHalted = a.isHalted := congrArg Place.halted ahead.place
    exact ⟨congrArg Except.ok halted, ahead⟩
  | succ budget ih =>
    obtain ⟨answers, next⟩ := ahead.step
    rw [Machine.run, Machine.run]
    generalize a.step = first at answers next ⊢
    generalize b.step = second at answers next ⊢
    obtain ⟨answer, behind⟩ := first
    obtain ⟨otherAnswer, otherBehind⟩ := second
    obtain rfl : otherAnswer = answer := answers
    cases otherAnswer with
    | error fault => exact ⟨rfl, next⟩
    | ok going =>
      cases going with
      | false => exact ⟨rfl, next⟩
      | true => exact ih next

theorem format_of_immediate {op : Opcode} {alu : AluOp}
    (signals : Signals.ofOpcode op = .arithmetic alu .immediate) : op.format = .i := by
  cases op with
  | addi | andi | ori => rfl
  | add | sub | and | or | xor | lw | sw | beq | bne | jal | nop | halt => cases signals

theorem execute_of_register (machine : Machine) {instruction : Instruction} (shape : instruction.Shape)
    (format : instruction.format? = some .r) : (machine.execute instruction).1 = .ok .next := by
  cases shape with
  | register rd rs1 rs2 signals => rw [execute_register _ _ _ _ signals]
  | immediate rd rs1 imm signals =>
    have other : some Format.i = some Format.r := (congrArg some (format_of_immediate signals)).symm.trans format
    cases other
  | branch rs1 rs2 offset signals =>
    have other : some Format.b = some Format.r :=
      (congrArg some (Opcode.format_of_comparison signals)).symm.trans format
    cases other
  | load | store | jump | nop | halt | invalid => cases format

theorem pc_perform (machine : Machine) (word : UInt16)
    (alone : (counted word (machine.perform word).1).2 = (counted word (machine.perform word).1).1) :
    (machine.perform word).2.pc =
      machine.pc + UInt16.ofNat (counted word (machine.perform word).1).1 := by
  have shape := Instruction.shape_decode word
  have standing := (machine.seen word).standing_execute shape
  have next := (machine.seen word).execute_of_register shape
  rw [perform_eq] at alone ⊢
  generalize (machine.seen word).execute (.decode word) = outcome at standing next alone ⊢
  obtain ⟨ending, behind⟩ := outcome
  have pc : behind.pc = machine.pc := congrArg Standing.pc standing
  cases ending with
  | error fault => exact pc.trans (UInt16.add_zero _).symm
  | ok flow =>
    have format : (Instruction.decode word).format? = some .r := by
      by_contra other
      simp [counted, other] at alone
    obtain rfl : flow = .next := Except.ok.inj (next format)
    exact congrArg (· + 1) pc

/-- Since it was `first`, the machine has counted no more instructions on registers than cycles, and if it has
counted as many, it stands as many addresses on. -/
structure Paced (first machine : Machine) : Prop where
  cycles : first.cycles ≤ machine.cycles
  registers : machine.stats.r + first.cycles ≤ first.stats.r + machine.cycles
  pc : machine.stats.r + first.cycles = first.stats.r + machine.cycles →
    machine.pc = first.pc + UInt16.ofNat (machine.cycles - first.cycles)

theorem Paced.refl (machine : Machine) : Paced machine machine := by
  constructor <;> simp

section

variable {first machine : Machine}

theorem Paced.perform (paced : Paced first machine) (word : UInt16) :
    Paced first (machine.perform word).2 := by
  obtain ⟨cycles, registers, pc⟩ := paced
  obtain ⟨counts, others⟩ := machine.counts_perform word
  have onward := machine.pc_perform word
  have shares : (counted word (machine.perform word).1).2 ≤ (counted word (machine.perform word).1).1 := by
    cases (machine.perform word).1 with
    | error fault => exact Nat.le_refl _
    | ok going =>
      simp only [counted]
      split <;> omega
  generalize counted word (machine.perform word).1 = count at counts others onward shares
  refine ⟨by omega, by omega, fun equal => ?_⟩
  have span : machine.cycles - first.cycles + count.1 = (machine.perform word).2.cycles - first.cycles := by
    omega
  rw [onward (by omega), pc (by omega), UInt16.add_assoc, ← UInt16.ofNat_add, span]

theorem Paced.step (paced : Paced first machine) (laid : machine.program.LaidOut) :
    Paced first machine.step.2 := by
  rcases step_cases laid with same | ended | ⟨word, -, performed⟩
  · rwa [same]
  · rw [ended]
    exact ⟨paced.cycles, paced.registers, paced.pc⟩
  · rw [performed]
    exact paced.perform word

theorem paced_run (laid : machine.program.LaidOut) (budget : Nat) :
    Paced machine (machine.run budget).2 := by
  have both : (machine.run budget).2.program.LaidOut ∧ Paced machine (machine.run budget).2 :=
    run_induction (P := fun next => next.program.LaidOut ∧ Paced machine next)
      (fun next ⟨laid, paced⟩ => ⟨by rwa [program_step], paced.step laid⟩) ⟨laid, .refl machine⟩ budget
  exact both.2

end

end Harvard16.Machine
