import Harvard16.Machine.Snapshot
import Harvard16.Proofs.Effects
import Harvard16.Proofs.Fetching
import Mathlib.Data.List.Forall2

/-! Machines in lockstep. The course of a machine is what its steps depend on: address, state, registers,
words of data, the program as it was loaded, and the policy. Two machines on one course stay on one
course, whatever their counters and logs hold, wherever their data memories start and however large
their program memories are; the readouts that a snapshot adds to the course keep equal if they were.
What tells the two apart is the address in a fault of data, which is relative to the base. -/
namespace Harvard16

namespace ProgramMemory

def loaded (memory : ProgramMemory) : Nat × List UInt16 :=
  (memory.start, (memory.words.toList.drop memory.start).take memory.length)

/-- The word of a program at an address; before the program there are zeros. -/
def wordAt? (program : Nat × List UInt16) (address : Nat) : Option UInt16 :=
  if address < program.1 then some 0 else program.2[address - program.1]?

theorem loaded_load {memory after : ProgramMemory} {program : List UInt16} {start : Nat}
    (h : memory.load program start = .ok after) : after.loaded = (start, program) := by
  obtain ⟨-, -, rfl⟩ := load_eq_ok_iff.1 h
  simp [loaded, image]

theorem loaded_clear (memory : ProgramMemory) : memory.clear.loaded = (0, []) := by
  simp [loaded, clear, blank]

theorem wordAt?_loaded {memory : ProgramMemory} (laid : memory.LaidOut) (address : Nat) :
    (if memory.stop ≤ address then none else memory.words[address]?) =
      wordAt? memory.loaded address := by
  have stop : memory.stop = memory.start + memory.length := rfl
  rw [wordAt?, loaded]
  by_cases before : address < memory.start
  · have inside : address < memory.stop := by omega
    obtain ⟨word, found⟩ := laid.exists_word inside
    have zero := laid.outside address word found (.inl before)
    simp [before, Nat.not_le.2 inside, found, zero]
  · have place : memory.start + (address - memory.start) = address := by omega
    simp only [before, if_false, List.getElem?_take, List.getElem?_drop, place,
      Array.getElem?_toList]
    split <;> split <;> first | rfl | omega

end ProgramMemory

/-- Equal faults, but for the address of an access to data: it is as far from one base as from the
other. -/
inductive Fault.Shifted (base other : UInt16) : Fault → Fault → Prop
  | data {here there : Nat} {access : Access} (pc : Option UInt16) (kind : access ≠ .fetch)
      (place : there + base.toNat = here + other.toNat) :
      Shifted base other (.memory here access pc) (.memory there access pc)
  | same {fault : Fault} (kind : fault.kind ≠ .memory) : Shifted base other fault fault

inductive SameBut {α : Type} (base other : UInt16) : Except Fault α → Except Fault α → Prop
  | ok (value : α) : SameBut base other (.ok value) (.ok value)
  | error {here there : Fault} (shifted : here.Shifted base other there) :
      SameBut base other (.error here) (.error there)

namespace Machine

structure Course where
  pc : UInt16
  state : RunState
  registers : Registers
  data : Array UInt16
  program : Nat × List UInt16
  policy : Policy

def course (machine : Machine) : Course :=
  { pc := machine.pc
    state := machine.state
    registers := machine.registers
    data := machine.data.words
    program := machine.program.loaded
    policy := machine.faults.policy }

structure Readout where
  cycles : Nat
  instructions : Nat
  flags : Flags
  stats : Statistics
  faults : Nat

def readout (machine : Machine) : Readout :=
  { cycles := machine.cycles
    instructions := machine.instructions
    flags := machine.alu.flags
    stats := machine.stats
    faults := machine.faults.total }

variable {a b : Machine}

theorem effect_congr (same : b.course = a.course) (instruction : Instruction) :
    b.effect instruction = a.effect instruction := by
  have pc : b.pc = a.pc := congrArg Course.pc same
  have registers : b.registers = a.registers := congrArg Course.registers same
  have words : b.data.words = a.data.words := congrArg Course.data same
  rw [effect, effect, pc, registers, words]

theorem excuse_congr (same : b.course = a.course) {base other : UInt16} {here there : Fault}
    (shifted : here.Shifted base other there) (waiting : Option Nat) :
    SameBut base other (a.excuse here waiting).1 (b.excuse there waiting).1 ∧
      (b.excuse there waiting).2.course = (a.excuse here waiting).2.course := by
  simp only [course, Course.mk.injEq] at same
  obtain ⟨pc, state, registers, data, program, policies⟩ := same
  cases policy : a.faults.policy with
  | graceful =>
    rw [excuse_graceful policy, excuse_graceful (policies.trans policy)]
    exact ⟨.ok _, by simp [course, FaultHandler.record, *]⟩
  | strict =>
    rw [excuse_strict policy, excuse_strict (policies.trans policy)]
    exact ⟨.error shifted, by simp [course, FaultHandler.record, *]⟩

theorem enact_congr (same : b.course = a.course) (effect : Effect) :
    SameBut a.data.base b.data.base (a.enact effect).1 (b.enact effect).1 ∧
      (b.enact effect).2.course = (a.enact effect).2.course := by
  have pc : b.pc = a.pc := congrArg Course.pc same
  cases effect with
  | strayRead place rd =>
    rw [enact, enact, pc]
    refine excuse_congr same (.data _ (by decide) ?_) _
    omega
  | strayWrite place =>
    rw [enact, enact, pc]
    refine excuse_congr same (.data _ (by decide) ?_) _
    omega
  | invalid word =>
    rw [enact, enact, pc]
    exact excuse_congr same (.same (by simp [Fault.kind])) _
  | calculate | read | write | compare | jump | nothing | halt =>
    simp only [course, Course.mk.injEq] at same
    exact ⟨.ok _, by simp [enact, course, *]⟩

theorem readout_excuse (machine : Machine) (fault : Fault) (waiting : Option Nat) :
    (machine.excuse fault waiting).2.readout =
      { machine.readout with faults := machine.faults.total + 1 } := by
  cases policy : machine.faults.policy with
  | graceful =>
    rw [excuse_graceful policy]
    rfl
  | strict =>
    rw [excuse_strict policy]
    rfl

theorem readout_enact (same : b.readout = a.readout) (effect : Effect) :
    (b.enact effect).2.readout = (a.enact effect).2.readout := by
  have faults : b.faults.total = a.faults.total := congrArg Readout.faults same
  cases effect with
  | strayRead | strayWrite | invalid =>
    simp only [enact, readout_excuse, same, faults]
  | calculate | read | write | compare | jump | nothing | halt =>
    simp only [readout, Readout.mk.injEq] at same
    simp [enact, readout, Alu.perform, *]

theorem course_retire (same : b.course = a.course) (word : UInt16) (instruction : Instruction)
    (flow : Flow) :
    (b.retire word instruction flow).course = (a.retire word instruction flow).course := by
  simp only [course, Course.mk.injEq] at same
  simp [course, retire, same]

theorem readout_retire (same : b.readout = a.readout) (word : UInt16) (instruction : Instruction)
    (flow : Flow) :
    (b.retire word instruction flow).readout = (a.retire word instruction flow).readout := by
  simp only [readout, Readout.mk.injEq] at same
  simp [readout, retire, same]

theorem perform_congr (same : b.course = a.course) (word : UInt16) :
    SameBut a.data.base b.data.base (a.perform word).1 (b.perform word).1 ∧
      (b.perform word).2.course = (a.perform word).2.course ∧
      (b.readout = a.readout → (b.perform word).2.readout = (a.perform word).2.readout) := by
  have seen : (b.seen word).course = (a.seen word).course := same
  have shape := Instruction.shape_decode word
  rw [perform_eq, perform_eq, execute_eq_enact _ shape, execute_eq_enact _ shape,
    effect_congr seen]
  generalize (a.seen word).effect (.decode word) = effect
  obtain ⟨outcomes, courses⟩ := enact_congr seen effect
  have readouts (same : b.readout = a.readout) :
      ((b.seen word).enact effect).2.readout = ((a.seen word).enact effect).2.readout := by
    have seen : (b.seen word).readout = (a.seen word).readout := same
    exact readout_enact seen effect
  generalize (a.seen word).enact effect = first at outcomes courses readouts ⊢
  generalize (b.seen word).enact effect = second at outcomes courses readouts ⊢
  obtain ⟨ending, behind⟩ := first
  obtain ⟨otherEnding, otherBehind⟩ := second
  cases outcomes with
  | ok flow =>
    exact ⟨.ok _, course_retire courses word _ flow, fun same => readout_retire (readouts same) word _ flow⟩
  | error shifted => exact ⟨.error shifted, courses, readouts⟩

theorem step_of_laidOut {machine : Machine} (laid : machine.program.LaidOut)
    (active : machine.isHalted = false) :
    machine.step =
      match ProgramMemory.wordAt? machine.program.loaded machine.pc.toNat with
      | some word => machine.perform word
      | none => (.ok false, { machine with state := .halted }) := by
  simp only [step, active, fetch_of_laidOut laid, ProgramMemory.wordAt?_loaded laid]
  cases ProgramMemory.wordAt? machine.program.loaded machine.pc.toNat <;> rfl

theorem step_congr (laidA : a.program.LaidOut) (laidB : b.program.LaidOut) (same : b.course = a.course) :
    SameBut a.data.base b.data.base a.step.1 b.step.1 ∧ b.step.2.course = a.step.2.course ∧
      (b.readout = a.readout → b.step.2.readout = a.step.2.readout) := by
  have pc : b.pc = a.pc := congrArg Course.pc same
  have state : b.state = a.state := congrArg Course.state same
  have program : b.program.loaded = a.program.loaded := congrArg Course.program same
  have halted : b.isHalted = a.isHalted := by rw [isHalted, isHalted, state]
  cases active : a.isHalted with
  | true =>
    rw [step_of_isHalted active, step_of_isHalted (halted.trans active)]
    exact ⟨.ok _, same, id⟩
  | false =>
    rw [step_of_laidOut laidA active, step_of_laidOut laidB (halted.trans active), pc, program]
    cases ProgramMemory.wordAt? a.program.loaded a.pc.toNat with
    | some word => exact perform_congr same word
    | none =>
      simp only [course, Course.mk.injEq] at same
      exact ⟨.ok _, by simp [course, same], id⟩

/-- Two machines that are told apart by the bases of their data memories and by what no step looks at. -/
structure Lockstep (base other : UInt16) (a b : Machine) : Prop where
  courses : b.course = a.course
  readouts : b.readout = a.readout
  base_eq : a.data.base = base
  other_eq : b.data.base = other
  laid : a.program.LaidOut
  otherLaid : b.program.LaidOut

section

variable {base other : UInt16}

theorem Lockstep.step (h : Lockstep base other a b) :
    SameBut base other a.step.1 b.step.1 ∧ Lockstep base other a.step.2 b.step.2 := by
  obtain ⟨courses, readouts, rfl, rfl, laid, otherLaid⟩ := h
  obtain ⟨answers, nextCourses, nextReadouts⟩ := step_congr laid otherLaid courses
  refine ⟨answers, nextCourses, nextReadouts readouts, congrArg Config.dataBase a.frame_step,
    congrArg Config.dataBase b.frame_step, ?_, ?_⟩
  · rwa [program_step]
  · rwa [program_step]

theorem Lockstep.run (h : Lockstep base other a b) (budget : Nat) :
    SameBut base other (a.run budget).1 (b.run budget).1 ∧
      Lockstep base other (a.run budget).2 (b.run budget).2 := by
  induction budget generalizing a b with
  | zero =>
    have state : b.state = a.state := congrArg Course.state h.courses
    refine ⟨?_, h⟩
    rw [Machine.run, Machine.run, isHalted, isHalted, state]
    exact .ok _
  | succ budget ih =>
    obtain ⟨answers, next⟩ := h.step
    rw [Machine.run, Machine.run]
    generalize a.step = first at answers next ⊢
    generalize b.step = second at answers next ⊢
    obtain ⟨answer, behind⟩ := first
    obtain ⟨otherAnswer, otherBehind⟩ := second
    cases answers with
    | error shifted => exact ⟨.error shifted, next⟩
    | ok going =>
      cases going with
      | false => exact ⟨.ok _, next⟩
      | true => exact ih next

end

end Machine

end Harvard16
