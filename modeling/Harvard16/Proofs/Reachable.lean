import Harvard16.Machine.Operation
import Harvard16.Proofs.ProgramMemory
import Harvard16.Proofs.Runs

/-! Reachable machines: those that a session of operations makes of a fresh machine with a valid
configuration. What a fresh machine has and every operation keeps, all of them have. First uses:
a machine keeps its configuration, the policy apart, and since only loads and clearing touch the
program, it is always laid out in its memory. -/
namespace Harvard16.Machine

theorem ofConfig_eq_ok_iff {config : Config} {machine : Machine} :
    ofConfig config = .ok machine ↔ config.Valid ∧ build config = machine := by
  rw [← Config.check_eq_ok_iff, ofConfig]
  cases config.check with
  | ok => simp
  | error => simp

/-- A state of a machine that was made for a valid configuration, at any time. -/
def Reachable (machine : Machine) : Prop :=
  ∃ config fresh operations,
    ofConfig config = .ok fresh ∧ (fresh.session operations).2 = machine

theorem reachable_session {config : Config} (valid : config.Valid) (operations : List Operation) :
    ((build config).session operations).2.Reachable :=
  ⟨config, _, operations, ofConfig_eq_ok_iff.2 ⟨valid, rfl⟩, rfl⟩

theorem session_induction {P : Machine → Prop}
    (apply : ∀ machine operation, P machine → P (machine.apply operation).2)
    {machine : Machine} (start : P machine) (operations : List Operation) :
    P (machine.session operations).2 := by
  induction operations generalizing machine with
  | nil => exact start
  | cons operation operations ih => exact ih (apply machine operation start)

theorem Reachable.invariant {P : Machine → Prop} (fresh : ∀ config : Config, config.Valid → P (build config))
    (apply : ∀ machine operation, P machine → P (machine.apply operation).2)
    {machine : Machine} (reachable : machine.Reachable) : P machine := by
  obtain ⟨config, first, operations, made, rfl⟩ := reachable
  obtain ⟨valid, rfl⟩ := ofConfig_eq_ok_iff.1 made
  exact session_induction apply (fresh config valid) operations

theorem program_step (machine : Machine) : machine.step.2.program = machine.program :=
  congrArg Prod.fst machine.setup_step

theorem program_run (machine : Machine) (budget : Nat) :
    (machine.run budget).2.program = machine.program :=
  congrArg Prod.fst (machine.setup_run budget)

theorem load_cases (machine : Machine) (program : List UInt16) (start : Nat) :
    (∃ memory, machine.program.load program start = .ok memory ∧
      machine.load program start = (.ok (),
        { machine with program := memory, pc := UInt16.ofNat start, state := .ready })) ∨
      ∃ fault, machine.program.load program start = .error fault ∧
        machine.load program start =
          (.error fault, { machine with faults := machine.faults.record fault }) := by
  rw [load]
  cases machine.program.load program start with
  | ok memory => exact .inl ⟨memory, rfl, rfl⟩
  | error fault => exact .inr ⟨fault, rfl, rfl⟩

theorem load_agree {a b : Machine} (sizes : b.program.size = a.program.size) (program : List UInt16)
    (start : Nat) : (b.load program start).1 = (a.load program start).1 := by
  rw [load, load, ProgramMemory.load_congr sizes]
  cases a.program.load program start <;> rfl

theorem program_apply (machine : Machine) (operation : Operation) :
    (machine.apply operation).2.program = machine.program ∨
      (machine.apply operation).2.program = machine.program.clear ∨
      ∃ program start, machine.program.load program start = .ok (machine.apply operation).2.program := by
  cases operation with
  | load program start =>
    rw [apply]
    obtain ⟨memory, ok, loaded⟩ | ⟨fault, -, failed⟩ := machine.load_cases program start
    · rw [loaded]
      exact .inr (.inr ⟨program, start, ok⟩)
    · rw [failed]
      exact .inl rfl
  | step => exact .inl machine.program_step
  | run budget => exact .inl (machine.program_run budget)
  | runDefault => exact .inl (machine.program_run _)
  | reset => exact .inl rfl
  | setPolicy policy => exact .inl rfl
  | writeRegister i value => exact .inl rfl
  | writeData address value => exact .inl rfl
  | readData address => exact .inl rfl
  | clearProgram => exact .inr (.inl rfl)

/-- What a machine is made with and keeps: its configuration, the policy apart. -/
def frame (machine : Machine) : Config := { machine.config with policy := .strict }

theorem frame_step (machine : Machine) : machine.step.2.frame = machine.frame :=
  congrArg (fun setup => { setup.2 with policy := .strict }) machine.setup_step

theorem frame_run (machine : Machine) (budget : Nat) : (machine.run budget).2.frame = machine.frame :=
  congrArg (fun setup => { setup.2 with policy := .strict }) (machine.setup_run budget)

theorem frame_apply (machine : Machine) (operation : Operation) :
    (machine.apply operation).2.frame = machine.frame := by
  cases operation with
  | load program start =>
    rw [apply]
    obtain ⟨memory, ok, loaded⟩ | ⟨fault, -, failed⟩ := machine.load_cases program start
    · have size : memory.size = machine.program.size := ProgramMemory.size_load ok
      rw [loaded]
      simp [frame, config, size]
    · rw [failed]
      rfl
  | step => exact machine.frame_step
  | run budget => exact machine.frame_run budget
  | runDefault => exact machine.frame_run _
  | reset =>
    simp [apply, reset, frame, config, DataMemory.clear, DataMemory.blank, DataMemory.size,
      FaultHandler.clear, BoundedLog.clear, BoundedLog.empty]
  | writeData address value =>
    simp only [apply, DataMemory.write]
    split
    · simp [frame, config, DataMemory.size]
    · rfl
  | readData address =>
    simp only [apply, DataMemory.read]
    split <;> rfl
  | clearProgram => simp [apply, frame, config, ProgramMemory.clear, ProgramMemory.size_blank]
  | setPolicy | writeRegister => rfl

theorem frame_session (machine : Machine) (operations : List Operation) :
    (machine.session operations).2.frame = machine.frame :=
  session_induction (P := (·.frame = machine.frame))
    (fun other operation same => (other.frame_apply operation).trans same) rfl operations

theorem frame_build (config : Config) : (build config).frame = { config with policy := .strict } := by
  rw [frame, config_build]

theorem size_program_build (config : Config) : (build config).program.size = config.programSize :=
  congrArg Config.programSize (frame_build config)

theorem size_program_apply (machine : Machine) (operation : Operation) :
    (machine.apply operation).2.program.size = machine.program.size :=
  congrArg Config.programSize (machine.frame_apply operation)

theorem laidOut_apply (machine : Machine) (operation : Operation) (laid : machine.program.LaidOut) :
    (machine.apply operation).2.program.LaidOut := by
  rcases machine.program_apply operation with same | cleared | ⟨program, start, loaded⟩
  · rwa [same]
  · rw [cleared]
    exact ProgramMemory.laidOut_blank _
  · exact ProgramMemory.laidOut_load loaded

theorem Reachable.laidOut {machine : Machine} (reachable : machine.Reachable) : machine.program.LaidOut :=
  reachable.invariant (P := (·.program.LaidOut)) (fun _ _ => ProgramMemory.laidOut_blank _) laidOut_apply

theorem Reachable.stop_le {machine : Machine} (reachable : machine.Reachable) :
    machine.program.stop ≤ machine.program.size :=
  reachable.laidOut.stop_le

end Harvard16.Machine
