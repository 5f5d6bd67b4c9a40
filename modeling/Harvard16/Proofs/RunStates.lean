import Harvard16.Proofs.Fetching

/-! The state of a machine as the steps of its session tell it. A machine is ready when no step has
succeeded since it was made, reset or loaded, and otherwise it is running or halted as the last step that
succeeded has answered; a run is the steps that it takes. A halted machine stands at a halt or past its
program, nothing that it is told to execute changes it, and only a reset or a load makes it ready. -/
namespace Harvard16

/-- The state shows what the steps have answered. -/
structure RunState.Shows (state : RunState) (steps : List Bool) : Prop where
  ready_iff : state = .ready ↔ steps = []
  running_iff : state = .running ↔ steps.getLast? = some true
  halted_iff : state = .halted ↔ steps.getLast? = some false

namespace RunState

def after (state : RunState) : Except Fault Bool → RunState
  | .ok true => .running
  | .ok false => .halted
  | .error _ => state

def succeeded : Except Fault Bool → List Bool
  | .ok going => [going]
  | .error _ => []

theorem shows_ready : Shows .ready [] := by
  constructor <;> decide

theorem Shows.after {state : RunState} {past : List Bool} (shows : state.Shows past)
    (answer : Except Fault Bool) : (state.after answer).Shows (past ++ succeeded answer) := by
  cases answer with
  | error fault =>
    rw [succeeded, List.append_nil]
    exact shows
  | ok going => cases going <;> constructor <;> simp [RunState.after, succeeded]

end RunState

namespace Machine

open RunState (succeeded)

def runSteps (machine : Machine) : Nat → List Bool
  | 0 => []
  | budget + 1 =>
    match machine.step with
    | (.ok true, machine) => true :: machine.runSteps budget
    | (.ok false, _) => [false]
    | (.error _, _) => []

def steps (machine : Machine) : Operation → List Bool
  | .step => succeeded machine.step.1
  | .run budget => machine.runSteps budget
  | .runDefault => machine.runSteps machine.cycleBudget
  | .load .. | .reset | .setPolicy _ | .writeRegister .. | .writeData .. | .readData _ | .clearProgram => []

def restarts (machine : Machine) : Operation → Bool
  | .reset => true
  | .load program start => (machine.load program start).1.isOk
  | .step | .run _ | .runDefault | .setPolicy _ | .writeRegister .. | .writeData .. | .readData _ |
    .clearProgram => false

/-- The answers of the steps of a session that have succeeded since the machine was made ready; there were
`past` before the session. -/
def progress (machine : Machine) (past : List Bool) : List Operation → List Bool
  | [] => past
  | operation :: operations =>
    let present := if machine.restarts operation then [] else past ++ machine.steps operation
    (machine.apply operation).2.progress present operations

theorem isHalted_iff {machine : Machine} : machine.isHalted = true ↔ machine.state = .halted := by
  simp [isHalted]

theorem state_perform (machine : Machine) (word : UInt16) :
    (machine.perform word).2.state = machine.state.after (machine.perform word).1 := by
  have standing := (machine.seen word).standing_execute (Instruction.shape_decode word)
  rw [perform_eq]
  generalize (machine.seen word).execute (.decode word) = outcome at standing ⊢
  obtain ⟨ending, behind⟩ := outcome
  cases ending with
  | ok flow => cases flow <;> rfl
  | error fault => exact congrArg Standing.state standing

theorem state_fetch (machine : Machine) : machine.fetch.2.state = machine.state := by
  rw [fetch_eq]
  split
  · rfl
  · split <;> rfl

theorem state_step (machine : Machine) : machine.step.2.state = machine.state.after machine.step.1 := by
  have fetched := machine.state_fetch
  unfold step
  split
  · rename_i halted
    exact isHalted_iff.1 halted
  · generalize machine.fetch = outcome at fetched ⊢
    obtain ⟨answer, next⟩ := outcome
    cases answer with
    | error fault => exact fetched
    | ok word? =>
      cases word? with
      | none => rfl
      | some word =>
        have same : next.state = machine.state := fetched
        rw [← same]
        exact next.state_perform word

section

variable {machine : Machine} {past : List Bool}

theorem shows_step (shows : machine.state.Shows past) :
    machine.step.2.state.Shows (past ++ succeeded machine.step.1) := by
  rw [state_step]
  exact shows.after machine.step.1

theorem shows_run (shows : machine.state.Shows past) (budget : Nat) :
    (machine.run budget).2.state.Shows (past ++ machine.runSteps budget) := by
  induction budget generalizing machine past with
  | zero =>
    rw [runSteps, List.append_nil]
    exact shows
  | succ budget ih =>
    have stepped := shows_step shows
    rw [run, runSteps]
    generalize machine.step = outcome at stepped ⊢
    obtain ⟨answer, next⟩ := outcome
    cases answer with
    | error fault => exact stepped
    | ok going =>
      cases going with
      | false => exact stepped
      | true =>
        have later := ih stepped
        rwa [succeeded, List.append_assoc] at later

theorem shows_apply (shows : machine.state.Shows past) (operation : Operation) :
    (machine.apply operation).2.state.Shows
      (if machine.restarts operation then [] else past ++ machine.steps operation) := by
  cases operation with
  | load program start =>
    rw [apply, restarts]
    obtain ⟨memory, -, loaded⟩ | ⟨fault, -, failed⟩ := machine.load_cases program start
    · rw [loaded]
      exact RunState.shows_ready
    · rw [failed]
      simpa [Except.isOk, Except.toBool, steps] using shows
  | step => exact shows_step shows
  | run budget => exact shows_run shows budget
  | runDefault => exact shows_run shows machine.cycleBudget
  | reset => exact RunState.shows_ready
  | setPolicy | writeRegister | writeData | readData | clearProgram =>
    simp only [restarts, steps, Bool.false_eq_true, if_false, List.append_nil]
    exact shows

theorem shows_session (shows : machine.state.Shows past) (operations : List Operation) :
    (machine.session operations).2.state.Shows (machine.progress past operations) := by
  induction operations generalizing machine past with
  | nil => exact shows
  | cons operation operations ih => exact ih (shows_apply shows operation)

end

theorem eq_of_decode_halt {word : UInt16} (h : Instruction.decode word = .special .halt) :
    word = 0xF000 := by
  have same := Instruction.encode_decode word
  rw [h] at same
  exact same.symm

theorem halt_of_execute (machine : Machine) {instruction : Instruction} (shape : instruction.Shape)
    (halts : (machine.execute instruction).1 = .ok .halt) : instruction = .special .halt := by
  cases shape with
  | halt => rfl
  | register rd rs1 rs2 signals =>
    rw [execute_register _ _ _ _ signals] at halts
    cases halts
  | immediate rd rs1 imm signals =>
    rw [execute_immediate _ _ _ _ signals] at halts
    cases halts
  | branch rs1 rs2 offset signals =>
    rw [execute_branch _ _ _ _ signals] at halts
    simp only [Except.ok.injEq] at halts
    split at halts <;> cases halts
  | jump | nop => cases halts
  | load rd rs1 imm =>
    rw [execute_load] at halts
    split at halts
    · cases halts
    · split at halts <;> cases halts
  | store rs2 rs1 offset =>
    rw [execute_store] at halts
    split at halts
    · cases halts
    · split at halts <;> cases halts
  | invalid word =>
    rw [execute_invalid] at halts
    split at halts <;> cases halts

/-- The program is laid out, and if the machine is halted, it stands at a halt or past the program. -/
structure AtRest (machine : Machine) : Prop where
  laid : machine.program.LaidOut
  place : machine.state = .halted →
    machine.program.stop ≤ machine.pc.toNat ∨
      machine.program.words[machine.pc.toNat]? = some 0xF000

section

variable {machine : Machine}

theorem atRest_of_active (laid : machine.program.LaidOut) (active : machine.state ≠ .halted) :
    machine.AtRest :=
  ⟨laid, fun halted => absurd halted active⟩

theorem atRest_perform (laid : machine.program.LaidOut) (active : machine.state ≠ .halted) {word : UInt16}
    (found : machine.program.words[machine.pc.toNat]? = some word) : (machine.perform word).2.AtRest := by
  have shape := Instruction.shape_decode word
  have standing := (machine.seen word).standing_execute shape
  have setup := (machine.seen word).setup_execute shape
  have halts := (machine.seen word).halt_of_execute shape
  rw [perform_eq]
  generalize (machine.seen word).execute (.decode word) = outcome at standing setup halts ⊢
  obtain ⟨ending, behind⟩ := outcome
  have program : behind.program = machine.program := congrArg Prod.fst setup
  have pc : behind.pc = machine.pc := congrArg Standing.pc standing
  have state : behind.state = machine.state := congrArg Standing.state standing
  have behindLaid : behind.program.LaidOut := by rwa [program]
  cases ending with
  | error fault => exact atRest_of_active behindLaid (by rwa [state])
  | ok flow =>
    cases flow with
    | next | jump => exact atRest_of_active behindLaid (by simp [retire])
    | halt =>
      have here : (behind.retire word (.decode word) .halt).pc = machine.pc := pc
      refine ⟨behindLaid, fun _ => .inr ?_⟩
      rw [here]
      show behind.program.words[machine.pc.toNat]? = some 0xF000
      rw [program, found, eq_of_decode_halt (halts rfl)]

theorem AtRest.step (rest : machine.AtRest) : machine.step.2.AtRest := by
  cases active : machine.isHalted with
  | true =>
    rw [step_of_isHalted active]
    exact rest
  | false =>
    rcases Nat.lt_or_ge machine.pc.toNat machine.program.stop with inside | beyond
    · obtain ⟨word, found, performed⟩ := step_before_stop rest.laid active inside
      have going : machine.state ≠ .halted := by simpa [isHalted] using active
      rw [performed]
      exact atRest_perform rest.laid going found
    · rw [step_past_stop rest.laid active beyond]
      exact ⟨rest.laid, fun _ => .inl beyond⟩

theorem AtRest.run (rest : machine.AtRest) (budget : Nat) : (machine.run budget).2.AtRest :=
  run_induction (fun _ => AtRest.step) rest budget

theorem AtRest.apply (rest : machine.AtRest) (operation : Operation) :
    (machine.apply operation).2.AtRest := by
  have laid := machine.laidOut_apply operation rest.laid
  cases operation with
  | load program start =>
    rw [Machine.apply] at laid ⊢
    obtain ⟨memory, -, loaded⟩ | ⟨fault, -, failed⟩ := machine.load_cases program start
    · rw [loaded] at laid ⊢
      exact atRest_of_active laid (by simp)
    · rw [failed]
      exact ⟨rest.laid, rest.place⟩
  | step => exact rest.step
  | run budget => exact rest.run budget
  | runDefault => exact rest.run machine.cycleBudget
  | reset => exact atRest_of_active laid (by simp [Machine.apply, reset])
  | setPolicy | writeRegister | writeData | readData => exact ⟨laid, rest.place⟩
  | clearProgram => exact ⟨laid, fun _ => .inl (Nat.zero_le _)⟩

theorem atRest_session (config : Config) (operations : List Operation) :
    ((build config).session operations).2.AtRest := by
  have fresh : (build config).AtRest := atRest_of_active (ProgramMemory.laidOut_blank _) (by simp [build])
  exact session_induction (fun _ operation rest => rest.apply operation) fresh operations

theorem restarts_of_state_ne (halted : machine.state = .halted) {operation : Operation}
    (left : (machine.apply operation).2.state ≠ .halted) : machine.restarts operation = true := by
  have done : machine.isHalted = true := isHalted_iff.2 halted
  cases operation with
  | load program start =>
    rw [apply] at left
    rw [restarts]
    obtain ⟨memory, -, loaded⟩ | ⟨fault, -, failed⟩ := machine.load_cases program start
    · rw [loaded]
      rfl
    · rw [failed] at left
      exact absurd halted left
  | step =>
    rw [apply, step_of_isHalted done] at left
    exact absurd halted left
  | run budget =>
    rw [apply, run_of_isHalted done] at left
    exact absurd halted left
  | runDefault =>
    rw [apply, runDefault, run_of_isHalted done] at left
    exact absurd halted left
  | reset => rfl
  | setPolicy | writeRegister | writeData | readData | clearProgram => exact absurd halted left

end

/-- The state of a machine is told by the steps that have succeeded since it was made ready: it is ready if
there are none, and else the last of them has answered whether it goes on. When it is halted, it is at a
halt or past its program, steps and runs leave it exactly as it is, and what makes it go on again is a
reset or a load that succeeds. -/
theorem state_session (config : Config) (operations : List Operation) :
    let machine := ((build config).session operations).2
    machine.state.Shows ((build config).progress [] operations) ∧
      (machine.state = .halted →
        (machine.program.stop ≤ machine.pc.toNat ∨
          machine.program.words[machine.pc.toNat]? = some 0xF000) ∧
        machine.step = (.ok false, machine) ∧
        (∀ budget, machine.run budget = (.ok true, machine)) ∧
        ∀ operation, (machine.apply operation).2.state ≠ .halted → machine.restarts operation = true) := by
  intro machine
  refine ⟨shows_session RunState.shows_ready operations, ?_⟩
  intro halted
  have done : machine.isHalted = true := isHalted_iff.2 halted
  refine ⟨(atRest_session config operations).place halted, step_of_isHalted done, run_of_isHalted done, ?_⟩
  intro operation left
  exact restarts_of_state_ne halted left

/-- A machine that has halted and whose program was taken away then; a load was refused. -/
def emptied : Machine :=
  ((build { Config.default with programSize := 4 }).session
    [.load [0xE000, 0xF000] 1, .run 5, .clearProgram, .load [0xE000] 4]).2

theorem state_session_emptied :
    emptied.state = .halted ∧ emptied.program.stop ≤ emptied.pc.toNat ∧
      emptied.step = (.ok false, emptied) ∧ emptied.run 7 = (.ok true, emptied) ∧
      (emptied.apply (.load [0xE000] 0)).2.state ≠ .halted ∧
      emptied.restarts (.load [0xE000] 0) = true := by
  obtain ⟨shows, rests⟩ := state_session { Config.default with programSize := 4 }
    [.load [0xE000, 0xF000] 1, .run 5, .clearProgram, .load [0xE000] 4]
  have halted : emptied.state = .halted := shows.halted_iff.2 (by decide)
  obtain ⟨-, step, run, restarts⟩ := rests halted
  have left : (emptied.apply (.load [0xE000] 0)).2.state ≠ .halted := by decide
  exact ⟨halted, by decide, step, run 7, left, restarts _ left⟩

end Machine

end Harvard16
