import Harvard16.Proofs.Reachable

/-! Fresh starts. A session changes nothing in a configuration but the policy, and a reset machine is a new
machine for the configuration that it then has, with the program of the old one. A load that succeeds
replaces program, address and state, so nothing is left of what was before a reset and a load: it does
not matter what that was, nor how often the program is loaded. -/
namespace Harvard16

def Config.after (config : Config) : Machine.Operation → Config
  | .setPolicy policy => { config with policy }
  | .load .. | .step | .run _ | .runDefault | .reset | .writeRegister .. | .writeData .. | .readData _ |
    .clearProgram => config

theorem Config.Valid.after {config : Config} (valid : config.Valid) (operation : Machine.Operation) :
    (config.after operation).Valid := by
  cases operation with
  | setPolicy policy => exact { valid with }
  | load | step | run | runDefault | reset | writeRegister | writeData | readData | clearProgram =>
    exact valid

namespace Machine

theorem policy_apply (machine : Machine) (operation : Operation) :
    (machine.apply operation).2.faults.policy = (machine.config.after operation).policy := by
  cases operation with
  | load program start =>
    rw [apply]
    obtain ⟨memory, -, loaded⟩ | ⟨fault, -, failed⟩ := machine.load_cases program start
    · rw [loaded]
      rfl
    · rw [failed]
      rfl
  | step => exact congrArg (·.2.policy) machine.setup_step
  | run budget => exact congrArg (·.2.policy) (machine.setup_run budget)
  | runDefault => exact congrArg (·.2.policy) (machine.setup_run _)
  | reset | setPolicy | writeRegister | writeData | readData | clearProgram => rfl

theorem config_apply (machine : Machine) (operation : Operation) :
    (machine.apply operation).2.config = machine.config.after operation := by
  have policies := machine.policy_apply operation
  have frames := machine.frame_apply operation
  calc (machine.apply operation).2.config
      = { (machine.apply operation).2.frame with
          policy := (machine.apply operation).2.faults.policy } := rfl
    _ = { machine.frame with policy := (machine.config.after operation).policy } := by
      rw [frames, policies]
    _ = machine.config.after operation := by cases operation <;> rfl

theorem config_session (machine : Machine) (operations : List Operation) :
    (machine.session operations).2.config = operations.foldl Config.after machine.config := by
  induction operations generalizing machine with
  | nil => rfl
  | cons operation operations ih =>
    rw [List.foldl_cons, ← config_apply]
    exact ih _

theorem reset_eq (machine : Machine) :
    machine.reset = { build machine.config with program := machine.program } := rfl

section

variable {machine loaded : Machine} {program : List UInt16} {start : Nat}

theorem load_replaces (loads : machine.load program start = (.ok (), loaded)) {memory : ProgramMemory}
    (size : memory.size = machine.program.size) (pc : UInt16) (state : RunState) :
    { machine with program := memory, pc, state }.load program start = (.ok (), loaded) := by
  obtain ⟨after, ok, done⟩ | ⟨fault, -, failed⟩ := machine.load_cases program start
  · rw [loads] at done
    cases done
    have same : memory.load program start = .ok after := (ProgramMemory.load_congr size _ _).trans ok
    simp only [load, same]
  · rw [loads] at failed
    cases failed

theorem load_again (loads : machine.load program start = (.ok (), loaded)) :
    loaded.load program start = (.ok (), loaded) := by
  obtain ⟨after, ok, done⟩ | ⟨fault, -, failed⟩ := machine.load_cases program start
  · have replaced := load_replaces loads (ProgramMemory.size_load ok) (UInt16.ofNat start) .ready
    rw [loads] at done
    cases done
    exact replaced
  · rw [loads] at failed
    cases failed

theorem apply_load (loads : machine.load program start = (.ok (), loaded)) :
    machine.apply (.load program start) = (.finished (.ok ()), loaded) := by
  rw [apply, loads]
  rfl

theorem session_cons (machine : Machine) (operation : Operation) (operations : List Operation) :
    machine.session (operation :: operations) =
      ((machine.apply operation).1 :: ((machine.apply operation).2.session operations).1,
        ((machine.apply operation).2.session operations).2) := rfl

theorem session_loads (loads : machine.load program start = (.ok (), loaded)) (again : Nat)
    (later : List Operation) :
    machine.session (List.replicate (again + 1) (.load program start) ++ later) =
      (List.replicate (again + 1) (.finished (.ok ())) ++ (loaded.session later).1,
        (loaded.session later).2) := by
  induction again generalizing machine with
  | zero =>
    rw [List.replicate_one, List.singleton_append, session_cons, apply_load loads]
    rfl
  | succ again ih =>
    rw [List.replicate_succ, List.cons_append, session_cons, apply_load loads, ih (load_again loads)]
    rfl

end

/-- A machine that is reset at any time of a session is one that has just been made for its configuration, but
for the program, and its configuration is the first one with the policy that was set last. What a new
machine loads it loads too, and once that is done, if only once, there is nothing to tell them apart. -/
theorem reset_starts_fresh {config : Config} (valid : config.Valid) (operations : List Operation) :
    let machine := ((build config).session operations).2
    machine.config = operations.foldl Config.after config ∧
      ∃ fresh, ofConfig machine.config = .ok fresh ∧
        machine.reset = { fresh with program := machine.program } ∧
        (∀ program start, (machine.reset.load program start).1 = (fresh.load program start).1) ∧
        ∀ program start loaded, fresh.load program start = (.ok (), loaded) → ∀ again later,
          machine.session (.reset :: List.replicate (again + 1) (.load program start) ++ later) =
            (.done :: List.replicate (again + 1) (.finished (.ok ())) ++ (loaded.session later).1,
              (loaded.session later).2) := by
  intro machine
  have kept : machine.config = operations.foldl Config.after config := by
    have configs := (build config).config_session operations
    rwa [config_build] at configs
  have still : machine.config.Valid := by
    rw [kept]
    exact List.foldlRecOn operations _ valid fun _ earlier operation _ => earlier.after operation
  have size : machine.reset.program.size = (build machine.config).program.size :=
    (size_program_build machine.config).symm
  refine ⟨kept, build machine.config, ofConfig_eq_ok_iff.2 ⟨still, rfl⟩, rfl, ?_, ?_⟩
  · intro program start
    exact load_agree size program start
  · intro program start loaded loads again later
    have reloads : machine.reset.load program start = (.ok (), loaded) := load_replaces loads size 0 .ready
    rw [List.cons_append, session_cons, apply, session_loads reloads]
    rfl

/-- A machine that a fault has stopped, with registers and data that were written from outside. -/
def stopped : Machine :=
  ((build { Config.default with programSize := 8, dataSize := 4 }).session
    [.setPolicy .strict, .load [0x5117, 0xD000] 2, .run 5, .writeRegister 3 9, .writeData 0x1001 7]).2

theorem reset_starts_fresh_stopped :
    { Config.default with programSize := 8, dataSize := 4 }.Valid ∧
      stopped.faults.total = 1 ∧ stopped.config.policy = .strict ∧
      ∃ fresh loaded, ofConfig stopped.config = .ok fresh ∧
        stopped.reset = { fresh with program := stopped.program } ∧
        fresh.load [0xF000] 3 = (.ok (), loaded) ∧
        (stopped.session [.reset, .load [0xF000] 3, .load [0xF000] 3, .run 2]).2 =
          (loaded.session [.run 2]).2 := by
  have valid : { Config.default with programSize := 8, dataSize := 4 }.Valid :=
    Config.check_eq_ok_iff.1 rfl
  obtain ⟨kept, fresh, made, reset, -, sessions⟩ := reset_starts_fresh valid
    [.setPolicy .strict, .load [0x5117, 0xD000] 2, .run 5, .writeRegister 3 9, .writeData 0x1001 7]
  obtain ⟨-, rfl⟩ := ofConfig_eq_ok_iff.1 made
  let loaded := ((build stopped.config).load [0xF000] 3).2
  have loads : (build stopped.config).load [0xF000] 3 = (.ok (), loaded) := rfl
  have reloaded : stopped.session [.reset, .load [0xF000] 3, .load [0xF000] 3, .run 2] =
      (.done :: [.finished (.ok ()), .finished (.ok ())] ++ (loaded.session [.run 2]).1,
        (loaded.session [.run 2]).2) := sessions [0xF000] 3 loaded loads 1 [.run 2]
  exact ⟨valid, rfl, congrArg Config.policy kept, _, loaded, made, reset, loads, by rw [reloaded]⟩

end Machine

end Harvard16
