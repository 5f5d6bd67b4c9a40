import Harvard16.Proofs.ProgramFiles
import Harvard16.Proofs.StraightLine
import Harvard16.Proofs.Tracing

/-! What a trace shows. Its lines are taken from the history, so they are there as long as the history keeps
the entry that was made last: a capacity of one is enough for that, and a capacity of zero leaves the
heading alone. Main statement: a trace in a history with room has one line for each cycle that the run
counts, in order, with the word that was executed in that cycle and the flags after it, and no other
line; and in a history without room it has none. -/
namespace Harvard16

namespace Machine

/-- The line for cycle `n` of those to come, the first of them cycle zero: the number of the cycle, the
address, the word at it and its text, and the flags when it has been executed. -/
def cycleLine (machine : Machine) (n : Nat) : String :=
  let pc := (machine.after n).pc
  let word := machine.program.words[pc.toNat]?.getD 0
  Retired.row (machine.cycles + n + 1) pc word (Instruction.decode word).text ++
    "  [" ++ (machine.after (n + 1)).alu.flags.text ++ "]"

/-- Cycle `n` of those to come is counted by step `n`, which executes the word at its address. -/
structure Counted (machine : Machine) (n : Nat) : Prop where
  executed : ∃ word, machine.program.words[(machine.after n).pc.toNat]? = some word ∧
    (machine.after n).step = (machine.after n).perform word
  before : (machine.after n).cycles = machine.cycles + n
  behind : (machine.after (n + 1)).cycles = machine.cycles + n + 1

/-- A run that counts so many cycles, with a line for each that the history can tell of. Only the last of
its steps may be one that counts no cycle. -/
structure Traces (machine : Machine) (budget count : Nat) : Prop where
  within : count ≤ budget
  counted : ∀ n < count, machine.Counted n
  ended : (machine.run budget).2 = machine.after count ∨ (machine.run budget).2 = machine.after (count + 1)
  cycles : (machine.run budget).2.cycles = machine.cycles + count
  lines : (machine.runTraced budget).1 =
    if machine.history.capacity = 0 then [] else (List.range count).map machine.cycleLine

variable {machine : Machine}

theorem perform_cases (machine : Machine) (word : UInt16) :
    (∃ fault, (machine.perform word).1 = .error fault ∧ (machine.perform word).2.cycles = machine.cycles) ∨
    ∃ going, (machine.perform word).1 = .ok going ∧
      (machine.perform word).2.cycles = machine.cycles + 1 ∧
      (machine.perform word).2.history = machine.history.push (machine.entry word) := by
  have standing := (machine.seen word).standing_execute (Instruction.shape_decode word)
  rw [perform_eq]
  generalize (machine.seen word).execute (.decode word) = outcome at standing ⊢
  obtain ⟨flow, behind⟩ := outcome
  have pc : behind.pc = machine.pc := congrArg Standing.pc standing
  have cycles : behind.cycles = machine.cycles := congrArg Standing.cycles standing
  have history : behind.history = machine.history := congrArg Standing.history standing
  cases flow with
  | error fault => exact .inl ⟨fault, rfl, cycles⟩
  | ok flow =>
    refine .inr ⟨flow ≠ .halt, rfl, congrArg (· + 1) cycles, ?_⟩
    rw [entry, ← pc, ← cycles, ← history]
    rfl

theorem lines_of_fault {fault : Fault} (failed : machine.step.1 = .error fault) (budget : Nat) :
    (machine.runTraced (budget + 1)).1 = [] := by
  rw [runTraced, runTraced.go]
  generalize machine.step = outcome at failed ⊢
  obtain ⟨answer, next⟩ := outcome
  obtain rfl : answer = .error fault := failed
  rfl

theorem lines_succ {going : Bool} (answered : machine.step.1 = .ok going) (budget : Nat) :
    (machine.runTraced (budget + 1)).1 =
      (traceLine? machine.cycles machine.step.2).toList ++
        if going then (machine.step.2.runTraced budget).1 else [] := by
  rw [runTraced, runTraced.go]
  generalize machine.step = outcome at answered ⊢
  obtain ⟨answer, next⟩ := outcome
  obtain rfl : answer = .ok going := answered
  dsimp only
  cases going with
  | false => cases traceLine? machine.cycles next <;> rfl
  | true =>
    rw [if_pos rfl, if_pos rfl, runTraced_go]
    cases traceLine? machine.cycles next <;> rfl

theorem Counted.succ {n : Nat} (counted : machine.step.2.Counted n)
    (cycles : machine.step.2.cycles = machine.cycles + 1) : machine.Counted (n + 1) := by
  have program : machine.step.2.program = machine.program := machine.program_step
  obtain ⟨executed, before, behind⟩ := counted
  rw [cycles] at before behind
  rw [program] at executed
  refine ⟨?_, ?_, ?_⟩
  · rw [after_succ]
    exact executed
  · rw [after_succ, before]
    omega
  · rw [after_succ, behind]
    omega

theorem cycleLine_succ (cycles : machine.step.2.cycles = machine.cycles + 1) (n : Nat) :
    machine.cycleLine (n + 1) = machine.step.2.cycleLine n := by
  have program : machine.step.2.program = machine.program := machine.program_step
  have number : machine.cycles + 1 + n + 1 = machine.cycles + (n + 1) + 1 := by omega
  rw [cycleLine, cycleLine, program, cycles, number, after_succ, after_succ]

theorem snd_run_succ_of_last (last : machine.step.1 ≠ .ok true) (budget : Nat) :
    (machine.run (budget + 1)).2 = machine.step.2 := by
  rw [run]
  split <;> simp_all

theorem traces_idle (budget : Nat) (idle : machine.step.2.cycles = machine.cycles)
    (last : machine.step.1 ≠ .ok true) : machine.Traces (budget + 1) 0 := by
  have run := snd_run_succ_of_last last budget
  have silent : traceLine? machine.cycles machine.step.2 = none := if_pos idle
  refine ⟨Nat.zero_le _, nofun, .inr run, ?_, ?_⟩
  · rw [run]
    exact idle
  · rw [List.range_zero, List.map_nil, ite_self]
    cases answered : machine.step.1 with
    | error fault => exact lines_of_fault answered budget
    | ok going =>
      rw [lines_succ answered, silent]
      cases going with
      | false => rfl
      | true => exact absurd answered last

section

variable {word : UInt16} (found : machine.program.words[machine.pc.toNat]? = some word)
  (performed : machine.step = machine.perform word)

include found performed

theorem traceLine?_perform {going : Bool} (sound : (machine.perform word).1 = .ok going) :
    (traceLine? machine.cycles machine.step.2).toList =
      if machine.history.capacity = 0 then [] else [machine.cycleLine 0] := by
  obtain ⟨fault, failed, -⟩ | ⟨-, -, cycles, history⟩ := machine.perform_cases word
  · rw [failed] at sound
    cases sound
  · have counted : machine.step.2.cycles ≠ machine.cycles := by
      rw [performed, cycles]
      exact Nat.succ_ne_self _
    have entered : machine.step.2.history = machine.history.push (machine.entry word) := by
      rw [performed, history]
    rw [traceLine?, if_neg counted, entered, BoundedLog.last?_push]
    split
    · rfl
    · have shown : machine.cycleLine 0 =
          (machine.entry word).line ++ "  [" ++ machine.step.2.alu.flags.text ++ "]" := by
        rw [cycleLine, after, after, found]
        rfl
      rw [shown]
      rfl

theorem counted_first (cycles : machine.step.2.cycles = machine.cycles + 1) : machine.Counted 0 :=
  ⟨⟨word, found, performed⟩, rfl, cycles⟩

theorem traces_last (budget : Nat) (last : (machine.perform word).1 = .ok false)
    (cycles : machine.step.2.cycles = machine.cycles + 1) : machine.Traces (budget + 1) 1 := by
  have answer : machine.step.1 = .ok false := by rw [performed, last]
  have run := snd_run_succ_of_last (by rw [answer]; decide) budget
  refine ⟨Nat.succ_le_succ (Nat.zero_le _), ?_, .inl run, ?_, ?_⟩
  · intro n first
    obtain rfl : n = 0 := Nat.lt_one_iff.1 first
    exact counted_first found performed cycles
  · rw [run, cycles]
  · rw [lines_succ answer, traceLine?_perform found performed last]
    split <;> rfl

theorem Traces.prepend {budget count : Nat} (going : (machine.perform word).1 = .ok true)
    (cycles : machine.step.2.cycles = machine.cycles + 1) (traces : machine.step.2.Traces budget count) :
    machine.Traces (budget + 1) (count + 1) := by
  have answer : machine.step.1 = .ok true := by rw [performed, going]
  have capacity : machine.step.2.history.capacity = machine.history.capacity :=
    congrArg (·.2.historyCapacity) machine.setup_step
  obtain ⟨within, counted, ended, total, lines⟩ := traces
  rw [capacity] at lines
  refine ⟨Nat.succ_le_succ within, ?_, ?_, ?_, ?_⟩
  · intro n before
    cases n with
    | zero => exact counted_first found performed cycles
    | succ n => exact (counted n (Nat.lt_of_succ_lt_succ before)).succ cycles
  · rw [run_succ_of_going answer, after_succ, after_succ]
    exact ended
  · rw [run_succ_of_going answer, total, cycles]
    omega
  · rw [lines_succ answer, traceLine?_perform found performed going, lines]
    split
    · rfl
    · have rest : (machine.cycleLine ∘ Nat.succ) = machine.step.2.cycleLine :=
        funext (cycleLine_succ cycles)
      rw [List.range_succ_eq_map, List.map_cons, List.map_map, rest]
      rfl

end

theorem exists_traces (laid : machine.program.LaidOut) (budget : Nat) :
    ∃ count, machine.Traces budget count := by
  induction budget generalizing machine with
  | zero => exact ⟨0, Nat.le_refl 0, nofun, .inl rfl, rfl, (ite_self _).symm⟩
  | succ budget ih =>
    rcases step_cases laid with same | ended | ⟨word, found, performed⟩
    · refine ⟨0, traces_idle budget ?_ ?_⟩ <;> rw [same]
      nofun
    · refine ⟨0, traces_idle budget ?_ ?_⟩ <;> rw [ended]
      nofun
    · obtain ⟨fault, failed, idle⟩ | ⟨going, sound, cycles, -⟩ := machine.perform_cases word
      · refine ⟨0, traces_idle budget ?_ ?_⟩
        · rw [performed, idle]
        · rw [performed, failed]
          nofun
      · rw [← performed] at cycles
        cases going with
        | false => exact ⟨1, traces_last found performed budget sound cycles⟩
        | true =>
          have behind : machine.step.2.program.LaidOut := by
            rw [program_step]
            exact laid
          obtain ⟨count, traces⟩ := ih behind
          exact ⟨count + 1, Traces.prepend found performed sound cycles traces⟩

end Machine

theorem Config.Valid.strict {config : Config} (valid : config.Valid) : { config with policy := .strict }.Valid :=
  { valid with }

theorem Config.valid_of_parse {text : List Char} {config : Config} (parsed : parse text = .ok config) :
    config.Valid := by
  unfold parse at parsed
  cases read : (Json.parse? text).bind ofJson? with
  | none =>
    rw [read] at parsed
    cases parsed
  | some found =>
    rw [read] at parsed
    replace parsed : found.check.map (fun _ => found) = .ok config := parsed
    cases checked : found.check with
    | error error =>
      rw [checked] at parsed
      cases parsed
    | ok passed =>
      rw [checked] at parsed
      cases parsed
      exact check_eq_ok_iff.1 checked

namespace CommandLine

variable {directory : Directory} {options : RunOptions} {given : Config}

inductive Configures (directory : Directory) : Option String → Config → Prop
  | default : Configures directory none .default
  | file {path text : String} {given : Config} (held : directory.read path = .ok text.toUTF8.data.toList)
      (parsed : Config.parse text.toList = .ok given) : Configures directory (some path) given

theorem Configures.valid {file : Option String} (configures : Configures directory file given) :
    given.Valid := by
  cases configures with
  | default => exact Config.default_valid
  | file held parsed => exact Config.valid_of_parse parsed

theorem Configures.play {file : Option String} (configures : Configures directory file given)
    (next : Config → Session) : (readConfig file next).play directory = (next given).play directory := by
  cases configures with
  | default => rfl
  | file held parsed =>
    rw [readConfig, play_readText held]
    simp only [parsed]

namespace RunOptions

def adjust (options : RunOptions) (given : Config) : Config :=
  if options.strict then { given with policy := .strict } else given

theorem valid_adjust (valid : given.Valid) : (options.adjust given).Valid := by
  rw [adjust]
  split
  · exact valid.strict
  · exact valid

theorem historyCapacity_adjust : (options.adjust given).historyCapacity = given.historyCapacity := by
  rw [adjust]
  split <;> rfl

theorem cycleBudget_adjust : (options.adjust given).cycleBudget = given.cycleBudget := by
  rw [adjust]
  split <;> rfl

end RunOptions

theorem play_run {program : String} {words : List UInt16} {loaded : Machine}
    (configures : Configures directory options.config given) (reads : Reads directory program words)
    (filled : words ≠ []) (loads : (Machine.build (options.adjust given)).load words 0 = (.ok (), loaded)) :
    (Command.run program options).session.play directory =
      { report := runReport loaded (options.budget.getD (options.adjust given).cycleBudget) options.trace
          options.json
        directory } := by
  have checked : (options.adjust given).check = .ok () :=
    Config.check_eq_ok_iff.2 (RunOptions.valid_adjust configures.valid)
  have started : words.isEmpty = false := by simpa using filled
  rw [Command.session, runProgram, configures.play]
  dsimp only
  rw [reads, ← RunOptions.adjust]
  simp only [started, Bool.false_eq_true, if_false, Machine.ofConfig, checked, loads]
  rfl

/-- A traced run prints what the run prints without a trace, and in front of it the heading and the lines. A
history with room for one entry is enough to have one line for each cycle that is counted; a history
without room leaves no line, however many cycles there are. -/
theorem trace_shows_cycles {program : String} {words : List UInt16} {loaded : Machine}
    (configures : Configures directory options.config given) (reads : Reads directory program words)
    (filled : words ≠ []) (loads : (Machine.build (options.adjust given)).load words 0 = (.ok (), loaded))
    (traced : options.trace = true) :
    let budget := options.budget.getD given.cycleBudget
    let behind := (loaded.run budget).2
    let lines := if given.historyCapacity = 0 then []
      else (List.range behind.cycles).map loaded.cycleLine
    (Command.run program options).session.play directory =
      { report := (runReport loaded budget false options.json).behind (traceText lines), directory } ∧
    (∀ n < behind.cycles, loaded.Counted n) ∧
    (behind = loaded.after behind.cycles ∨ behind = loaded.after (behind.cycles + 1)) := by
  intro budget behind lines
  obtain ⟨memory, ok, machine⟩ := Machine.of_load_build loads
  have laid : loaded.program.LaidOut := by
    rw [machine]
    exact ProgramMemory.laidOut_load ok
  obtain ⟨-, fresh, history⟩ := Machine.fresh_load loads
  obtain ⟨count, traces⟩ := Machine.exists_traces laid budget
  have total : behind.cycles = count := by
    rw [traces.cycles, fresh, Nat.zero_add]
  have shown : (loaded.runTraced budget).1 = lines := by
    rw [traces.lines, history, ← total, BoundedLog.empty, RunOptions.historyCapacity_adjust]
  refine ⟨?_, ?_, ?_⟩
  · rw [play_run configures reads filled loads, RunOptions.cycleBudget_adjust, traced, runReport_traced, shown]
  · rw [total]
    exact traces.counted
  · rw [total]
    exact traces.ended

def workshop (source settings : String) : Directory :=
  ⟨[("p.asm", source.toUTF8.data.toList), ("c.json", settings.toUTF8.data.toList)]⟩

theorem trace_shows_cycles_narrow :
    let directory := workshop "addi t0, zero, 5\nsub t0, zero, t0\nhalt"
      "\x7b\"imem_size\": 4, \"dmem_size\": 4, \"history_capacity\": 1\x7d"
    let options : RunOptions := ⟨some 7, true, true, false, some "c.json"⟩
    let given := { Config.default with programSize := 4, dataSize := 4, historyCapacity := 1 }
    let words : List UInt16 := [0x5505, 0x1505, 0xF000]
    let loaded := ((Machine.build (options.adjust given)).load words 0).2
    Configures directory options.config given ∧ Reads directory "p.asm" words ∧ words ≠ [] ∧
      (Machine.build (options.adjust given)).load words 0 = (.ok (), loaded) ∧
      (Command.run "p.asm" options).session.play directory =
        { report := (runReport loaded 7 false false).behind (traceText
            ["     1  0000: 5505  addi x5, x0, 5  [---]",
             "     2  0001: 1505  sub x5, x0, x5  [--N]",
             "     3  0002: F000  halt  [--N]"])
          directory } := by
  intro directory options given words loaded
  have held : directory.read "c.json" = .ok
      "\x7b\"imem_size\": 4, \"dmem_size\": 4, \"history_capacity\": 1\x7d".toUTF8.data.toList := by
    decide +kernel
  have parsed : Config.parse
      "\x7b\"imem_size\": 4, \"dmem_size\": 4, \"history_capacity\": 1\x7d".toList =
        .ok given := by
    decide +kernel
  have configures : Configures directory options.config given := .file held parsed
  have source : directory.read "p.asm" =
      .ok "addi t0, zero, 5\nsub t0, zero, t0\nhalt".toUTF8.data.toList := by
    decide +kernel
  have correct : (Assembly.ofSource "addi t0, zero, 5\nsub t0, zero, t0\nhalt").errors = [] := by
    decide +kernel
  have assembled : (Assembly.ofSource "addi t0, zero, 5\nsub t0, zero, t0\nhalt").words = words := by
    decide +kernel
  have reads : Reads directory "p.asm" words := by
    rw [← assembled]
    exact reads_source (.inl (by decide +kernel)) source correct
  have filled : words ≠ [] := List.cons_ne_nil _ _
  have loads : (Machine.build (options.adjust given)).load words 0 = (.ok (), loaded) := rfl
  obtain ⟨played, -, -⟩ := trace_shows_cycles configures reads filled loads rfl
  have lines : (List.range (loaded.run 7).2.cycles).map loaded.cycleLine =
      ["     1  0000: 5505  addi x5, x0, 5  [---]",
       "     2  0001: 1505  sub x5, x0, x5  [--N]",
       "     3  0002: F000  halt  [--N]"] := by
    decide +kernel
  refine ⟨configures, reads, filled, loads, ?_⟩
  rw [← lines]
  exact played

/-- Without room nothing is shown of the cycle that is counted. -/
theorem trace_silent :
    ((Command.run "p.asm" ⟨none, false, true, false, some "c.json"⟩).session.play
      (workshop "halt" "\x7b\"imem_size\": 4, \"dmem_size\": 4, \"history_capacity\": 0\x7d")).report.output =
      "━━━ Execution ━━━\n\n━━━ Result ━━━\nState: HALTED  PC: 0x0000  Flags: ---\n" ++
        "Cycles: 1  Instructions: 1  Errors: 0\nRegisters:\n" := by
  decide +kernel

end CommandLine

end Harvard16
