import Harvard16.Proofs.Fetching

/-! Straight programs under the graceful policy: no branch, no jump, no halt. Every word is then executed
once and in order, and the run ends when it has come past the last of them. Addresses have sixteen
bits, so this needs an address past the last word. A program that ends with the last of all addresses
has none: the run goes on at address zero, and no budget is large enough for it to end. -/
namespace Harvard16

def Instruction.isStraight : Instruction → Bool
  | .b .. | .j .. | .special .halt => false
  | .r .. | .i .. | .s .. | .special _ | .invalid _ => true

namespace Machine

theorem toNat_onward {pc : UInt16} {k : Nat} (room : pc.toNat + k < addressSpace) :
    (pc + UInt16.ofNat k).toNat = pc.toNat + k := by
  rw [UInt16.toNat_add, UInt16.toNat_ofNat', Nat.add_mod_mod]
  exact Nat.mod_eq_of_lt room

theorem execute_straight {machine : Machine} {instruction : Instruction}
    (graceful : machine.faults.policy = .graceful) (shape : instruction.Shape)
    (straight : instruction.isStraight) : (machine.execute instruction).1 = .ok .next := by
  cases shape with
  | register rd rs1 rs2 signals => rw [execute_register _ _ _ _ signals]
  | immediate rd rs1 imm signals => rw [execute_immediate _ _ _ _ signals]
  | load rd rs1 imm =>
    rw [execute_load]
    cases machine.data.peek? (machine.dataAddress rs1 imm) with
    | some word => rfl
    | none => rw [report_graceful graceful]
  | store rs2 rs1 offset =>
    rw [execute_store]
    cases machine.data.index? (machine.dataAddress rs1 offset) with
    | some i => rfl
    | none => rw [report_graceful graceful]
  | nop => rfl
  | invalid word => rw [execute_invalid, report_graceful graceful]
  | branch | jump | halt => cases straight

def entry (machine : Machine) (word : UInt16) : Retired := ⟨machine.cycles + 1, machine.pc, word⟩

structure Passes (machine : Machine) (word : UInt16) (outcome : Except Fault Bool × Machine) : Prop where
  going : outcome.1 = .ok true
  active : outcome.2.isHalted = false
  pc : outcome.2.pc = machine.pc + 1
  cycles : outcome.2.cycles = machine.cycles + 1
  history : outcome.2.history = machine.history.push (machine.entry word)

theorem passes_perform {machine : Machine} {word : UInt16} (graceful : machine.faults.policy = .graceful)
    (straight : (Instruction.decode word).isStraight) : Passes machine word (machine.perform word) := by
  have shape := Instruction.shape_decode word
  have next : ((machine.seen word).execute (.decode word)).1 = .ok .next :=
    execute_straight graceful shape straight
  have standing := (machine.seen word).standing_execute shape
  rw [perform_eq]
  generalize (machine.seen word).execute (.decode word) = outcome at next standing ⊢
  obtain ⟨flow, behind⟩ := outcome
  obtain rfl : flow = .ok .next := next
  have pc : behind.pc = machine.pc := congrArg Standing.pc standing
  have cycles : behind.cycles = machine.cycles := congrArg Standing.cycles standing
  have history : behind.history = machine.history := congrArg Standing.history standing
  constructor <;> simp [retire, isHalted, entry, pc, cycles, history]

/-- A machine whose program never leaves the order of addresses. -/
structure Straight (machine : Machine) : Prop where
  graceful : machine.faults.policy = .graceful
  laid : machine.program.LaidOut
  words : ∀ (address : Nat) (word : UInt16), machine.program.words[address]? = some word →
    (Instruction.decode word).isStraight

theorem Straight.of_setup {machine other : Machine} (straight : machine.Straight)
    (same : other.setup = machine.setup) : other.Straight := by
  have program : other.program = machine.program := congrArg Prod.fst same
  have policy : other.faults.policy = machine.faults.policy := congrArg (·.2.policy) same
  obtain ⟨graceful, laid, words⟩ := straight
  exact ⟨policy.trans graceful, by rwa [program], by rwa [program]⟩

theorem Straight.step {machine : Machine} (straight : machine.Straight) (active : machine.isHalted = false)
    (inside : machine.pc.toNat < machine.program.stop) :
    ∃ word, machine.program.words[machine.pc.toNat]? = some word ∧ machine.step = machine.perform word ∧
      Passes machine word machine.step := by
  obtain ⟨word, found, performed⟩ := step_before_stop straight.laid active inside
  refine ⟨word, found, performed, ?_⟩
  rw [performed]
  exact passes_perform straight.graceful (straight.words _ word found)

/-- The entry of cycle `k`, the first of them cycle zero, when no address is left out. -/
def row (first : Machine) (k : Nat) : Retired :=
  let pc := first.pc + UInt16.ofNat k
  ⟨first.cycles + k + 1, pc, first.program.words[pc.toNat]?.getD 0⟩

/-- The machine has come `k` addresses on from where it was first. -/
structure Onward (first : Machine) (k : Nat) (machine : Machine) : Prop where
  setup : machine.setup = first.setup
  active : machine.isHalted = false
  pc : machine.pc = first.pc + UInt16.ofNat k
  cycles : machine.cycles = first.cycles + k
  history : machine.history = ((List.range k).map first.row).foldl .push first.history

section

variable {first machine : Machine} {k : Nat}

theorem step_onward (straight : first.Straight) (onward : Onward first k machine)
    (inside : (first.pc + UInt16.ofNat k).toNat < first.program.stop) :
    ∃ word, first.program.words[(first.pc + UInt16.ofNat k).toNat]? = some word ∧
      machine.step = machine.perform word ∧ Passes machine word machine.step := by
  have program : machine.program = first.program := congrArg Prod.fst onward.setup
  have stepped := (straight.of_setup onward.setup).step onward.active
  rw [program, onward.pc] at stepped
  exact stepped inside

theorem onward_step (straight : first.Straight) (onward : Onward first k machine)
    (inside : (first.pc + UInt16.ofNat k).toNat < first.program.stop) :
    machine.step.1 = .ok true ∧ Onward first (k + 1) machine.step.2 := by
  obtain ⟨word, found, -, passes⟩ := step_onward straight onward inside
  obtain ⟨setup, active, pc, cycles, history⟩ := onward
  -- The row is read in the program of the first machine, which all later ones share.
  have row : machine.entry word = first.row k := by
    rw [entry, Machine.row, found, pc, cycles]
    rfl
  refine ⟨passes.going, machine.setup_step.trans setup, passes.active, ?_, ?_, ?_⟩
  · rw [passes.pc, pc, UInt16.add_assoc, UInt16.ofNat_add]
    rfl
  · rw [passes.cycles, cycles, Nat.add_assoc]
  · rw [passes.history, history, row, List.range_succ, List.map_append, List.foldl_append]
    rfl

theorem onward_after (straight : first.Straight) (active : first.isHalted = false)
    (inside : ∀ i < k, (first.pc + UInt16.ofNat i).toNat < first.program.stop) :
    (∀ i < k, first.answer i = .ok true) ∧ Onward first k (first.after k) := by
  induction k with
  | zero => exact ⟨nofun, rfl, active, (UInt16.add_zero _).symm, rfl, rfl⟩
  | succ k ih =>
    obtain ⟨going, onward⟩ := ih fun i before => inside i (Nat.lt_succ_of_lt before)
    obtain ⟨last, behind⟩ := onward_step straight onward (inside k (Nat.lt_succ_self k))
    refine ⟨fun i before => ?_, behind⟩
    rcases Nat.lt_succ_iff_lt_or_eq.1 before with earlier | rfl
    · exact going i earlier
    · exact last

theorem run_of_room (straight : first.Straight) (active : first.isHalted = false) {n : Nat}
    (ends : first.pc.toNat + n = first.program.stop) (room : first.program.stop < addressSpace) :
    first.run (n + 1) = (.ok true, { first.after n with state := .halted }) ∧
      Onward first n (first.after n) := by
  have address : ∀ i ≤ n, (first.pc + UInt16.ofNat i).toNat = first.pc.toNat + i :=
    fun i within => toNat_onward (by omega)
  have inside : ∀ i < n, (first.pc + UInt16.ofNat i).toNat < first.program.stop := by
    intro i before
    rw [address i (Nat.le_of_lt before)]
    omega
  obtain ⟨going, onward⟩ := onward_after straight active inside
  have past : (first.after n).program.stop ≤ (first.after n).pc.toNat := by
    have program : (first.after n).program = first.program := congrArg Prod.fst onward.setup
    rw [program, onward.pc, address n (Nat.le_refl n)]
    exact Nat.le_of_eq ends.symm
  have last : (first.after n).step = (.ok false, { first.after n with state := .halted }) :=
    step_past_stop (straight.of_setup onward.setup).laid onward.active past
  have ended : first.answer n = .ok false := congrArg Prod.fst last
  refine ⟨?_, onward⟩
  rw [run_of_end going ended, after, last]

/-- A straight program that ends with the last address: the address after it is zero, and that is before
its end again. -/
theorem run_of_flush (straight : first.Straight) (active : first.isHalted = false)
    (flush : addressSpace ≤ first.program.stop) (budget : Nat) :
    first.run budget = (.ok false, first.after budget) ∧ Onward first budget (first.after budget) := by
  have inside : ∀ i < budget, (first.pc + UInt16.ofNat i).toNat < first.program.stop :=
    fun i _ => Nat.lt_of_lt_of_le (UInt16.toNat_lt _) flush
  obtain ⟨going, onward⟩ := onward_after straight active inside
  exact ⟨by rw [run_of_going going, onward.active], onward⟩

end

section

variable {config : Config} {words : List UInt16} {start : Nat} {loaded : Machine}

theorem of_load_build (loads : (build config).load words start = (.ok (), loaded)) :
    ∃ memory, (build config).program.load words start = .ok memory ∧
      loaded = { build config with program := memory, pc := UInt16.ofNat start } := by
  obtain ⟨memory, ok, done⟩ | ⟨fault, -, failed⟩ := (build config).load_cases words start
  · rw [done] at loads
    cases loads
    exact ⟨memory, ok, rfl⟩
  · rw [failed] at loads
    cases loads

theorem fresh_load (loads : (build config).load words start = (.ok (), loaded)) :
    loaded.isHalted = false ∧ loaded.cycles = 0 ∧ loaded.history = .empty config.historyCapacity := by
  obtain ⟨memory, -, rfl⟩ := of_load_build loads
  exact ⟨rfl, rfl, rfl⟩

theorem exists_load (before : start < config.programSize)
    (fits : start + words.length ≤ config.programSize) :
    ∃ loaded, (build config).load words start = (.ok (), loaded) := by
  rw [← size_program_build] at before fits
  rw [load, ProgramMemory.load_eq_ok_iff.2 ⟨before, fits, rfl⟩]
  exact ⟨_, rfl⟩

theorem straight_load (graceful : config.policy = .graceful)
    (loads : (build config).load words start = (.ok (), loaded))
    (straight : ∀ word ∈ words, (Instruction.decode word).isStraight) : loaded.Straight := by
  obtain ⟨memory, ok, rfl⟩ := of_load_build loads
  refine ⟨graceful, ProgramMemory.laidOut_load ok, ?_⟩
  intro address word found
  rcases ProgramMemory.mem_load ok (Array.mem_of_getElem? found) with rfl | mem
  · rfl
  · exact straight word mem

theorem extent_load (valid : config.Valid) (loads : (build config).load words start = (.ok (), loaded)) :
    loaded.pc.toNat = start ∧ loaded.program.stop = start + words.length ∧
      start + words.length ≤ addressSpace := by
  obtain ⟨memory, ok, rfl⟩ := of_load_build loads
  obtain ⟨before, fits, rfl⟩ := ProgramMemory.load_eq_ok_iff.1 ok
  have bound := valid.programSize_le
  rw [size_program_build] at before fits
  refine ⟨UInt16.toNat_ofNat_of_lt' ?_, rfl, by omega⟩
  exact Nat.lt_of_lt_of_le before bound

theorem word_load (valid : config.Valid) (loads : (build config).load words start = (.ok (), loaded))
    {k : Nat} (inside : k < words.length) :
    (loaded.pc + UInt16.ofNat k).toNat = start + k ∧
      loaded.program.words[start + k]? = some words[k] := by
  obtain ⟨begins, -, ends⟩ := extent_load valid loads
  obtain ⟨memory, ok, rfl⟩ := of_load_build loads
  constructor
  · rw [toNat_onward (by rw [begins]; omega), begins]
  · rw [← List.getElem?_eq_getElem inside]
    exact ProgramMemory.holds_load ok k inside

theorem row_load (valid : config.Valid) (loads : (build config).load words start = (.ok (), loaded))
    {k : Nat} (inside : k < words.length) :
    loaded.row k = ⟨k + 1, UInt16.ofNat (start + k), words[k]⟩ := by
  obtain ⟨place, found⟩ := word_load valid loads inside
  obtain ⟨-, cycles, -⟩ := fresh_load loads
  rw [row, place, found, cycles, Nat.zero_add, ← place, UInt16.ofNat_toNat, Option.getD_some]

theorem rows_load (valid : config.Valid) (loads : (build config).load words start = (.ok (), loaded)) :
    (List.range words.length).map loaded.row =
      words.mapIdx fun k word => ⟨k + 1, UInt16.ofNat (start + k), word⟩ := by
  apply List.ext_getElem
  · simp
  · intro k _ inside
    rw [List.length_mapIdx] at inside
    rw [List.getElem_map, List.getElem_range, List.getElem_mapIdx, row_load valid loads inside]

end

/-- A straight program that a fresh machine has loaded is executed word by word. If there is an address
left behind it, the run ends there, when it has counted one cycle for each word; and if its last word
lies at the last address, it never ends. -/
theorem run_straight {config : Config} (valid : config.Valid) (graceful : config.policy = .graceful)
    {words : List UInt16} {start : Nat} {loaded : Machine}
    (loads : (build config).load words start = (.ok (), loaded))
    (straight : ∀ word ∈ words, (Instruction.decode word).isStraight) :
    (∀ k (inside : k < words.length),
      (loaded.after k).pc.toNat = start + k ∧
        (loaded.after k).step = (loaded.after k).perform words[k]) ∧
    (start + words.length < addressSpace →
      loaded.run (words.length + 1) = (.ok true, { loaded.after words.length with state := .halted }) ∧
        (loaded.after words.length).cycles = words.length ∧
        (loaded.after words.length).history.entries =
          BoundedLog.suffix config.historyCapacity
            (words.mapIdx fun k word => ⟨k + 1, UInt16.ofNat (start + k), word⟩)) ∧
    (start + words.length = addressSpace → ∀ budget,
      loaded.run budget = (.ok false, loaded.after budget) ∧ (loaded.after budget).cycles = budget) := by
  obtain ⟨begins, stop, ends⟩ := extent_load valid loads
  have onward := straight_load graceful loads straight
  obtain ⟨active, cycles, history⟩ := fresh_load loads
  refine ⟨?_, ?_, ?_⟩
  · intro k inside
    have before : ∀ i ≤ k, (loaded.pc + UInt16.ofNat i).toNat < loaded.program.stop := by
      intro i within
      rw [(word_load valid loads (Nat.lt_of_le_of_lt within inside)).1, stop]
      omega
    obtain ⟨place, found⟩ := word_load valid loads inside
    obtain ⟨-, far⟩ := onward_after onward active fun i earlier => before i (Nat.le_of_lt earlier)
    obtain ⟨word, met, performed, -⟩ := step_onward onward far (before k (Nat.le_refl k))
    obtain rfl : words[k] = word := by
      rw [place, found] at met
      exact Option.some.inj met
    exact ⟨by rw [far.pc, place], performed⟩
  · intro room
    obtain ⟨run, far⟩ := run_of_room onward active (by rw [begins, stop]) (by rw [stop]; exact room)
    refine ⟨run, ?_, ?_⟩
    · rw [far.cycles, cycles, Nat.zero_add]
    · rw [far.history, rows_load valid loads, history, BoundedLog.entries_foldl_push]
  · intro flush budget
    obtain ⟨run, far⟩ := run_of_flush onward active (Nat.le_of_eq (by rw [stop, flush])) budget
    exact ⟨run, by rw [far.cycles, cycles, Nat.zero_add]⟩

theorem run_straight_filling :
    let config := { Config.default with programSize := 4 }
    let loaded := ((build config).load [0x5117, 0xD000, 0xE000] 1).2
    config.Valid ∧ (build config).load [0x5117, 0xD000, 0xE000] 1 = (.ok (), loaded) ∧
      loaded.run 4 = (.ok true, { loaded.after 3 with state := .halted }) ∧
      (loaded.after 3).cycles = 3 ∧
      (loaded.after 3).history.entries = [⟨1, 1, 0x5117⟩, ⟨2, 2, 0xD000⟩, ⟨3, 3, 0xE000⟩] := by
  intro config loaded
  have valid : config.Valid :=
    { Config.default_valid with programSize_pos := by decide, programSize_le := by decide }
  have loads : (build config).load [0x5117, 0xD000, 0xE000] 1 = (.ok (), loaded) := rfl
  have straight : ∀ word ∈ [0x5117, 0xD000, 0xE000], (Instruction.decode word).isStraight := by
    simp only [List.forall_mem_cons]
    exact ⟨rfl, rfl, rfl, nofun⟩
  obtain ⟨-, ends, -⟩ := run_straight valid rfl loads straight
  obtain ⟨run, cycles, history⟩ := ends (by decide)
  exact ⟨valid, loads, run, cycles, history⟩

/-- A program at the last address. Its run has executed it, and then the zero at address zero. -/
theorem run_lastAddress :
    let config := { Config.default with programSize := addressSpace }
    config.Valid ∧ ∃ loaded,
      (build config).load [0xE000] 0xFFFF = (.ok (), loaded) ∧ (Instruction.decode 0xE000).isStraight ∧
        (loaded.run 2).1 = .ok false ∧ (loaded.run 2).2.isHalted = false ∧
        (loaded.run 2).2.cycles = 2 := by
  intro config
  have valid : config.Valid :=
    { Config.default_valid with programSize_pos := by decide, programSize_le := by decide }
  obtain ⟨loaded, loads⟩ : ∃ loaded, (build config).load [0xE000] 0xFFFF = (.ok (), loaded) :=
    exists_load (by decide) (by decide)
  obtain ⟨-, stop, -⟩ := extent_load valid loads
  have nop : (Instruction.decode 0xE000).isStraight := rfl
  have straight : loaded.Straight := straight_load rfl loads (List.forall_mem_singleton.2 nop)
  obtain ⟨active, cycles, -⟩ := fresh_load loads
  obtain ⟨run, onward⟩ := run_of_flush straight active (Nat.le_of_eq stop.symm) 2
  refine ⟨valid, loaded, loads, nop, ?_, ?_, ?_⟩
  · rw [run]
  · rw [run, onward.active]
  · rw [run, onward.cycles, cycles]

end Machine

end Harvard16
