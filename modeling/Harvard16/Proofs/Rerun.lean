import Harvard16.Proofs.Budgets
import Harvard16.Proofs.FreshStart
import Harvard16.Proofs.Place
import Harvard16.Proofs.StraightLine

/-! Running a program again. A reset keeps the program but takes the machine to address zero, wherever the
program starts. The zeros before it are executed then, each as an addition to register zero, and after
as many cycles the machine is where it was when the program was loaded, with nothing done but counted.
So the second run is the first one again exactly when the program starts at address zero. -/
namespace Harvard16.Machine

theorem place_perform_zero (machine : Machine) :
    (machine.perform 0).1 = .ok true ∧
      (machine.perform 0).2.place = { machine.place with pc := machine.pc + 1, halted := false } :=
  ⟨rfl, rfl⟩

theorem counted_zero : counted 0 (.ok true) = (1, 1) := by decide

section

variable {machine : Machine}

theorem after_zeros (laid : machine.program.LaidOut) (active : machine.isHalted = false)
    (origin : machine.pc = 0) {k : Nat} (within : k ≤ machine.program.start) :
    (∀ i < k, machine.answer i = .ok true) ∧
      (machine.after k).place = { machine.place with pc := UInt16.ofNat k } ∧
      (machine.after k).cycles = machine.cycles + k ∧
      (machine.after k).stats.r = machine.stats.r + k := by
  induction k with
  | zero =>
    have home : machine.place = { machine.place with pc := 0 } :=
      congrArg (fun pc => { machine.place with pc }) origin
    exact ⟨nofun, home, rfl, rfl⟩
  | succ k ih =>
    obtain ⟨going, place, cycles, registers⟩ := ih (Nat.le_of_succ_le within)
    have pc : (machine.after k).pc = UInt16.ofNat k := congrArg Place.pc place
    have halted : (machine.after k).isHalted = false := (congrArg Place.halted place).trans active
    have program : (machine.after k).program = machine.program := congrArg (·.setup.1) place
    have before : (machine.after k).pc.toNat < (machine.after k).program.start := by
      have small : (UInt16.ofNat k).toNat ≤ k := by
        rw [UInt16.toNat_ofNat']
        exact Nat.mod_le _ _
      rw [pc, program]
      omega
    have behind : (machine.after k).program.LaidOut := by rwa [program]
    obtain ⟨word, found, performed⟩ :=
      step_before_stop behind halted (Nat.lt_of_lt_of_le before (Nat.le_add_right _ _))
    obtain rfl : word = 0 := behind.outside _ word found (.inl before)
    obtain ⟨answers, next⟩ := (machine.after k).place_perform_zero
    obtain ⟨counts, others⟩ := (machine.after k).counts_perform 0
    rw [answers, counted_zero] at counts others
    have last : machine.answer k = .ok true := by rw [answer, performed, answers]
    refine ⟨?_, ?_, ?_, ?_⟩
    · intro i bound
      rcases Nat.lt_succ_iff_lt_or_eq.1 bound with earlier | rfl
      · exact going i earlier
      · exact last
    · have onward : UInt16.ofNat k + 1 = UInt16.ofNat (k + 1) := (UInt16.ofNat_add k 1).symm
      rw [after, performed, next, place, pc, onward]
      exact congrArg (fun halted => { machine.place with pc := UInt16.ofNat (k + 1), halted }) active.symm
    · rw [after, performed, counts, cycles, Nat.add_assoc]
    · rw [after, performed, others, registers, Nat.add_assoc]

theorem paced_run_add (laid : machine.program.LaidOut) (m n : Nat) :
    Paced (machine.run m).2 (machine.run (m + n)).2 := by
  have behind : (machine.run m).2.program.LaidOut := by rwa [program_run]
  rw [run_add]
  generalize machine.run m = outcome at behind ⊢
  obtain ⟨answer, next⟩ := outcome
  cases answer with
  | error fault => exact .refl next
  | ok halted => exact paced_run behind n

theorem run_from_zero (laid : machine.program.LaidOut) (active : machine.isHalted = false)
    (begins : machine.pc = UInt16.ofNat machine.program.start) (budget : Nat) :
    ({ machine with pc := 0 }.run (machine.program.start + budget)).1 = (machine.run budget).1 ∧
      Ahead machine.program.start (machine.run budget).2
        ({ machine with pc := 0 }.run (machine.program.start + budget)).2 := by
  obtain ⟨going, place, cycles, registers⟩ :=
    @after_zeros { machine with pc := 0 } laid active rfl _ (Nat.le_refl _)
  have arrived : Ahead machine.program.start machine
      ({ machine with pc := 0 }.after machine.program.start) := by
    refine ⟨place.trans ?_, cycles, registers, laid⟩
    exact congrArg (fun pc => { machine.place with pc }) begins.symm
  rw [run_add, run_of_going going]
  exact arrived.run budget

/-- What comes back to an address after fewer steps than there are addresses has not moved. -/
theorem eq_zero_of_add_ofNat {pc : UInt16} {n : Nat} (small : n < addressSpace)
    (same : pc = pc + UInt16.ofNat n) : n = 0 := by
  have places := congrArg UInt16.toNat same
  have bound := pc.toNat_lt
  rw [UInt16.toNat_add, UInt16.toNat_ofNat'] at places
  unfold addressSpace at small
  omega

theorem start_eq_zero (laid : machine.program.LaidOut) (active : machine.isHalted = false)
    (begins : machine.pc = UInt16.ofNat machine.program.start)
    (small : machine.program.start < addressSpace) {budget : Nat}
    (same : ({ machine with pc := 0 }.run budget).2.snapshot = (machine.run budget).2.snapshot) :
    machine.program.start = 0 := by
  have pcs : _ = (machine.run budget).2.pc := congrArg Snapshot.pc same
  have cycles : _ = (machine.run budget).2.cycles := congrArg Snapshot.cycles same
  have registers : _ = (machine.run budget).2.stats.r := congrArg (·.stats.r) same
  -- Either the second run does not come to the program, or it ends where the first one has been before.
  rcases Nat.le_total budget machine.program.start with short | long
  · obtain ⟨going, place, counts, others⟩ :=
      @after_zeros { machine with pc := 0 } laid active rfl _ short
    have paced := paced_run laid budget
    simp only [run_of_going going, Machine.snapshot] at pcs cycles registers counts others
    have span : (machine.run budget).2.cycles - machine.cycles = budget := by omega
    have passed := paced.pc (by omega)
    have here := congrArg Place.pc place
    simp only [Machine.place] at here
    rw [← pcs, here, span, begins, UInt16.add_comm] at passed
    exact eq_zero_of_add_ofNat small passed
  · obtain ⟨rest, rfl⟩ := Nat.exists_eq_add_of_le long
    obtain ⟨-, place, counts, others, -⟩ := run_from_zero laid active begins rest
    have paced := paced_run_add laid rest machine.program.start
    rw [Nat.add_comm rest] at paced
    have here := congrArg Place.pc place
    simp only [Machine.snapshot, Machine.place] at pcs cycles registers here
    have span : (machine.run (machine.program.start + rest)).2.cycles - (machine.run rest).2.cycles =
        machine.program.start := by omega
    have passed := paced.pc (by omega)
    rw [← pcs, here, span] at passed
    exact eq_zero_of_add_ofNat small passed

end

section

variable {config : Config} {program : List UInt16} {start : Nat} {loaded : Machine}

theorem reset_run (loads : (build config).load program start = (.ok (), loaded)) (budget : Nat) :
    (loaded.run budget).2.reset = { loaded with pc := 0 } := by
  have setup := loaded.setup_run budget
  have configs : loaded.config = config := by
    have kept := (build config).config_apply (.load program start)
    rw [apply_load loads] at kept
    exact kept.trans (config_build config)
  have kept : (loaded.run budget).2.config = config := (congrArg Prod.snd setup).trans configs
  have same : (loaded.run budget).2.program = loaded.program := congrArg Prod.fst setup
  obtain ⟨memory, -, rfl⟩ := of_load_build loads
  rw [reset_eq, kept, same]
  rfl

/-- Let a new machine load a program, run and be reset. It is again as it was when it had loaded, but at address
zero. With the same budget the run that follows is the same as the first exactly when the program
starts there. In any case it comes to the program after as many cycles as there are addresses
before it, and from there on it is the first run. -/
theorem rerun_alike_iff (valid : config.Valid)
    (loads : (build config).load program start = (.ok (), loaded)) (budget : Nat) :
    let first := loaded.run budget
    let second := first.2.reset.run budget
    let late := first.2.reset.run (start + budget)
    first.2.reset = { loaded with pc := 0 } ∧
    (second.1 = first.1 ∧ second.2.snapshot = first.2.snapshot ∧ second.2.history = first.2.history ↔
      start = 0) ∧
    late.1 = first.1 ∧ late.2.place = first.2.place ∧ late.2.cycles = first.2.cycles + start := by
  obtain ⟨active, -, -⟩ := fresh_load loads
  obtain ⟨pc, -, -⟩ := extent_load valid loads
  have laid : loaded.program.LaidOut ∧ loaded.program.start = start := by
    obtain ⟨memory, ok, rfl⟩ := of_load_build loads
    obtain ⟨-, -, rfl⟩ := ProgramMemory.load_eq_ok_iff.1 ok
    exact ⟨ProgramMemory.laidOut_load ok, rfl⟩
  obtain ⟨laid, rfl⟩ := laid
  have small : loaded.program.start < addressSpace := pc ▸ loaded.pc.toNat_lt
  have begins : loaded.pc = UInt16.ofNat loaded.program.start := by rw [← pc, UInt16.ofNat_toNat]
  intro first second late
  have again : first.2.reset = { loaded with pc := 0 } := reset_run loads budget
  obtain ⟨answers, ahead⟩ := run_from_zero laid active begins budget
  rw [← again] at answers ahead
  refine ⟨again, ⟨?_, ?_⟩, answers, ahead.place, ahead.cycles⟩
  · rintro ⟨-, snapshots, -⟩
    have alike : ({ loaded with pc := 0 }.run budget).2.snapshot = (loaded.run budget).2.snapshot := by
      rw [← again]
      exact snapshots
    exact start_eq_zero laid active begins small alike
  · intro zero
    have origin : loaded.pc = 0 := by
      rw [begins, zero]
      rfl
    have home : first.2.reset = loaded :=
      again.trans (congrArg (fun pc => { loaded with pc }) origin.symm)
    have alike : second = first := congrArg (·.run budget) home
    rw [alike]
    exact ⟨rfl, rfl, rfl⟩

end

def halting (start : Nat) : Machine :=
  ((build { Config.default with programSize := 4, dataSize := 4 }).load [0xF000] start).2

theorem rerun_alike_iff_halting :
    { Config.default with programSize := 4, dataSize := 4 }.Valid ∧
      (((halting 0).run 1).2.reset.run 1).2.snapshot = ((halting 0).run 1).2.snapshot ∧
      (((halting 2).run 1).2.reset.run 1).1 = .ok false ∧
      (((halting 2).run 1).2.reset.run 3).1 = .ok true ∧
      (((halting 2).run 1).2.reset.run 3).2.cycles = 3 := by
  have valid : { Config.default with programSize := 4, dataSize := 4 }.Valid := Config.check_eq_ok_iff.1 rfl
  have loads : (build { Config.default with programSize := 4, dataSize := 4 }).load [0xF000] 0 =
      (.ok (), halting 0) := rfl
  have loadsLater : (build { Config.default with programSize := 4, dataSize := 4 }).load [0xF000] 2 =
      (.ok (), halting 2) := rfl
  obtain ⟨-, alike, -⟩ := rerun_alike_iff valid loads 1
  obtain ⟨-, -, answer, -, cycles⟩ := rerun_alike_iff valid loadsLater 1
  exact ⟨valid, (alike.2 rfl).2.1, rfl, answer, cycles⟩

theorem rerun_differs : ¬ ∀ (config : Config) (program : List UInt16) (start budget : Nat)
    (loaded : Machine), config.Valid → (build config).load program start = (.ok (), loaded) →
      ((loaded.run budget).2.reset.run budget).1 = (loaded.run budget).1 ∧
      ((loaded.run budget).2.reset.run budget).2.snapshot = (loaded.run budget).2.snapshot ∧
      ((loaded.run budget).2.reset.run budget).2.history = (loaded.run budget).2.history := by
  intro alike
  have valid : { Config.default with programSize := 4, dataSize := 4 }.Valid := Config.check_eq_ok_iff.1 rfl
  have loads : (build { Config.default with programSize := 4, dataSize := 4 }).load [0xF000] 2 =
      (.ok (), halting 2) := rfl
  have first : ((halting 2).run 1).1 = .ok true := rfl
  have second : (((halting 2).run 1).2.reset.run 1).1 = .ok false := rfl
  have answers := (alike _ _ 2 1 _ valid loads).1
  rw [first, second] at answers
  cases answers

end Harvard16.Machine
