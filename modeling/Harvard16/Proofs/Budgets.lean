import Mathlib.Data.List.Induction
import Harvard16.Proofs.RunStates

/-! Runs with a budget. A budget that is spent can be followed by another, and that is one run with both;
a run that has ended, because the machine has halted or has failed, is not changed by more of it. So a
run is what a caller does who steps until a step answers something else than that the machine goes on. Under the
graceful policy no step fails, whatever the program memory holds: then a run counts a cycle for each step
that leaves the machine running, and it is the halt alone that can end it before its budget. -/
namespace Harvard16.Machine

theorem run_add (machine : Machine) (m n : Nat) :
    machine.run (m + n) =
      match machine.run m with
      | (.ok _, next) => next.run n
      | (.error fault, next) => (.error fault, next) := by
  induction m generalizing machine with
  | zero =>
    rw [Nat.zero_add]
    rfl
  | succ m ih =>
    have behind := machine.state_step
    rw [Nat.succ_add, run, run]
    generalize machine.step = outcome at behind ⊢
    obtain ⟨answer, next⟩ := outcome
    cases answer with
    | error fault => rfl
    | ok going =>
      cases going with
      | true => exact ih next
      | false => exact (run_of_isHalted (isHalted_iff.2 behind) n).symm

theorem isHalted_run {machine : Machine} {budget : Nat} {halted : Bool}
    (answered : (machine.run budget).1 = .ok halted) : (machine.run budget).2.isHalted = halted := by
  induction budget generalizing machine with
  | zero => exact Except.ok.inj answered
  | succ budget ih =>
    have behind := machine.state_step
    rw [run] at answered ⊢
    generalize machine.step = outcome at answered behind ⊢
    obtain ⟨answer, next⟩ := outcome
    cases answer with
    | error fault => cases answered
    | ok going =>
      cases going with
      | true => exact ih answered
      | false =>
        cases answered
        exact isHalted_iff.2 behind

theorem run_of_ended {machine : Machine} {m : Nat} (ended : (machine.run m).1 ≠ .ok false) (n : Nat) :
    machine.run (m + n) = machine.run m := by
  have halted := @isHalted_run machine m
  rw [run_add]
  generalize machine.run m = outcome at ended halted ⊢
  obtain ⟨answer, next⟩ := outcome
  cases answer with
  | error fault => rfl
  | ok done =>
    cases done with
    | true => exact run_of_isHalted (halted rfl) n
    | false => exact absurd rfl ended

theorem run_of_stop {machine : Machine} {n : Nat} (going : ∀ k < n, machine.answer k = .ok true)
    (stopped : machine.answer n ≠ .ok true) :
    (machine.run (n + 1)).1 ≠ .ok false ∧ (machine.run (n + 1)).2 = machine.after (n + 1) := by
  induction n generalizing machine with
  | zero =>
    have stopped : machine.step.1 ≠ .ok true := stopped
    rw [run, after, after]
    generalize machine.step = outcome at stopped ⊢
    obtain ⟨answer, next⟩ := outcome
    cases answer with
    | error fault => exact ⟨by simp, rfl⟩
    | ok going =>
      cases going with
      | true => exact absurd rfl stopped
      | false => exact ⟨by simp, rfl⟩
  | succ n ih =>
    have first : machine.step.1 = .ok true := going 0 (by omega)
    have rest : ∀ k < n, machine.step.2.answer k = .ok true := by
      intro k before
      rw [← answer_succ]
      exact going (k + 1) (by omega)
    rw [answer_succ] at stopped
    rw [run_succ_of_going first, after_succ]
    exact ih rest stopped

/-- How many steps a caller takes who stops at the first one that does not answer that the machine goes on,
and after `n` steps in any case. -/
def calls (machine : Machine) (n : Nat) : Nat :=
  match (List.range n).find? (machine.answer · ≠ .ok true) with
  | some last => last + 1
  | none => n

theorem run_eq_after_calls (machine : Machine) (n : Nat) :
    (machine.run n).2 = machine.after (machine.calls n) := by
  unfold calls
  cases found : (List.range n).find? (machine.answer · ≠ .ok true) with
  | none =>
    have going : ∀ k < n, machine.answer k = .ok true := by simpa using found
    rw [run_of_going going]
  | some last =>
    obtain ⟨stopped, inside, before⟩ := List.find?_range_eq_some.1 found
    have going : ∀ k < last, machine.answer k = .ok true := by simpa using before
    obtain ⟨ended, behind⟩ := run_of_stop going (by simpa using stopped)
    obtain ⟨rest, rfl⟩ := Nat.exists_eq_add_of_le (Nat.succ_le_of_lt (List.mem_range.1 inside))
    rw [run_of_ended ended, behind]

/-- A run with the sum of two budgets is the run with the first of them, and if that is spent, then the run
with the second from there. And a run leaves the machine where a caller leaves it who takes single steps. -/
theorem run_budgets (machine : Machine) :
    (∀ a b, machine.run (a + b) =
      match (machine.run a).1 with
      | .ok false => (machine.run a).2.run b
      | .ok true | .error _ => machine.run a) ∧
    ∀ n, (machine.run n).2 = machine.after (machine.calls n) := by
  refine ⟨fun a b => ?_, run_eq_after_calls machine⟩
  have ended := @run_of_ended machine a
  have both := machine.run_add a b
  generalize machine.run a = outcome at ended both ⊢
  obtain ⟨answer, next⟩ := outcome
  cases answer with
  | error fault => exact ended nofun b
  | ok halted =>
    cases halted with
    | true => exact ended nofun b
    | false => exact both

/-- From `first` the machine has counted at most `budget` cycles, and all of them if it has `spent` the budget.
Among them it has counted its instructions. -/
structure Metered (budget : Nat) (spent : Prop) (first machine : Machine) : Prop where
  onward : first.cycles ≤ machine.cycles
  within : machine.cycles ≤ first.cycles + budget
  exact : spent → machine.cycles = first.cycles + budget
  instructions : first.instructions ≤ machine.instructions
  share : machine.instructions + first.cycles ≤ first.instructions + machine.cycles

theorem metered_of_same {budget : Nat} {spent : Prop} {first machine : Machine}
    (cycles : machine.cycles = first.cycles) (instructions : machine.instructions = first.instructions)
    (unspent : spent → budget = 0) : Metered budget spent first machine := by
  constructor <;> simp +contextual [cycles, instructions, unspent]

theorem Metered.trans {m n : Nat} {spent : Prop} {first next last : Machine}
    (before : Metered m True first next) (behind : Metered n spent next last) :
    Metered (n + m) spent first last := by
  obtain ⟨onward, within, all, instructions, share⟩ := before
  obtain ⟨later, bound, exact, more, shares⟩ := behind
  have all := all trivial
  exact ⟨by omega, by omega, fun rest => by have := exact rest; omega, by omega, by omega⟩

theorem Metered.mono {m n : Nat} {spent missed : Prop} {first machine : Machine}
    (metered : Metered m spent first machine) (le : m ≤ n) (unspent : missed → spent ∧ m = n) :
    Metered n missed first machine := by
  obtain ⟨onward, within, exact, instructions, share⟩ := metered
  refine ⟨onward, by omega, fun rest => ?_, instructions, share⟩
  obtain ⟨all, rfl⟩ := unspent rest
  exact exact all

theorem metered_retire {first machine : Machine} {seen : UInt16}
    (standing : machine.standing = (first.seen seen).standing) (word : UInt16) (instruction : Instruction)
    (flow : Flow) : Metered 1 True first (machine.retire word instruction flow) := by
  have cycles : (machine.retire word instruction flow).cycles = first.cycles + 1 :=
    congrArg (·.cycles + 1) standing
  have instructions : (machine.retire word instruction flow).instructions =
      first.instructions + if instruction.isValid then 1 else 0 :=
    congrArg (·.instructions + if instruction.isValid then 1 else 0) standing
  have share : (if instruction.isValid then 1 else 0) ≤ 1 := by split <;> omega
  exact ⟨by omega, by omega, fun _ => cycles, by omega, by omega⟩

section

variable {machine : Machine} (graceful : machine.faults.policy = .graceful)
include graceful

theorem fetch_graceful :
    ∃ found faults, machine.fetch = (.ok found, { machine with faults }) ∧ faults.policy = .graceful := by
  rw [fetch_eq]
  split
  · exact ⟨_, machine.faults, rfl, graceful⟩
  · split
    · exact ⟨none, machine.faults, rfl, graceful⟩
    · rw [report_graceful graceful]
      exact ⟨some 0, _, rfl, graceful⟩

theorem metered_perform (word : UInt16) :
    ∃ going, (machine.perform word).1 = .ok going ∧ Metered 1 True machine (machine.perform word).2 := by
  have ending := (machine.seen word).ending_execute (Instruction.shape_decode word)
  rw [perform_eq]
  generalize (machine.seen word).execute (.decode word) = outcome at ending ⊢
  cases ending with
  | sound kept standing => exact ⟨_, rfl, metered_retire standing word _ _⟩
  | excused fault policy unfetched recorded standing => exact ⟨_, rfl, metered_retire standing word _ .next⟩
  | failed fault strict unfetched => exact absurd (strict.symm.trans graceful) nofun

theorem metered_step :
    ∃ going, machine.step.1 = .ok going ∧ Metered 1 (going = true) machine machine.step.2 := by
  cases active : machine.isHalted with
  | true =>
    rw [step_of_isHalted active]
    exact ⟨false, rfl, metered_of_same rfl rfl nofun⟩
  | false =>
    obtain ⟨found, faults, fetched, kept⟩ := fetch_graceful graceful
    cases found with
    | none =>
      have ends : machine.step = (.ok false, { machine with faults, state := .halted }) := by
        simp [step, active, fetched]
      rw [ends]
      exact ⟨false, rfl, metered_of_same rfl rfl nofun⟩
    | some word =>
      have performs : machine.step = { machine with faults }.perform word := by
        simp [step, active, fetched]
      have policy : ({ machine with faults } : Machine).faults.policy = .graceful := kept
      obtain ⟨going, answered, counted⟩ := metered_perform policy word
      have same : Metered 0 True machine { machine with faults } := metered_of_same rfl rfl fun _ => rfl
      rw [performs]
      exact ⟨going, answered, (same.trans counted).mono (Nat.le_refl 1) fun _ => ⟨trivial, rfl⟩⟩

theorem metered_run (budget : Nat) :
    ∃ halted, (machine.run budget).1 = .ok halted ∧
      Metered budget (halted = false) machine (machine.run budget).2 := by
  induction budget generalizing machine with
  | zero => exact ⟨machine.isHalted, rfl, metered_of_same rfl rfl fun _ => rfl⟩
  | succ budget ih =>
    obtain ⟨going, answered, counted⟩ := metered_step graceful
    have kept : machine.step.2.faults.policy = .graceful :=
      (machine.policy_after 1).trans graceful
    rw [run]
    generalize machine.step = outcome at answered counted kept ⊢
    obtain ⟨answer, next⟩ := outcome
    cases answered
    cases going with
    | false => exact ⟨true, rfl, counted.mono (by omega) (by simp)⟩
    | true =>
      obtain ⟨halted, ran, later⟩ := ih kept
      have first : Metered 1 True machine next := counted.mono (Nat.le_refl 1) fun _ => ⟨rfl, rfl⟩
      exact ⟨halted, ran, first.trans later⟩

end

/-- Under the graceful policy a run does not fail, from whatever state and in whatever program memory. It
answers whether the machine is halted behind it, it counts at most as many cycles as it was given and all
of them if the machine is still going, and it counts no more instructions than cycles. -/
theorem run_graceful {machine : Machine} (graceful : machine.faults.policy = .graceful) (budget : Nat) :
    let behind := (machine.run budget).2
    (machine.run budget).1 = .ok behind.isHalted ∧
      Metered budget (behind.isHalted = false) machine behind ∧ behind.registers.read 0 = 0 := by
  intro behind
  obtain ⟨halted, answered, counted⟩ := metered_run graceful budget
  obtain rfl : behind.isHalted = halted := isHalted_run answered
  exact ⟨answered, counted, behind.registers.read_zero⟩

def beforeStumbling : Machine :=
  ((build { Config.default with programSize := 4, dataSize := 2 }).session
    [.load [0x830F, 0xF123, 0xC000] 1]).2

theorem run_graceful_beforeStumbling :
    beforeStumbling.faults.policy = .graceful ∧
      (beforeStumbling.run 7).1 = .ok false ∧ (beforeStumbling.run 7).2.faults.total = 2 ∧
      (beforeStumbling.run 7).2.cycles = 7 ∧ (beforeStumbling.run 7).2.instructions ≤ 7 := by
  have graceful : beforeStumbling.faults.policy = .graceful := by decide
  have going : (beforeStumbling.run 7).2.isHalted = false := by decide
  obtain ⟨answered, counted, -⟩ := run_graceful graceful 7
  have fresh : beforeStumbling.cycles = 0 ∧ beforeStumbling.instructions = 0 := by decide
  have cycles := counted.exact going
  have share := counted.share
  exact ⟨graceful, answered.trans (congrArg _ going), by decide, by omega, by omega⟩

end Harvard16.Machine
