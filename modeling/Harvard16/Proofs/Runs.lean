import Harvard16.Proofs.Execution

/-! Runs as sequences of steps. A run takes steps as long as they answer that the machine goes on, and
the first other answer ends it: what a step keeps a run keeps, and what a run answers is read off
the answers of its steps. -/
namespace Harvard16.Machine

/-- The machine after a number of steps, whatever they answer. -/
def after (machine : Machine) : Nat → Machine
  | 0 => machine
  | n + 1 => (machine.after n).step.2

/-- What the machine answers to its step `n`, the first of them step zero. -/
def answer (machine : Machine) (n : Nat) : Except Fault Bool := (machine.after n).step.1

theorem after_succ (machine : Machine) (n : Nat) : machine.after (n + 1) = machine.step.2.after n := by
  induction n with
  | zero => rfl
  | succ n ih => rw [after, ih, after]

theorem answer_succ (machine : Machine) (n : Nat) : machine.answer (n + 1) = machine.step.2.answer n := by
  rw [answer, after_succ, answer]

theorem policy_after (machine : Machine) (n : Nat) :
    (machine.after n).faults.policy = machine.faults.policy := by
  induction n with
  | zero => rfl
  | succ n ih => exact (congrArg (fun setup => setup.2.policy) (setup_step _)).trans ih

theorem run_induction {P : Machine → Prop} (step : ∀ machine, P machine → P machine.step.2)
    {machine : Machine} (start : P machine) (budget : Nat) : P (machine.run budget).2 := by
  induction budget generalizing machine with
  | zero => exact start
  | succ budget ih =>
    have next := step machine start
    rw [run]
    split <;> rename_i stepped <;> rw [stepped] at next
    · exact ih next
    · exact next
    · exact next

theorem setup_run (machine : Machine) (budget : Nat) : (machine.run budget).2.setup = machine.setup :=
  run_induction (P := (·.setup = machine.setup)) (fun other same => other.setup_step.trans same) rfl budget

theorem run_succ_of_going {machine : Machine} (going : machine.step.1 = .ok true) (budget : Nat) :
    machine.run (budget + 1) = machine.step.2.run budget := by
  rw [run]
  split <;> simp_all

theorem run_succ_of_last {machine : Machine} (last : machine.step.1 = .ok false) (budget : Nat) :
    machine.run (budget + 1) = (.ok true, machine.step.2) := by
  rw [run]
  split <;> simp_all

theorem run_of_going {machine : Machine} {budget : Nat}
    (going : ∀ k < budget, machine.answer k = .ok true) :
    machine.run budget = (.ok (machine.after budget).isHalted, machine.after budget) := by
  induction budget generalizing machine with
  | zero => rfl
  | succ budget ih =>
    have first : machine.step.1 = .ok true := going 0 (by omega)
    have rest : ∀ k < budget, machine.step.2.answer k = .ok true := by
      intro k before
      rw [← answer_succ]
      exact going (k + 1) (by omega)
    rw [run_succ_of_going first, ih rest, after_succ]

theorem run_of_end {machine : Machine} {n : Nat} (going : ∀ k < n, machine.answer k = .ok true)
    (ended : machine.answer n = .ok false) :
    machine.run (n + 1) = (.ok true, machine.after (n + 1)) := by
  induction n generalizing machine with
  | zero => exact run_succ_of_last ended 0
  | succ n ih =>
    have first : machine.step.1 = .ok true := going 0 (by omega)
    have rest : ∀ k < n, machine.step.2.answer k = .ok true := by
      intro k before
      rw [← answer_succ]
      exact going (k + 1) (by omega)
    rw [answer_succ] at ended
    rw [run_succ_of_going first, ih rest ended, ← after_succ]

end Harvard16.Machine
