import Harvard16.Proofs.Effects
import Harvard16.Proofs.Runs

/-! The two policies side by side. The machine asks its policy at a fault and nowhere else, so two
machines that differ in nothing but the policy go the same way until the first fault. There the
strict one answers with the fault that the graceful one records. Main statement: this for runs
of any number of steps, from any machine. -/
namespace Harvard16.Machine

/-- `Agree before strict graceful`: either the outcomes are the same but for the policy and nothing
has been recorded on top of `before`, or the strict answer is the one fault that was recorded. -/
inductive Agree {α : Type} (before : FaultHandler) (strict graceful : Except Fault α × Machine) : Prop
  | clean (answers : strict.1 = graceful.1) (states : strict.2 = graceful.2.setPolicy .strict)
      (kept : graceful.2.faults = before)
  | fault (fault : Fault) (answer : strict.1 = .error fault)
      (recorded : graceful.2.faults = before.record fault)

theorem fetch_cases (machine : Machine) :
    (∃ found, ∀ policy, (machine.setPolicy policy).fetch = (.ok found, machine.setPolicy policy)) ∨
      ∃ fault, ∀ policy,
        (machine.setPolicy policy).fetch = (machine.setPolicy policy).report fault (some 0) := by
  cases found : machine.program.words[machine.pc.toNat]? with
  | some word =>
    refine .inl ⟨if word = 0 ∧ machine.program.stop ≤ machine.pc.toNat then none else some word, ?_⟩
    intro policy
    have same : (machine.setPolicy policy).program.words[(machine.setPolicy policy).pc.toNat]? =
        some word := found
    rw [fetch_eq, same]
    rfl
  | none =>
    have same (policy : Policy) :
        (machine.setPolicy policy).program.words[(machine.setPolicy policy).pc.toNat]? = none := found
    by_cases past : machine.program.stop ≤ machine.pc.toNat
    · refine .inl ⟨none, fun policy => ?_⟩
      rw [fetch_eq, same]
      exact if_pos past
    · refine .inr ⟨.memory machine.pc.toNat .fetch (some machine.pc), fun policy => ?_⟩
      rw [fetch_eq, same]
      exact if_neg past

theorem perform_zero (machine : Machine) : (machine.perform 0).2.faults = machine.faults := rfl

variable {machine : Machine} (graceful : machine.faults.policy = .graceful)
include graceful

theorem agree_excuse (fault : Fault) (waiting : Option Nat) :
    Agree machine.faults ((machine.setPolicy .strict).excuse fault waiting)
      (machine.excuse fault waiting) := by
  have strict : (machine.setPolicy .strict).faults.policy = .strict := rfl
  rw [excuse_strict strict, excuse_graceful graceful]
  exact .fault fault rfl rfl

theorem agree_execute {instruction : Instruction} (shape : instruction.Shape) :
    Agree machine.faults ((machine.setPolicy .strict).execute instruction)
      (machine.execute instruction) := by
  have effects : (machine.setPolicy .strict).effect instruction = machine.effect instruction := rfl
  rw [execute_eq_enact _ shape, execute_eq_enact _ shape, effects]
  cases machine.effect instruction with
  | strayRead | strayWrite | invalid => exact agree_excuse graceful _ _
  | calculate | read | write | compare | jump | nothing | halt => exact .clean rfl rfl rfl

theorem agree_perform (word : UInt16) :
    Agree machine.faults ((machine.setPolicy .strict).perform word) (machine.perform word) := by
  have policy : (machine.seen word).faults.policy = .graceful := graceful
  have agree := agree_execute policy (Instruction.shape_decode word)
  have seen : (machine.setPolicy .strict).seen word = (machine.seen word).setPolicy .strict := rfl
  rw [perform_eq, perform_eq, seen]
  generalize ((machine.seen word).setPolicy .strict).execute (.decode word) = strict at agree ⊢
  generalize (machine.seen word).execute (.decode word) = outcome at agree ⊢
  obtain ⟨answer, behind⟩ := outcome
  obtain ⟨strictAnswer, strictBehind⟩ := strict
  cases agree with
  | clean answers states kept =>
    cases answers
    cases states
    cases answer with
    | ok flow => exact .clean rfl rfl kept
    | error fault => exact .clean rfl rfl kept
  | fault fault propagated recorded =>
    cases propagated
    cases answer with
    | ok flow => exact .fault fault rfl recorded
    | error other => exact .fault fault rfl recorded

theorem agree_step : Agree machine.faults (machine.setPolicy .strict).step machine.step := by
  have strict : (machine.setPolicy .strict).faults.policy = .strict := rfl
  have self : machine.setPolicy .graceful = machine := by
    rw [setPolicy, ← graceful]
  by_cases halted : machine.isHalted = true
  · have halted' : (machine.setPolicy .strict).isHalted = true := halted
    rw [step_of_isHalted halted, step_of_isHalted halted']
    exact .clean rfl rfl rfl
  · have active : machine.isHalted = false := by simpa using halted
    have active' : (machine.setPolicy .strict).isHalted = false := active
    rcases fetch_cases machine with ⟨found, fetched⟩ | ⟨fault, fetched⟩
    · have gentle := fetched .graceful
      rw [self] at gentle
      simp only [step, active, active', gentle, fetched .strict]
      cases found with
      | some word => exact agree_perform graceful word
      | none => exact .clean rfl rfl rfl
    · have gentle := fetched .graceful
      have harsh := fetched .strict
      rw [self, report_graceful graceful] at gentle
      rw [report_strict strict] at harsh
      simp only [step, active, active', gentle, harsh]
      exact .fault fault rfl (perform_zero _)

omit graceful

def CleanAt (machine : Machine) (n : Nat) : Prop :=
  (machine.after (n + 1)).faults.total = (machine.after n).faults.total

/-- The strict run of a machine answers as its graceful run does before step `n`, and up to there it
passes through the same states, the policy apart. -/
structure PoliciesAgree (machine : Machine) (n : Nat) : Prop where
  answers : ∀ k < n, (machine.setPolicy .strict).answer k = (machine.setPolicy .graceful).answer k
  states : ∀ k ≤ n, (machine.setPolicy .strict).after k =
    ((machine.setPolicy .graceful).after k).setPolicy .strict

theorem agree_after (machine : Machine) {n : Nat} (agree : machine.PoliciesAgree n) :
    Agree ((machine.setPolicy .graceful).after n).faults ((machine.setPolicy .strict).after n).step
      ((machine.setPolicy .graceful).after n).step := by
  rw [agree.states n (Nat.le_refl n)]
  exact agree_step (policy_after _ n)

theorem policiesAgree_of_clean (machine : Machine) {n : Nat}
    (clean : ∀ k < n, (machine.setPolicy .graceful).CleanAt k) : machine.PoliciesAgree n := by
  induction n with
  | zero =>
    constructor
    · intro k before
      omega
    · intro k upTo
      cases Nat.le_zero.1 upTo
      rfl
  | succ n ih =>
    have agree := ih fun k before => clean k (by omega)
    cases machine.agree_after agree with
    | clean answers states kept =>
      constructor
      · intro k before
        rcases Nat.lt_succ_iff_lt_or_eq.1 before with earlier | rfl
        · exact agree.answers k earlier
        · exact answers
      · intro k upTo
        rcases Nat.le_succ_iff.1 upTo with earlier | rfl
        · exact agree.states k earlier
        · exact states
    | fault fault answer recorded =>
      have total := clean n (by omega)
      rw [CleanAt, after, recorded] at total
      exact absurd total (Nat.succ_ne_self _)

/-- Either the graceful run records nothing in `n` steps, and the strict run agrees with it; or there is
a first step at which it records a fault, up to which they agree, and the strict run answers that
step with the fault recorded. -/
theorem policiesAgree_or_fault (machine : Machine) (n : Nat) :
    (∀ k < n, (machine.setPolicy .graceful).CleanAt k) ∧ machine.PoliciesAgree n ∨
      ∃ k < n, (∀ j < k, (machine.setPolicy .graceful).CleanAt j) ∧
        ¬(machine.setPolicy .graceful).CleanAt k ∧ machine.PoliciesAgree k ∧
        ∃ fault, (machine.setPolicy .strict).answer k = .error fault ∧
          ((machine.setPolicy .graceful).after (k + 1)).faults =
            ((machine.setPolicy .graceful).after k).faults.record fault := by
  induction n with
  | zero =>
    have none : ∀ k < 0, (machine.setPolicy .graceful).CleanAt k := by
      intro k before
      omega
    exact .inl ⟨none, machine.policiesAgree_of_clean none⟩
  | succ n ih =>
    rcases ih with ⟨clean, agree⟩ | ⟨k, before, rest⟩
    · by_cases here : (machine.setPolicy .graceful).CleanAt n
      · have all : ∀ k < n + 1, (machine.setPolicy .graceful).CleanAt k := by
          intro k upTo
          rcases Nat.lt_succ_iff_lt_or_eq.1 upTo with earlier | rfl
          · exact clean k earlier
          · exact here
        exact .inl ⟨all, machine.policiesAgree_of_clean all⟩
      · refine .inr ⟨n, Nat.lt_succ_self n, clean, here, agree, ?_⟩
        cases machine.agree_after agree with
        | clean answers states kept =>
          exact absurd (congrArg FaultHandler.total kept) here
        | fault fault answer recorded => exact ⟨fault, answer, recorded⟩
    · exact .inr ⟨k, Nat.lt_succ_of_lt before, rest⟩

end Harvard16.Machine
