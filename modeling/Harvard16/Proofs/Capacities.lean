import Harvard16.Proofs.Observation

/-! Capacities do not show. Machines whose configurations differ in the size of the program memory, the
capacities of the logs and the budget alone give the same answers and the same snapshots to the same
operations, as long as both memories have room for the programs. The size of the program memory is
where this could fail, since a jump may lead out of one memory and into the other; but what lies there
is a zero behind the program, and that ends the program just as the end of the memory does. -/
namespace Harvard16

/-- Configurations that differ at most in the size of the program memory, in the capacities of the logs
and in the budget. -/
structure Config.Alike (a b : Config) : Prop where
  dataSize : b.dataSize = a.dataSize
  dataBase : b.dataBase = a.dataBase
  policy : b.policy = a.policy

theorem Fault.Shifted.eq {base : UInt16} {here there : Fault} (h : here.Shifted base base there) :
    there = here := by
  cases h with
  | data pc kind place =>
    rw [Nat.add_right_cancel place]
  | same kind => rfl

theorem SameBut.eq {α : Type} {base : UInt16} {here there : Except Fault α}
    (h : SameBut base base here there) : there = here := by
  cases h with
  | ok value => rfl
  | error shifted => rw [shifted.eq]

theorem Snapshot.Shifted.eq {base : UInt16} {here there : Snapshot} (h : here.Shifted base base there) :
    there = here := by
  have injective : Function.Injective fun cell : Nat × UInt16 => (cell.1 + base.toNat, cell.2) := by
    intro x y same
    simpa [Prod.ext_iff] using same
  rw [h.rest, List.map_injective_iff.2 injective h.data]

namespace Machine

theorem Answer.Shifted.eq {base : UInt16} {here there : Answer} (h : here.Shifted base base there) :
    there = here := by
  cases h with
  | done => rfl
  | stored written => rfl
  | finished same => rw [same.eq]
  | went same => rw [same.eq]
  | word same => rw [same.eq]

variable {a b : Machine}

theorem load_eq_ok {program : List UInt16} {start : Nat} {snapshot : Snapshot}
    (kept : Observed.isRefused ⟨.load program start, (a.apply (.load program start)).1, snapshot⟩ = false) :
    (a.load program start).1 = .ok () := by
  cases answer : (a.load program start).1 with
  | ok => rfl
  | error fault => simp [apply, answer, Observed.isRefused] at kept

theorem Lockstep.observe_eq {base : UInt16} (h : Lockstep base base a b) {operations : List Operation}
    (bounded : .runDefault ∉ operations)
    (kept : ∀ event ∈ a.observe operations, event.isRefused = false)
    (otherKept : ∀ event ∈ b.observe operations, event.isRefused = false) :
    b.observe operations = a.observe operations := by
  induction operations generalizing a b with
  | nil => rfl
  | cons operation operations ih =>
    rw [observe_cons] at kept otherKept
    obtain ⟨first, rest⟩ := List.forall_mem_cons.1 kept
    obtain ⟨otherFirst, otherRest⟩ := List.forall_mem_cons.1 otherKept
    obtain ⟨budget, laterBounded⟩ := not_or.1 (List.mem_cons.not.1 bounded)
    have loads (program : List UInt16) (start : Nat) (is : operation = .load program start) :
        (b.load program start).1 = (a.load program start).1 := by
      subst is
      rw [load_eq_ok first, load_eq_ok otherFirst]
    obtain ⟨answers, next⟩ := h.apply operation loads (fun _ => rfl) (fun is => absurd is.symm budget)
    rw [observe_cons, observe_cons, answers.eq, next.snapshot.eq, ih next laterBounded rest otherRest]

theorem lockstep_build {a b : Config} (alike : a.Alike b) :
    Lockstep a.dataBase a.dataBase (build a) (build b) := by
  constructor
  · simp [course, build, DataMemory.blank, ProgramMemory.loaded, ProgramMemory.blank,
      FaultHandler.empty, alike.dataSize, alike.policy]
  · rfl
  · rfl
  · exact alike.dataBase
  · exact ProgramMemory.laidOut_blank _
  · exact ProgramMemory.laidOut_blank _

/-- Machines for configurations that are alike show the same in a session in which no load is refused and
no run takes its budget from the configuration. And what a step of a reachable machine answers, and
the course that it leaves the machine on, depend on the course before it and the base of data. -/
theorem observe_alike :
    (∀ (a b : Config) (operations : List Operation), a.Alike b → .runDefault ∉ operations →
      (∀ event ∈ (build a).observe operations, event.isRefused = false) →
      (∀ event ∈ (build b).observe operations, event.isRefused = false) →
      (build b).observe operations = (build a).observe operations) ∧
    ∀ a b : Machine, a.Reachable → b.Reachable → b.course = a.course → b.data.base = a.data.base →
      b.step.1 = a.step.1 ∧ b.step.2.course = a.step.2.course := by
  constructor
  · intro a b operations alike bounded kept otherKept
    exact (lockstep_build alike).observe_eq bounded kept otherKept
  · intro a b reachable otherReachable courses bases
    obtain ⟨answers, next, -⟩ := step_congr reachable.laidOut otherReachable.laidOut courses
    rw [bases] at answers
    exact ⟨answers.eq, next⟩

def jumping : List Operation := [.load [0xCF04] 1, .run 5, .writeData 0x1000 7, .readData 0x1000]

/-- A configuration whose program memory ends behind the jump, and one whose program memory has the
address that is jumped to. -/
def tight : Config := { Config.default with
  programSize := 2, dataSize := 4, historyCapacity := 0, faultCapacity := 0, cycleBudget := 0 }

def roomy : Config := { Config.default with programSize := 8, dataSize := 4 }

/-- A machine of each before the jump; the other one has been used. -/
def beforeJump : Machine := ((build roomy).session [.load [0xCF04] 1]).2

def usedBeforeJump : Machine := ((build tight).session [.load [0x5117] 0, .step, .writeRegister 1 0,
  .load [0xCF04] 1]).2

theorem observe_alike_jumping :
    tight.Alike roomy ∧ (build roomy).observe jumping = (build tight).observe jumping ∧
      beforeJump.readout ≠ usedBeforeJump.readout ∧
      beforeJump.step.2.course = usedBeforeJump.step.2.course ∧ beforeJump.step.2.pc = 5 := by
  have alike : tight.Alike roomy := ⟨rfl, rfl, rfl⟩
  obtain ⟨sessions, steps⟩ := observe_alike
  have same : (build roomy).observe jumping = (build tight).observe jumping :=
    sessions tight roomy jumping alike (by decide) (by decide) (by decide)
  have valid : tight.Valid := Config.check_eq_ok_iff.1 rfl
  have otherValid : roomy.Valid := Config.check_eq_ok_iff.1 rfl
  have used : usedBeforeJump.Reachable := reachable_session valid _
  have fresh : beforeJump.Reachable := reachable_session otherValid _
  have course : beforeJump.course = usedBeforeJump.course := rfl
  have differ : beforeJump.readout ≠ usedBeforeJump.readout := by
    intro equal
    exact absurd (congrArg Readout.cycles equal) (by decide)
  exact ⟨alike, same, differ, (steps _ _ used fresh course rfl).2, rfl⟩

end Machine

end Harvard16
