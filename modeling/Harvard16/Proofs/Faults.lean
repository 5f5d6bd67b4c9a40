import Harvard16.Proofs.Effects

/-! Faults of execution. An instruction raises at most one fault, and it is reported before anything else
is done: under the strict policy that is all that happens, under the graceful one the execution
goes on to the next word. Whatever happens, the books that the machine keeps itself wait for the
instruction to be retired. -/
namespace Harvard16

def Fault.access? : Fault → Option Access
  | .memory _ access _ => some access
  | _ => none

namespace Machine

/-- What execution leaves to `retire` and to the control unit. -/
structure Standing where
  pc : UInt16
  state : RunState
  cycles : Nat
  instructions : Nat
  control : ControlUnit
  history : BoundedLog Retired

def standing (machine : Machine) : Standing :=
  { pc := machine.pc
    state := machine.state
    cycles := machine.cycles
    instructions := machine.instructions
    control := machine.control
    history := machine.history }

/-- The ways in which execution can end. A fault is `excused` by the graceful policy and otherwise has
`failed` the instruction. -/
inductive Ending (machine : Machine) : Except Fault Flow × Machine → Prop
  | sound {flow : Flow} {behind : Machine} (kept : behind.faults = machine.faults)
      (standing : behind.standing = machine.standing) : Ending machine (.ok flow, behind)
  | excused (fault : Fault) {behind : Machine} (graceful : machine.faults.policy = .graceful)
      (unfetched : fault.access? ≠ some .fetch)
      (recorded : behind.faults = machine.faults.record fault)
      (standing : behind.standing = machine.standing) : Ending machine (.ok .next, behind)
  | failed (fault : Fault) (strict : machine.faults.policy = .strict)
      (unfetched : fault.access? ≠ some .fetch) :
      Ending machine (.error fault, { machine with faults := machine.faults.record fault })

theorem ending_excuse (machine : Machine) {fault : Fault} (unfetched : fault.access? ≠ some .fetch)
    (waiting : Option Nat) : machine.Ending (machine.excuse fault waiting) := by
  cases policy : machine.faults.policy with
  | graceful =>
    rw [excuse_graceful policy]
    exact .excused fault policy unfetched rfl rfl
  | strict =>
    rw [excuse_strict policy]
    exact .failed fault policy unfetched

theorem ending_execute (machine : Machine) {instruction : Instruction} (shape : instruction.Shape) :
    machine.Ending (machine.execute instruction) := by
  rw [execute_eq_enact _ shape]
  cases machine.effect instruction with
  | strayRead | strayWrite | invalid => exact machine.ending_excuse (by simp [Fault.access?]) _
  | calculate | read | write | compare | jump | nothing | halt => exact .sound rfl rfl

theorem standing_execute (machine : Machine) {instruction : Instruction} (shape : instruction.Shape) :
    (machine.execute instruction).2.standing = machine.standing := by
  have ending := machine.ending_execute shape
  generalize machine.execute instruction = outcome at ending ⊢
  cases ending with
  | sound kept standing => exact standing
  | excused fault graceful unfetched recorded standing => exact standing
  | failed fault strict unfetched => rfl

end Machine

end Harvard16
