import Harvard16.Machine.Execution

/-! What can be done to a machine from outside, as values, so that sessions are lists of operations.
Each operation has an answer and leaves a machine behind, also when it fails. -/
namespace Harvard16.Machine

inductive Operation where
  | load (program : List UInt16) (start : Nat)
  | step
  | run (budget : Nat)
  | runDefault
  | reset
  | setPolicy (policy : Policy)
  | writeRegister (i value : Nat)
  | writeData (address value : Nat)
  | readData (address : Nat)
  | clearProgram
  deriving DecidableEq, Repr

inductive Answer where
  | done
  | stored (written : Bool)
  | finished (outcome : Except Fault Unit)
  | went (outcome : Except Fault Bool)
  | word (outcome : Except Fault UInt16)

/-- Direct accesses to data are counted by the memory, but their faults are not logged. -/
def apply (machine : Machine) : Operation → Answer × Machine
  | .load program start => (machine.load program start).map .finished id
  | .step => machine.step.map .went id
  | .run budget => (machine.run budget).map .went id
  | .runDefault => machine.runDefault.map .went id
  | .reset => (.done, machine.reset)
  | .setPolicy policy => (.done, machine.setPolicy policy)
  | .writeRegister i value =>
    let (written, registers) := machine.registers.store i value
    (.stored written, { machine with registers })
  | .writeData address value =>
    let (outcome, data) := machine.data.write address value
    (.finished outcome, { machine with data })
  | .readData address =>
    let (outcome, data) := machine.data.read address
    (.word outcome, { machine with data })
  | .clearProgram => (.done, { machine with program := machine.program.clear })

theorem apply_writeRegister (machine : Machine) (i value : Nat) :
    machine.apply (.writeRegister i value) =
      (.stored (Registers.writable i), { machine with registers := machine.registers.write i value }) := by
  rw [apply, Registers.store_eq]

def session (machine : Machine) : List Operation → List Answer × Machine
  | [] => ([], machine)
  | operation :: operations =>
    let (answer, machine) := machine.apply operation
    let (answers, machine) := machine.session operations
    (answer :: answers, machine)

end Harvard16.Machine
