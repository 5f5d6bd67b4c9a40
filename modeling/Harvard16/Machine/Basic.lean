import Harvard16.Config
import Harvard16.Control
import Harvard16.DataMemory
import Harvard16.ProgramMemory
import Harvard16.Registers

/-! The machine: a processor with separate memories for program and data, and the books that it
keeps. The configuration is not stored a second time; sizes, capacities and policy live in
the parts that they govern, and `Machine.config` reads them back. -/
namespace Harvard16

inductive RunState where
  | ready | running | halted
  deriving DecidableEq, Repr

namespace RunState

def tag : RunState → String
  | .ready => "READY"
  | .running => "RUNNING"
  | .halted => "HALTED"

def name : RunState → String
  | .ready => "Ready"
  | .running => "Running"
  | .halted => "Halted"

end RunState

structure Retired where
  cycle : Nat
  pc : UInt16
  word : UInt16
  deriving DecidableEq, Repr

namespace Retired

def instruction (entry : Retired) : Instruction := .decode entry.word

def assembly (entry : Retired) : String := entry.instruction.text

def format? (entry : Retired) : Option Format := entry.instruction.format?

def row (cycle : Nat) (pc word : UInt16) (assembly : String) : String :=
  s!"{Text.padStart 6 (toString cycle)}  {Text.upperHex 4 pc.toNat}: " ++
    s!"{Text.upperHex 4 word.toNat}  {assembly}"

def line (entry : Retired) : String := row entry.cycle entry.pc entry.word entry.assembly

end Retired

/-- Counts of executed instructions by format, of branches by outcome, and of data accesses that
instructions made without a fault. -/
structure Statistics where
  r : Nat
  i : Nat
  s : Nat
  b : Nat
  j : Nat
  special : Nat
  branchesTaken : Nat
  branchesNotTaken : Nat
  memoryReads : Nat
  memoryWrites : Nat
  deriving DecidableEq, Repr

namespace Statistics

def zero : Statistics := ⟨0, 0, 0, 0, 0, 0, 0, 0, 0, 0⟩

def count (stats : Statistics) : Format → Statistics
  | .r => { stats with r := stats.r + 1 }
  | .i => { stats with i := stats.i + 1 }
  | .s => { stats with s := stats.s + 1 }
  | .b => { stats with b := stats.b + 1 }
  | .j => { stats with j := stats.j + 1 }
  | .special => { stats with special := stats.special + 1 }

def countRead (stats : Statistics) : Statistics :=
  { stats with memoryReads := stats.memoryReads + 1 }

def countWrite (stats : Statistics) : Statistics :=
  { stats with memoryWrites := stats.memoryWrites + 1 }

def countBranch (stats : Statistics) (taken : Bool) : Statistics :=
  if taken then { stats with branchesTaken := stats.branchesTaken + 1 }
  else { stats with branchesNotTaken := stats.branchesNotTaken + 1 }

end Statistics

structure Machine where
  registers : Registers
  alu : Alu
  program : ProgramMemory
  data : DataMemory
  control : ControlUnit
  pc : UInt16
  state : RunState
  cycles : Nat
  instructions : Nat
  history : BoundedLog Retired
  stats : Statistics
  faults : FaultHandler
  cycleBudget : Nat
  deriving DecidableEq, Repr

namespace Machine

def build (config : Config) : Machine :=
  { registers := .zeroed
    alu := .initial
    program := .blank config.programSize
    data := .blank config.dataSize config.dataBase
    control := .initial
    pc := 0
    state := .ready
    cycles := 0
    instructions := 0
    history := .empty config.historyCapacity
    stats := .zero
    faults := .empty config.policy config.faultCapacity
    cycleBudget := config.cycleBudget }

def ofConfig (config : Config) : Except Fault Machine :=
  match config.check with
  | .ok () => .ok (build config)
  | .error error => .error error.toFault

def config (machine : Machine) : Config :=
  { programSize := machine.program.size
    dataSize := machine.data.size
    dataBase := machine.data.base
    policy := machine.faults.policy
    historyCapacity := machine.history.capacity
    faultCapacity := machine.faults.log.capacity
    cycleBudget := machine.cycleBudget }

@[simp] theorem config_build (config : Config) : (build config).config = config := by
  simp [build, Machine.config, ProgramMemory.blank, ProgramMemory.size, DataMemory.blank,
    DataMemory.size, BoundedLog.empty, FaultHandler.empty]

def isHalted (machine : Machine) : Bool := machine.state = .halted

/-- Back to the start with the program kept. -/
def reset (machine : Machine) : Machine :=
  { machine with
    registers := .zeroed
    alu := .initial
    data := machine.data.clear
    control := .initial
    pc := 0
    state := .ready
    cycles := 0
    instructions := 0
    history := machine.history.clear
    stats := .zero
    faults := machine.faults.clear }

/-- Loads a program and points at its first word. A program that does not fit is refused and logged
under either policy, and nothing else changes. -/
def load (machine : Machine) (program : List UInt16) (start : Nat) :
    Except Fault Unit × Machine :=
  match machine.program.load program start with
  | .ok loaded =>
    (.ok (), { machine with program := loaded, pc := UInt16.ofNat start, state := .ready })
  | .error fault => (.error fault, { machine with faults := machine.faults.record fault })

def setPolicy (machine : Machine) (policy : Policy) : Machine :=
  { machine with faults := { machine.faults with policy } }

end Machine

end Harvard16
