import Harvard16.Machine.Basic

/-! One step of the machine and runs of many. A step fetches a word, decodes it, has the control unit
generate its signals, executes it, and then keeps the books. It ends the program when it finds
no program at its address, and otherwise answers whether the machine goes on. A fault that the
policy propagates ends the step before registers, memories, address and counts have changed. A traced
run is a run that also writes a line for each cycle that it counts, taken from the latest entry of the
history; a history without capacity has none, and then nothing is written. -/
namespace Harvard16.Machine

inductive Flow where
  | next
  | jump (target : UInt16)
  | halt
  deriving DecidableEq, Repr

/-- Hands a fault to the handler; under the graceful policy `fallback` takes the place of what is
missing. -/
def report {α : Type} (machine : Machine) (fault : Fault) (fallback : α) :
    Except Fault α × Machine :=
  let (answer, faults) := machine.faults.handle fault fallback
  (answer, { machine with faults })

/-- The word at the program counter, or `none` past the end of the program. A nonzero word is
fetched wherever it lies. -/
def fetch (machine : Machine) : Except Fault (Option UInt16) × Machine :=
  let pastEnd := machine.program.stop ≤ machine.pc.toNat
  match machine.program.fetch machine.pc with
  | .ok word => (.ok (if word = 0 ∧ pastEnd then none else some word), machine)
  | .error fault => if pastEnd then (.ok none, machine) else machine.report fault (some 0)

def calculate (machine : Machine) (signals : Signals) (rs1 rs2 imm : Nat) : UInt16 × Machine :=
  match signals.aluOp with
  | none => (0, machine)
  | some op =>
    let b := if signals.sourceB = some .immediate then UInt16.ofNat imm
      else machine.registers.read rs2
    let calculation : Calculation := ⟨op, machine.registers.read rs1, b⟩
    (calculation.result, { machine with alu := machine.alu.perform calculation })

def writeBack (machine : Machine) (signals : Signals) (rd : Nat) (value : UInt16) : Machine :=
  if signals.registerWrite then
    let value := if signals.writeSource = some .pcPlusOne then machine.pc + 1 else value
    { machine with registers := machine.registers.write rd value.toNat }
  else machine

/-- The data address of an offset from a register: the base of the data memory, plus a sum that
wraps at sixteen bits. -/
def dataAddress (machine : Machine) (rs1 offset : Nat) : Nat :=
  machine.data.base.toNat + (machine.registers.read rs1 + UInt16.ofNat offset).toNat

def target (machine : Machine) (offset : Int) : UInt16 := machine.pc + UInt16.ofInt offset

def loadWord (machine : Machine) (address : Nat) : Except Fault UInt16 × Machine :=
  match machine.data.read address with
  | (.ok value, data) => (.ok value, { machine with data, stats := machine.stats.countRead })
  | (.error fault, data) => { machine with data }.report (fault.raisedAt machine.pc) 0

def storeWord (machine : Machine) (address : Nat) (value : UInt16) : Except Fault Unit × Machine :=
  match machine.data.write address value.toNat with
  | (.ok (), data) => (.ok (), { machine with data, stats := machine.stats.countWrite })
  | (.error fault, data) => { machine with data }.report (fault.raisedAt machine.pc) ()

def execute (machine : Machine) (instruction : Instruction) : Except Fault Flow × Machine :=
  let signals := Signals.ofInstruction instruction
  match instruction with
  | .r _ rd rs1 rs2 =>
    let (result, machine) := machine.calculate signals rs1 rs2 0
    (.ok .next, machine.writeBack signals rd result)
  | .i _ rd rs1 imm =>
    if signals.memoryRead then
      match machine.loadWord (machine.dataAddress rs1 imm) with
      | (.ok value, machine) => (.ok .next, machine.writeBack signals rd value)
      | (.error fault, machine) => (.error fault, machine)
    else
      let (result, machine) := machine.calculate signals rs1 0 imm
      (.ok .next, machine.writeBack signals rd result)
  | .s _ rs2 rs1 offset =>
    match machine.storeWord (machine.dataAddress rs1 offset) (machine.registers.read rs2) with
    | (.ok (), machine) => (.ok .next, machine)
    | (.error fault, machine) => (.error fault, machine)
  | .b _ rs1 rs2 offset =>
    let (result, machine) := machine.calculate signals rs1 rs2 0
    let taken := result = 1
    (.ok (if taken then .jump (machine.target offset) else .next),
      { machine with stats := machine.stats.countBranch taken })
  | .j _ rd offset =>
    (.ok (.jump (machine.target offset)), machine.writeBack signals rd 0)
  | .special _ => (.ok (if signals.halts then .halt else .next), machine)
  | .invalid word =>
    match machine.report (.invalidInstruction word machine.pc) () with
    | (.ok (), machine) => (.ok .next, machine)
    | (.error fault, machine) => (.error fault, machine)

/-- Moves on and enters the word into the books. Only valid instructions count as instructions. -/
def retire (machine : Machine) (word : UInt16) (instruction : Instruction) (flow : Flow) :
    Machine :=
  { machine with
    pc := match flow with
      | .next => machine.pc + 1
      | .jump target => target
      | .halt => machine.pc
    state := if flow = .halt then .halted else .running
    cycles := machine.cycles + 1
    instructions := machine.instructions + if instruction.isValid then 1 else 0
    stats := instruction.format?.elim machine.stats machine.stats.count
    history := machine.history.push ⟨machine.cycles + 1, machine.pc, word⟩ }

def perform (machine : Machine) (word : UInt16) : Except Fault Bool × Machine :=
  let instruction := Instruction.decode word
  let machine := { machine with control := machine.control.generate instruction }
  match machine.execute instruction with
  | (.ok flow, machine) => (.ok (flow ≠ .halt), machine.retire word instruction flow)
  | (.error fault, machine) => (.error fault, machine)

/-- Executes one instruction. The answer is `true` while the machine can go on. -/
def step (machine : Machine) : Except Fault Bool × Machine :=
  if machine.isHalted then (.ok false, machine)
  else
    match machine.fetch with
    | (.ok (some word), machine) => machine.perform word
    | (.ok none, machine) => (.ok false, { machine with state := .halted })
    | (.error fault, machine) => (.error fault, machine)

/-- Steps until the machine halts, a fault ends the run, or the budget is spent. The answer tells
whether the machine has halted. -/
def run (machine : Machine) : Nat → Except Fault Bool × Machine
  | 0 => (.ok machine.isHalted, machine)
  | budget + 1 =>
    match machine.step with
    | (.ok true, machine) => machine.run budget
    | (.ok false, machine) => (.ok true, machine)
    | (.error fault, machine) => (.error fault, machine)

def runDefault (machine : Machine) : Except Fault Bool × Machine := machine.run machine.cycleBudget

@[simp] theorem step_of_isHalted {machine : Machine} (h : machine.isHalted = true) :
    machine.step = (.ok false, machine) := by
  simp [step, h]

theorem run_of_isHalted {machine : Machine} (h : machine.isHalted = true) (budget : Nat) :
    machine.run budget = (.ok true, machine) := by
  cases budget <;> simp [run, h]

def traceLine? (before : Nat) (machine : Machine) : Option String :=
  if machine.cycles = before then none
  else machine.history.last?.map fun entry => s!"{entry.line}  [{machine.alu.flags.text}]"

def runTraced (machine : Machine) (budget : Nat) : List String × Except Fault Bool × Machine :=
  go [] machine budget
where
  go (done : List String) (machine : Machine) :
      Nat → List String × Except Fault Bool × Machine
    | 0 => (done.reverse, .ok machine.isHalted, machine)
    | budget + 1 =>
      let before := machine.cycles
      match machine.step with
      | (.error fault, machine) => (done.reverse, .error fault, machine)
      | (.ok running, machine) =>
        let done := (traceLine? before machine).elim done (· :: done)
        if running then go done machine budget else (done.reverse, .ok true, machine)

end Harvard16.Machine
