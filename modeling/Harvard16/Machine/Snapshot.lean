import Harvard16.Json
import Harvard16.Machine.Basic

/-! Snapshots: what an observer sees of a machine, and its two written forms. The text form leaves out
registers and data words that are zero, and the heading of the data memory when there are none;
the JSON form gives every field in order. -/
namespace Harvard16

structure Snapshot where
  pc : UInt16
  state : RunState
  cycles : Nat
  instructions : Nat
  registers : List UInt16
  flags : Flags
  data : List (Nat × UInt16)
  stats : Statistics
  faults : Nat
  deriving DecidableEq, Repr

def Machine.snapshot (machine : Machine) : Snapshot :=
  { pc := machine.pc
    state := machine.state
    cycles := machine.cycles
    instructions := machine.instructions
    registers := machine.registers.values
    flags := machine.alu.flags
    data := machine.data.nonZero
    stats := machine.stats
    faults := machine.faults.total }

namespace Snapshot

def wordText (word : UInt16) : String := s!"{Text.hexWord word.toNat} ({word.toNat})"

def text (snapshot : Snapshot) : String :=
  let registers := (snapshot.registers.zipIdx.filter (·.1 != 0)).map fun (value, i) =>
    s!"  x{Text.padEnd 2 (toString i)} = {wordText value}\n"
  let data := snapshot.data.map fun (address, value) =>
    s!"  [{Text.hexWord address}] = {wordText value}\n"
  s!"State: {snapshot.state.tag}  PC: {Text.hexWord snapshot.pc.toNat}  " ++
    s!"Flags: {snapshot.flags.text}\n" ++
    s!"Cycles: {snapshot.cycles}  Instructions: {snapshot.instructions}  " ++
    s!"Errors: {snapshot.faults}\n" ++
    "Registers:\n" ++ String.join registers ++
    if data.isEmpty then "" else "Data memory:\n" ++ String.join data

def json (snapshot : Snapshot) : String :=
  let number (n : Nat) : String := toString n
  let flag (b : Bool) : String := if b then "true" else "false"
  let stats := snapshot.stats
  Json.object 0
    [("pc", number snapshot.pc.toNat),
     ("state", s!"\"{snapshot.state.name}\""),
     ("cycles", number snapshot.cycles),
     ("instructions", number snapshot.instructions),
     ("registers", Json.array 1 (snapshot.registers.map (number ·.toNat))),
     ("flags", Json.object 1
       [("zero", flag snapshot.flags.zero),
        ("overflow", flag snapshot.flags.overflow),
        ("negative", flag snapshot.flags.negative)]),
     ("data", Json.array 1 (snapshot.data.map fun (address, value) =>
       Json.array 2 [number address, number value.toNat])),
     ("stats", Json.object 1
       [("r_type", number stats.r),
        ("i_type", number stats.i),
        ("s_type", number stats.s),
        ("b_type", number stats.b),
        ("j_type", number stats.j),
        ("special", number stats.special),
        ("branches_taken", number stats.branchesTaken),
        ("branches_not_taken", number stats.branchesNotTaken),
        ("memory_reads", number stats.memoryReads),
        ("memory_writes", number stats.memoryWrites)]),
     ("errors", number snapshot.faults)]

end Snapshot

end Harvard16
