import Harvard16.Fault

/-! Memory for data: a window of words that answers to the addresses from its base on. An access
outside the window is a fault that changes nothing; accesses inside are counted. -/
namespace Harvard16

structure DataMemory where
  base : UInt16
  words : Array UInt16
  reads : Nat
  writes : Nat
  deriving DecidableEq, Repr

namespace DataMemory

def blank (size : Nat) (base : UInt16) : DataMemory := ⟨base, Array.replicate size 0, 0, 0⟩

def size (memory : DataMemory) : Nat := memory.words.size

def index? (memory : DataMemory) (address : Nat) : Option Nat :=
  if memory.base.toNat ≤ address ∧ address < memory.base.toNat + memory.size then
    some (address - memory.base.toNat)
  else none

def contains (memory : DataMemory) (address : Nat) : Bool := (memory.index? address).isSome

def peek? (memory : DataMemory) (address : Nat) : Option UInt16 :=
  (memory.index? address).bind (memory.words[·]?)

def read (memory : DataMemory) (address : Nat) : Except Fault UInt16 × DataMemory :=
  match memory.peek? address with
  | some word => (.ok word, { memory with reads := memory.reads + 1 })
  | none => (.error (.memory address .read none), memory)

def write (memory : DataMemory) (address value : Nat) : Except Fault Unit × DataMemory :=
  match memory.index? address with
  | some i =>
    (.ok (), { memory with
      words := memory.words.setIfInBounds i (UInt16.ofNat value)
      writes := memory.writes + 1 })
  | none => (.error (.memory address .write none), memory)

def held? (memory : DataMemory) (i : Nat) : Option (Nat × UInt16) :=
  match memory.words[i]? with
  | some word => if word = 0 then none else some (memory.base.toNat + i, word)
  | none => none

/-- The words that are not zero at the first `n` places, in front of `found`. -/
def heldBelow (memory : DataMemory) (found : List (Nat × UInt16)) : Nat → List (Nat × UInt16)
  | 0 => found
  | n + 1 =>
    match memory.held? n with
    | some cell => heldBelow memory (cell :: found) n
    | none => heldBelow memory found n

def nonZero (memory : DataMemory) : List (Nat × UInt16) := memory.heldBelow [] memory.size

theorem heldBelow_eq (memory : DataMemory) (found : List (Nat × UInt16)) (n : Nat) :
    memory.heldBelow found n = (List.range n).filterMap memory.held? ++ found := by
  induction n generalizing found with
  | zero => rfl
  | succ n ih =>
    rw [heldBelow, List.range_succ, List.filterMap_append]
    split <;> rename_i cell <;> simp [ih, cell]

theorem nonZero_eq (memory : DataMemory) :
    memory.nonZero = (List.range memory.size).filterMap memory.held? := by
  rw [nonZero, heldBelow_eq, List.append_nil]

def accesses (memory : DataMemory) : Nat := memory.reads + memory.writes

def clear (memory : DataMemory) : DataMemory := blank memory.size memory.base

def summary (memory : DataMemory) : String :=
  s!"DataMemory({Text.hexWord memory.base.toNat}.." ++
    s!"{Text.hexWord (memory.base.toNat + memory.size)}, {memory.nonZero.length} non-zero)"

theorem contains_iff {memory : DataMemory} {address : Nat} :
    memory.contains address ↔
      memory.base.toNat ≤ address ∧ address < memory.base.toNat + memory.size := by
  simp [contains, index?]

theorem peek?_blank (size : Nat) (base : UInt16) (address : Nat) :
    (blank size base).peek? address =
      if base.toNat ≤ address ∧ address < base.toNat + size then some 0 else none := by
  grind [peek?, index?, blank, DataMemory.size]

theorem peek?_write (memory : DataMemory) (address value other : Nat) :
    (memory.write address value).2.peek? other =
      if address = other ∧ memory.contains address then some (UInt16.ofNat value)
      else memory.peek? other := by
  unfold write
  split <;> grind [peek?, index?, contains, DataMemory.size]

end DataMemory

end Harvard16
