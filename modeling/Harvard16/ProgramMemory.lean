import Harvard16.Fault

/-! Memory for the program. A load clears all of it, puts the program at its start address and
remembers where the program lies; a load that does not fit changes nothing. Outside the
program every word is zero. -/
namespace Harvard16

structure ProgramMemory where
  words : Array UInt16
  start : Nat
  length : Nat
  deriving DecidableEq, Repr

namespace ProgramMemory

def blank (size : Nat) : ProgramMemory := ⟨Array.replicate size 0, 0, 0⟩

def size (memory : ProgramMemory) : Nat := memory.words.size

def stop (memory : ProgramMemory) : Nat := memory.start + memory.length

/-- A program at `start`, with zeros before it and after it up to the size of the memory. -/
def image (size : Nat) (program : List UInt16) (start : Nat) : Array UInt16 :=
  (List.replicate start 0 ++ program ++ List.replicate (size - start - program.length) 0).toArray

def load (memory : ProgramMemory) (program : List UInt16) (start : Nat) :
    Except Fault ProgramMemory :=
  if memory.size ≤ start then .error (.startOutside start memory.size)
  else if memory.size - start < program.length then
    .error (.programTooLong program.length (memory.size - start))
  else .ok ⟨image memory.size program start, start, program.length⟩

def fetch (memory : ProgramMemory) (pc : UInt16) : Except Fault UInt16 :=
  match memory.words[pc.toNat]? with
  | some word => .ok word
  | none => .error (.memory pc.toNat .fetch (some pc))

def clear (memory : ProgramMemory) : ProgramMemory := blank memory.size

def dump (memory : ProgramMemory) (start count : Nat) : List (Nat × UInt16) :=
  ((memory.words.toList.zipIdx.drop start).take count).map Prod.swap

def summary (memory : ProgramMemory) : String :=
  s!"InstructionMemory \x7b size: {memory.size}, program: {memory.start}..{memory.stop} \x7d"

theorem size_image {size start : Nat} {program : List UInt16}
    (fits : start + program.length ≤ size) : (image size program start).size = size := by
  simp [image]
  omega

theorem load_eq_ok_iff {memory loaded : ProgramMemory} {program : List UInt16} {start : Nat} :
    memory.load program start = .ok loaded ↔
      start < memory.size ∧ start + program.length ≤ memory.size ∧
        loaded = ⟨image memory.size program start, start, program.length⟩ := by
  unfold load
  split
  · simp
    omega
  · split
    · simp
      omega
    · simp only [Except.ok.injEq]
      constructor
      · rintro rfl
        exact ⟨by omega, by omega, rfl⟩
      · rintro ⟨-, -, rfl⟩
        rfl

end ProgramMemory

end Harvard16
