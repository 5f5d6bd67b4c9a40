import Harvard16.ProgramMemory

/-! Where a program lies in its memory. A memory is laid out when the program does not reach past its
end and every word around the program is zero; a blank memory is, and so is one that a program
has been loaded into. What is found at an address then tells whether the program goes on there. -/
namespace Harvard16.ProgramMemory

def Holds (memory : ProgramMemory) (start : Nat) (words : List UInt16) : Prop :=
  ∀ i < words.length, memory.words[start + i]? = words[i]?

theorem holds_load {memory loaded : ProgramMemory} {words : List UInt16} {start : Nat}
    (h : memory.load words start = .ok loaded) : loaded.Holds start words := by
  obtain ⟨-, -, rfl⟩ := load_eq_ok_iff.1 h
  intro i bound
  simp [image, List.getElem?_append, bound]

structure LaidOut (memory : ProgramMemory) : Prop where
  stop_le : memory.stop ≤ memory.size
  outside : ∀ (address : Nat) (word : UInt16), memory.words[address]? = some word →
    address < memory.start ∨ memory.stop ≤ address → word = 0

@[simp] theorem size_blank (size : Nat) : (blank size).size = size := by
  simp [blank, ProgramMemory.size]

theorem size_load {memory loaded : ProgramMemory} {program : List UInt16} {start : Nat}
    (h : memory.load program start = .ok loaded) : loaded.size = memory.size := by
  obtain ⟨-, fits, rfl⟩ := load_eq_ok_iff.1 h
  exact size_image fits

/-- Whether and how a program is loaded depends on the size of the memory alone. -/
theorem load_congr {memory other : ProgramMemory} (sizes : other.size = memory.size) (program : List UInt16)
    (start : Nat) : other.load program start = memory.load program start := by
  rw [load, load, sizes]

theorem laidOut_blank (size : Nat) : (blank size).LaidOut := by
  constructor
  · exact Nat.zero_le _
  · intro address word found outside
    rw [blank, Array.getElem?_replicate] at found
    split at found <;> simp_all

theorem image_outside {size start address : Nat} {program : List UInt16} {word : UInt16}
    (found : (image size program start)[address]? = some word)
    (outside : address < start ∨ start + program.length ≤ address) : word = 0 := by
  rw [image, List.getElem?_toArray, List.append_assoc] at found
  rcases outside with before | behind
  · rw [List.getElem?_append_left (by simpa using before), List.getElem?_replicate] at found
    simp_all
  · rw [List.getElem?_append_right (by simp; omega), List.getElem?_append_right (by simp; omega),
      List.getElem?_replicate] at found
    simp_all

theorem laidOut_load {memory loaded : ProgramMemory} {program : List UInt16} {start : Nat}
    (h : memory.load program start = .ok loaded) : loaded.LaidOut := by
  obtain ⟨-, fits, rfl⟩ := load_eq_ok_iff.1 h
  constructor
  · show start + program.length ≤ (image memory.size program start).size
    rw [size_image fits]
    exact fits
  · intro address word found outside
    exact image_outside found outside

theorem mem_load {memory loaded : ProgramMemory} {program : List UInt16} {start : Nat}
    (h : memory.load program start = .ok loaded) {word : UInt16} (mem : word ∈ loaded.words) :
    word = 0 ∨ word ∈ program := by
  obtain ⟨-, -, rfl⟩ := load_eq_ok_iff.1 h
  simp only [image, List.mem_toArray, List.mem_append, List.mem_replicate] at mem
  rcases mem with (⟨-, zero⟩ | inside) | ⟨-, zero⟩
  · exact .inl zero
  · exact .inr inside
  · exact .inl zero

theorem LaidOut.eq_zero {memory : ProgramMemory} (laid : memory.LaidOut) {address : Nat} {word : UInt16}
    (past : memory.stop ≤ address) (found : memory.words[address]? = some word) : word = 0 :=
  laid.outside address word found (.inr past)

theorem LaidOut.exists_word {memory : ProgramMemory} (laid : memory.LaidOut) {address : Nat}
    (inside : address < memory.stop) : ∃ word, memory.words[address]? = some word :=
  ⟨_, Array.getElem?_eq_getElem (Nat.lt_of_lt_of_le inside laid.stop_le)⟩

end Harvard16.ProgramMemory
