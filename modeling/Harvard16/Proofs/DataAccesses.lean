import Harvard16.DataMemory
import Harvard16.Proofs.RecentCalls

/-! Data memory as a finite map. What a memory holds at an address is told here by the calls that were made of
it: the last value that one of them has written there since the memory was made or cleared, or zero. Main
statement: after any calls the words, the list of those that are not zero and both counters are as the calls
say, and so is the reply to the next call; a call that misses the window is a fault with its address and
leaves the memory as it was, and a write leaves every other address alone. -/
namespace Harvard16

inductive DataCall where
  | write (address value : Nat)
  | read (address : Nat)
  | peek (address : Nat)
  | contains (address : Nat)
  | clear
  deriving DecidableEq, Repr

inductive DataReply where
  | stored (outcome : Except Fault Unit)
  | word (outcome : Except Fault UInt16)
  | peeked (word : Option UInt16)
  | contained (inside : Bool)
  | cleared

namespace DataCall

def clears : DataCall → Bool
  | .clear => true
  | .write .. | .read _ | .peek _ | .contains _ => false

def valueAt? (address : Nat) : DataCall → Option Nat
  | .write target value => if target = address then some value else none
  | .read _ | .peek _ | .contains _ | .clear => none

/-- The word that was written last to an address since the memory was made or cleared, or zero. -/
def lastWord (calls : List DataCall) (address : Nat) : UInt16 :=
  UInt16.ofNat ((latest? clears (valueAt? address) calls).getD 0)

section

variable (base : UInt16) (size : Nat)

def inside (address : Nat) : Bool := base.toNat ≤ address ∧ address < base.toNat + size

def isRead : DataCall → Bool
  | .read address => inside base size address
  | .write .. | .peek _ | .contains _ | .clear => false

def isWrite : DataCall → Bool
  | .write address _ => inside base size address
  | .read _ | .peek _ | .contains _ | .clear => false

/-- What a map that these calls have been made of replies to one more. -/
def reply (calls : List DataCall) : DataCall → DataReply
  | .write address _ =>
    .stored (if inside base size address then .ok () else .error (.memory address .write none))
  | .read address =>
    .word (if inside base size address then .ok (lastWord calls address)
      else .error (.memory address .read none))
  | .peek address => .peeked (if inside base size address then some (lastWord calls address) else none)
  | .contains address => .contained (inside base size address)
  | .clear => .cleared

end

theorem lastWord_clear (calls : List DataCall) (address : Nat) :
    lastWord (calls ++ [.clear]) address = 0 := by
  rw [lastWord, latest?_append]
  rfl

theorem lastWord_append (calls : List DataCall) {call : DataCall} (kept : call.clears = false)
    (address : Nat) :
    lastWord (calls ++ [call]) address =
      ((valueAt? address call).map UInt16.ofNat).getD (lastWord calls address) := by
  rw [lastWord, latest?_append, kept, if_neg Bool.false_ne_true]
  cases valueAt? address call <;> rfl

end DataCall

namespace DataMemory

open DataCall

def call (memory : DataMemory) : DataCall → DataReply × DataMemory
  | .write address value => (memory.write address value).map .stored id
  | .read address => (memory.read address).map .word id
  | .peek address => (.peeked (memory.peek? address), memory)
  | .contains address => (.contained (memory.contains address), memory)
  | .clear => (.cleared, memory.clear)

def afterCalls (base : UInt16) (size : Nat) (calls : List DataCall) : DataMemory :=
  calls.foldl (fun memory call => (memory.call call).2) (blank size base)

/-- What a memory of this window holds and has counted after these calls. -/
structure Holds (memory : DataMemory) (base : UInt16) (size : Nat) (calls : List DataCall) : Prop where
  base_eq : memory.base = base
  size_eq : memory.size = size
  words : ∀ address, memory.peek? address =
    if inside base size address then some (lastWord calls address) else none
  reads : memory.reads = (recent clears calls).countP (isRead base size)
  writes : memory.writes = (recent clears calls).countP (isWrite base size)

variable {memory : DataMemory} {base : UInt16} {size : Nat} {calls : List DataCall}

theorem Holds.contains (holds : memory.Holds base size calls) (address : Nat) :
    memory.contains address = inside base size address := by
  rw [Bool.eq_iff_iff, contains_iff, holds.base_eq, holds.size_eq, inside, decide_eq_true_iff]

theorem Holds.write_cases (holds : memory.Holds base size calls) (address value : Nat) :
    (inside base size address = true ∧ ∃ words : Array UInt16, words.size = memory.size ∧
      memory.write address value = (.ok (), { memory with words, writes := memory.writes + 1 })) ∨
    (inside base size address = false ∧
      memory.write address value = (.error (.memory address .write none), memory)) := by
  rw [← holds.contains, write, DataMemory.contains]
  cases memory.index? address with
  | some i => exact .inl ⟨rfl, _, Array.size_setIfInBounds, rfl⟩
  | none => exact .inr ⟨rfl, rfl⟩

theorem Holds.read_cases (holds : memory.Holds base size calls) (address : Nat) :
    (inside base size address = true ∧ memory.read address =
      (.ok (lastWord calls address), { memory with reads := memory.reads + 1 })) ∨
    (inside base size address = false ∧
      memory.read address = (.error (.memory address .read none), memory)) := by
  rw [read, holds.words]
  cases inside base size address with
  | true => exact .inl ⟨rfl, rfl⟩
  | false => exact .inr ⟨rfl, rfl⟩

theorem holds_blank (base : UInt16) (size : Nat) : (blank size base).Holds base size [] := by
  refine ⟨rfl, Array.size_replicate, fun address => ?_, rfl, rfl⟩
  rw [peek?_blank]
  simp [inside, lastWord, latest?, recent]

/-- A call that does not clear the memory: what it writes takes the place of what was there, and it counts if
it is a read or a write that succeeds. -/
theorem Holds.step (holds : memory.Holds base size calls) (call : DataCall) (kept : call.clears = false)
    {next : DataMemory} (base_eq : next.base = memory.base) (size_eq : next.size = memory.size)
    (words : ∀ address, next.peek? address =
      if inside base size address then
        some (((valueAt? address call).map UInt16.ofNat).getD (lastWord calls address))
      else none)
    (reads : next.reads = memory.reads + if isRead base size call then 1 else 0)
    (writes : next.writes = memory.writes + if isWrite base size call then 1 else 0) :
    next.Holds base size (calls ++ [call]) := by
  refine ⟨base_eq.trans holds.base_eq, size_eq.trans holds.size_eq, fun address => ?_, ?_, ?_⟩
  · rw [words, lastWord_append calls kept]
  · rw [reads, recent_append, kept, if_neg Bool.false_ne_true, List.countP_cons, holds.reads]
  · rw [writes, recent_append, kept, if_neg Bool.false_ne_true, List.countP_cons, holds.writes]

theorem Holds.write (holds : memory.Holds base size calls) (address value : Nat) :
    (memory.write address value).2.Holds base size (calls ++ [.write address value]) := by
  have stored (other : Nat) : (memory.write address value).2.peek? other =
      if inside base size other then
        some (((valueAt? other (.write address value)).map UInt16.ofNat).getD (lastWord calls other))
      else none := by
    rw [peek?_write, holds.contains, holds.words, valueAt?]
    by_cases hit : address = other
    · subst hit
      cases inside base size address <;> simp
    · simp [hit]
  obtain ⟨within, words, same, written⟩ | ⟨missed, refused⟩ := holds.write_cases address value
  · rw [written] at stored ⊢
    exact holds.step (.write address value) rfl rfl same stored rfl (by simp [isWrite, within])
  · rw [refused] at stored ⊢
    exact holds.step (.write address value) rfl rfl rfl stored rfl (by simp [isWrite, missed])

theorem Holds.read (holds : memory.Holds base size calls) (address : Nat) :
    (memory.read address).2.Holds base size (calls ++ [.read address]) := by
  obtain ⟨within, answered⟩ | ⟨missed, refused⟩ := holds.read_cases address
  · rw [answered]
    exact holds.step (.read address) rfl rfl rfl holds.words (by simp [isRead, within]) rfl
  · rw [refused]
    exact holds.step (.read address) rfl rfl rfl holds.words (by simp [isRead, missed]) rfl

theorem Holds.clear (holds : memory.Holds base size calls) :
    memory.clear.Holds base size (calls ++ [.clear]) := by
  obtain ⟨base_eq, size_eq, words, reads, writes⟩ := holds_blank base size
  have forgotten : recent clears (calls ++ [.clear]) = [] := recent_append clears calls .clear
  rw [DataMemory.clear, holds.size_eq, holds.base_eq]
  constructor
  · exact base_eq
  · exact size_eq
  · intro address
    rw [words, lastWord_clear]
    rfl
  · rw [forgotten]
    exact reads
  · rw [forgotten]
    exact writes

theorem Holds.call (holds : memory.Holds base size calls) (call : DataCall) :
    (memory.call call).2.Holds base size (calls ++ [call]) := by
  cases call with
  | write address value => exact holds.write address value
  | read address => exact holds.read address
  | peek address => exact holds.step (.peek address) rfl rfl rfl holds.words rfl rfl
  | contains address => exact holds.step (.contains address) rfl rfl rfl holds.words rfl rfl
  | clear => exact holds.clear

theorem Holds.reply (holds : memory.Holds base size calls) (call : DataCall) :
    (memory.call call).1 = call.reply base size calls := by
  cases call with
  | write address value =>
    rw [DataMemory.call, DataCall.reply]
    obtain ⟨within, words, -, written⟩ | ⟨missed, refused⟩ := holds.write_cases address value
    · rw [written, within]
      rfl
    · rw [refused, missed]
      rfl
  | read address =>
    rw [DataMemory.call, DataCall.reply]
    obtain ⟨within, answered⟩ | ⟨missed, refused⟩ := holds.read_cases address
    · rw [answered, within]
      rfl
    · rw [refused, missed]
      rfl
  | peek address => rw [DataMemory.call, holds.words, DataCall.reply]
  | contains address => rw [DataMemory.call, holds.contains, DataCall.reply]
  | clear => rfl

theorem Holds.unchanged (holds : memory.Holds base size calls) {call : DataCall}
    (unread : isRead base size call = false) (unwritten : isWrite base size call = false)
    (kept : call.clears = false) : (memory.call call).2 = memory := by
  cases call with
  | write address value =>
    obtain ⟨within, -⟩ | ⟨-, refused⟩ := holds.write_cases address value
    · exact absurd (within.symm.trans unwritten) nofun
    · rw [DataMemory.call, refused]
      rfl
  | read address =>
    obtain ⟨within, -⟩ | ⟨-, refused⟩ := holds.read_cases address
    · exact absurd (within.symm.trans unread) nofun
    · rw [DataMemory.call, refused]
      rfl
  | peek address => rfl
  | contains address => rfl
  | clear => cases kept

theorem held?_eq_some_iff {i address : Nat} {word : UInt16} :
    memory.held? i = some (address, word) ↔
      address = memory.base.toNat + i ∧ memory.words[i]? = some word ∧ word ≠ 0 := by
  rw [held?]
  cases memory.words[i]? with
  | none => simp
  | some found => by_cases zero : found = 0 <;> grind

theorem mem_nonZero_iff {address : Nat} {word : UInt16} :
    (address, word) ∈ memory.nonZero ↔ memory.peek? address = some word ∧ word ≠ 0 := by
  rw [nonZero_eq, List.mem_filterMap]
  simp only [held?_eq_some_iff, List.mem_range, peek?, index?]
  constructor
  · rintro ⟨i, within, rfl, found, nonzero⟩
    simp [within, found, nonzero]
  · rintro ⟨peeked, nonzero⟩
    split at peeked
    · rename_i window
      exact ⟨address - memory.base.toNat, by omega, by omega, peeked, nonzero⟩
    · cases peeked

theorem pairwise_nonZero (memory : DataMemory) : (memory.nonZero.map (·.1)).Pairwise (· < ·) := by
  rw [nonZero_eq, List.pairwise_map, List.pairwise_filterMap]
  refine List.pairwise_lt_range.imp ?_
  rintro i j before ⟨address, word⟩ held ⟨other, another⟩ further
  obtain ⟨rfl, -⟩ := held?_eq_some_iff.1 held
  obtain ⟨rfl, -⟩ := held?_eq_some_iff.1 further
  exact Nat.add_lt_add_left before _

theorem Holds.mem_nonZero (holds : memory.Holds base size calls) (address : Nat) (word : UInt16) :
    (address, word) ∈ memory.nonZero ↔
      inside base size address ∧ lastWord calls address = word ∧ word ≠ 0 := by
  rw [mem_nonZero_iff, holds.words]
  cases inside base size address <;> simp

theorem holds_after (base : UInt16) (size : Nat) (calls : List DataCall) :
    (afterCalls base size calls).Holds base size calls :=
  calls_induction (P := (Holds · base size)) (holds_blank base size) (fun _ _ call holds => holds.call call)
    calls

/-- After any calls a memory is the map that they make of it: a word is the last that was written there, zeros
apart the list shows all words in the order of their addresses, and the counters have counted the reads and
the writes that succeeded. It replies to the next call as the map does, and a call that fails changes
nothing. -/
theorem calls_refine_map (base : UInt16) (size : Nat) (calls : List DataCall) :
    let memory := afterCalls base size calls
    memory.Holds base size calls ∧
      (∀ call, (memory.call call).1 = call.reply base size calls) ∧
      (∀ call, isRead base size call = false → isWrite base size call = false → call.clears = false →
        (memory.call call).2 = memory) ∧
      (∀ address value other, other ≠ address →
        (memory.write address value).2.peek? other = memory.peek? other) ∧
      (∀ address word, (address, word) ∈ memory.nonZero ↔
        inside base size address ∧ lastWord calls address = word ∧ word ≠ 0) ∧
      (memory.nonZero.map (·.1)).Pairwise (· < ·) := by
  intro memory
  have holds : memory.Holds base size calls := holds_after base size calls
  refine ⟨holds, holds.reply, fun _ => holds.unchanged, ?_, holds.mem_nonZero, memory.pairwise_nonZero⟩
  intro address value other apart
  rw [peek?_write, if_neg fun hit => apart hit.1.symm]

theorem calls_refine_map_missing :
    let calls : List DataCall := [.write 0x1001 0x12345, .read 0x1003]
    let memory := afterCalls 0x1000 4 calls
    isRead 0x1000 4 (.read 0x1004) = false ∧ isWrite 0x1000 4 (.read 0x1004) = false ∧
      (DataCall.read 0x1004).clears = false ∧ (memory.call (.read 0x1004)).2 = memory ∧
      (0x1001 : Nat) ≠ 0x1002 ∧ (memory.write 0x1002 9).2.peek? 0x1001 = some 0x2345 := by
  intro calls memory
  obtain ⟨holds, -, unchanged, frame, -, -⟩ := calls_refine_map 0x1000 4 calls
  have unread : isRead 0x1000 4 (.read 0x1004) = false := by decide
  have apart : (0x1001 : Nat) ≠ 0x1002 := by decide
  refine ⟨unread, rfl, rfl, unchanged _ unread rfl rfl, apart, ?_⟩
  rw [frame 0x1002 9 0x1001 apart, holds.words]
  decide

end DataMemory

end Harvard16
