/-! Logs of bounded length. A log keeps its latest entries, oldest first, and forgets the oldest when
it is full; a log of capacity zero keeps nothing. Main statement: after any run of pushes
onto an empty log the entries are a suffix of what was pushed, as long as the capacity allows. -/
namespace Harvard16

structure BoundedLog (α : Type) where
  capacity : Nat
  entries : List α
  deriving DecidableEq, Repr

namespace BoundedLog

variable {α : Type}

def empty (capacity : Nat) : BoundedLog α := ⟨capacity, []⟩

def push (log : BoundedLog α) (entry : α) : BoundedLog α :=
  { log with entries := (log.entries ++ [entry]).drop (log.entries.length + 1 - log.capacity) }

/-- A push as a ring makes it: nothing is kept without capacity, and a log that has as many entries as
that drops its oldest one first. -/
def pushRing (log : BoundedLog α) (entry : α) : BoundedLog α :=
  if log.capacity = 0 then log
  else if log.entries.length = log.capacity then { log with entries := log.entries.tail ++ [entry] }
  else { log with entries := log.entries ++ [entry] }

def clear (log : BoundedLog α) : BoundedLog α := empty log.capacity

def size (log : BoundedLog α) : Nat := log.entries.length

def last? (log : BoundedLog α) : Option α := log.entries.getLast?

@[simp] theorem capacity_push (log : BoundedLog α) (entry : α) :
    (log.push entry).capacity = log.capacity := rfl

theorem push_eq_pushRing {log : BoundedLog α} (within : log.entries.length ≤ log.capacity) (entry : α) :
    log.push entry = log.pushRing entry := by
  rw [push, pushRing]
  split
  · rename_i roomless
    have nothing : log.entries = [] := List.length_eq_zero_iff.1 (by omega)
    obtain ⟨capacity, entries⟩ := log
    cases nothing
    cases roomless
    rfl
  · rename_i room
    split
    · rename_i full
      rw [full, Nat.add_sub_cancel_left, List.drop_append_of_le_length (by omega), List.drop_one]
    · rw [Nat.sub_eq_zero_of_le (by omega), List.drop_zero]

theorem last?_push (log : BoundedLog α) (entry : α) :
    (log.push entry).last? = if log.capacity = 0 then none else some entry := by
  rw [last?, push]
  split
  · rename_i roomless
    simp [roomless]
  · rename_i room
    have kept : log.entries.length + 1 - log.capacity ≤ log.entries.length := by omega
    rw [List.drop_append_of_le_length kept, List.getLast?_concat]

def suffix (n : Nat) (xs : List α) : List α := xs.drop (xs.length - n)

theorem suffix_append_singleton (n : Nat) (xs : List α) (x : α) :
    (suffix n xs ++ [x]).drop ((suffix n xs).length + 1 - n) = suffix n (xs ++ [x]) := by
  have shorter : xs.length - n ≤ xs.length := Nat.sub_le _ _
  rw [suffix, suffix, ← List.drop_append_of_le_length shorter, List.drop_drop]
  congr 1
  simp only [List.length_drop, List.length_append, List.length_cons, List.length_nil]
  omega

theorem entries_foldl_push (capacity : Nat) (xs : List α) :
    (xs.foldl push (empty capacity)).entries = suffix capacity xs := by
  suffices h : ∀ done : List α,
      xs.foldl push ⟨capacity, suffix capacity done⟩ = ⟨capacity, suffix capacity (done ++ xs)⟩ by
    have := h []
    simp only [suffix, List.drop_nil, List.nil_append] at this
    simp [empty, this, suffix]
  induction xs with
  | nil => simp
  | cons x xs ih =>
    intro done
    have := ih (done ++ [x])
    simp only [List.foldl_cons, push, suffix_append_singleton, this]
    simp

end BoundedLog

end Harvard16
