import Harvard16.Text.Cut
import Harvard16.Text.Numeral

/-! The register file: sixteen registers of sixteen bits, each known by its number and by a name of
the calling convention (ABI). Register zero has no storage, so it reads as zero and a write to it is
dropped; so is a write to a number past fifteen. -/
namespace Harvard16

structure RegisterName where
  name : String
  abiName : String
  purpose : String
  deriving DecidableEq, Repr

namespace RegisterName

def all : List RegisterName :=
  [⟨"x0", "zero", "Hard-wired zero"⟩,
   ⟨"x1", "ra", "Return address"⟩,
   ⟨"x2", "sp", "Stack pointer"⟩,
   ⟨"x3", "gp", "Global pointer"⟩,
   ⟨"x4", "tp", "Thread pointer"⟩,
   ⟨"x5", "t0", "Temporary register 0"⟩,
   ⟨"x6", "t1", "Temporary register 1"⟩,
   ⟨"x7", "t2", "Temporary register 2"⟩,
   ⟨"x8", "s0", "Saved register 0 / frame pointer"⟩,
   ⟨"x9", "s1", "Saved register 1"⟩,
   ⟨"x10", "a0", "Function argument 0 / return value"⟩,
   ⟨"x11", "a1", "Function argument 1"⟩,
   ⟨"x12", "a2", "Function argument 2"⟩,
   ⟨"x13", "a3", "Function argument 3"⟩,
   ⟨"x14", "a4", "Function argument 4"⟩,
   ⟨"x15", "a7", "System call number"⟩]

def number? : List Char → Option Nat
  | 'x' :: digits => Text.decimal? 16 digits
  | _ => none

/-- The register with the number or ABI name that a text gives, blanks around it and the case of its
letters aside. -/
def index? (text : List Char) : Option Nat :=
  let lower := (Text.trim text).map Char.toLower
  match number? lower with
  | some n => some n
  | none => all.findIdx? (·.abiName.toList == lower)

theorem index?_lt {text : List Char} {n : Nat} (h : index? text = some n) : n < 16 := by
  simp only [index?] at h
  split at h
  · rename_i found
    cases h
    unfold number? at found
    split at found
    · exact Text.lt_of_decimal? found
    · cases found
  · exact (List.findIdx?_eq_some_iff_getElem.1 h).1

end RegisterName

structure Registers where
  stored : Vector UInt16 15
  deriving DecidableEq, Repr

namespace Registers

def zeroed : Registers := ⟨Vector.replicate 15 0⟩

def read (registers : Registers) : Nat → UInt16
  | 0 => 0
  | i + 1 => registers.stored[i]?.getD 0

def writable (i : Nat) : Bool := 0 < i ∧ i < 16

def store (registers : Registers) (i value : Nat) : Bool × Registers :=
  match i with
  | 0 => (false, registers)
  | i + 1 =>
    if i < 15 then (true, ⟨registers.stored.setIfInBounds i (UInt16.ofNat value)⟩)
    else (false, registers)

def write (registers : Registers) (i value : Nat) : Registers := (registers.store i value).2

theorem store_eq (registers : Registers) (i value : Nat) :
    registers.store i value = (writable i, registers.write i value) := by
  cases i with
  | zero => rfl
  | succ i =>
    have places : writable (i + 1) = decide (i < 15) := by
      simp [writable]
      omega
    rw [places, write, store]
    split <;> simp_all

@[simp] theorem read_zero (registers : Registers) : registers.read 0 = 0 := rfl

@[simp] theorem read_zeroed (i : Nat) : zeroed.read i = 0 := by
  cases i with
  | zero => rfl
  | succ i =>
    rw [read, zeroed, Vector.getElem?_replicate]
    split <;> rfl

theorem read_write (registers : Registers) (i j value : Nat) :
    (registers.write i value).read j =
      if i = j ∧ writable i then UInt16.ofNat value else registers.read j := by
  cases i with
  | zero => simp [write, store, writable]
  | succ i =>
    cases j with
    | zero => simp
    | succ j =>
      simp only [write, store, writable, Nat.succ_pos, Nat.add_left_inj, true_and,
        decide_eq_true_eq]
      split
      · rename_i inside
        rw [read, read, Vector.getElem?_setIfInBounds]
        by_cases same : i = j
        · subst same
          have low : i + 1 < 16 := by omega
          simp [inside, low]
        · simp [same]
      · rename_i outside
        have none : ¬(i = j ∧ i + 1 < 16) := by omega
        rw [if_neg none]

def values (registers : Registers) : List UInt16 := 0 :: registers.stored.toList

def rows (registers : Registers) : List (RegisterName × UInt16) :=
  RegisterName.all.zip registers.values

def get? (registers : Registers) (i : Nat) : Option (RegisterName × UInt16) := registers.rows[i]?

def nonZero (registers : Registers) : List (Nat × UInt16) :=
  (registers.values.zipIdx.filter (·.1 != 0)).map Prod.swap

def readNamed (registers : Registers) (name : List Char) : UInt16 :=
  (RegisterName.index? name).elim 0 registers.read

/-- Stores to the register that a text names, and nowhere if it names none. -/
def storeNamed (registers : Registers) (name : List Char) (value : Nat) : Bool × Registers :=
  (RegisterName.index? name).elim (false, registers) (registers.store · value)

def writeNamed (registers : Registers) (name : List Char) (value : Nat) : Registers :=
  (registers.storeNamed name value).2

def namesWritable (name : List Char) : Bool := (RegisterName.index? name).any writable

theorem writeNamed_eq (registers : Registers) (name : List Char) (value : Nat) :
    registers.writeNamed name value =
      (RegisterName.index? name).elim registers (registers.write · value) := by
  rw [writeNamed, storeNamed]
  cases RegisterName.index? name <;> rfl

theorem storeNamed_eq (registers : Registers) (name : List Char) (value : Nat) :
    registers.storeNamed name value = (namesWritable name, registers.writeNamed name value) := by
  rw [writeNamed_eq, storeNamed, namesWritable]
  cases RegisterName.index? name with
  | none => rfl
  | some i => exact registers.store_eq i value

def row (n : RegisterName) (value : UInt16) : String :=
  s!"{Text.padStart 3 n.name}({Text.padEnd 4 n.abiName}): {Text.hexWord value.toNat} " ++
    s!"({Text.padStart 5 (toString value.toNat)}) - {n.purpose}"

def table (registers : Registers) : String :=
  String.join (registers.rows.map fun (n, value) => row n value ++ "\n")

def brief (n : RegisterName) (value : UInt16) : String :=
  s!"{n.name}({n.abiName})={Text.hexWord value.toNat}"

def briefTable (registers : Registers) : String :=
  let held := registers.rows.filter (·.2 != 0)
  "[" ++ ", ".intercalate (held.map fun (n, value) => brief n value) ++ "]"

end Registers

end Harvard16
