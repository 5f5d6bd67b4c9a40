import Harvard16.Proofs.DumpGrammar
import Harvard16.Proofs.RecentCalls

/-! The register file under any calls, by number and by name. A name is told here by what it is: the name of a
register in the calling convention, or an `x` and the digits of its number, with the blanks around it and
the case of its letters aside. Main statement: after any calls the registers are what the calls say, each of
them the last value that was written to it by whatever name, in every way of reading them; register zero and
what is no register read as zero, and a write to them is dropped. -/
namespace Harvard16

namespace RegisterName

def plain (text : List Char) : List Char := (Text.trim text).map Char.toLower

/-- The texts that are names of a register. -/
inductive Names (text : List Char) : Nat → Prop
  | called {i : Nat} {register : RegisterName} (listed : all[i]? = some register)
      (spelled : plain text = register.abiName.toList) : Names text i
  | numbered {i : Nat} {digits : List Char} (spelled : plain text = 'x' :: digits) (nonempty : digits ≠ [])
      (digital : ∀ c ∈ digits, c.isDigit = true) (value : Nat.ofDigitChars 10 digits 0 = i)
      (small : i < 16) : Names text i

theorem alias_listed : ∀ i < 16, ∀ register ∈ all[i]?, number? register.abiName.toList = none ∧
    all.findIdx? (·.abiName.toList == register.abiName.toList) = some i := by
  decide

theorem number?_eq_some_iff {text : List Char} {i : Nat} :
    number? text = some i ↔
      ∃ digits, text = 'x' :: digits ∧ (digits ≠ [] ∧ (∀ c ∈ digits, c.isDigit = true) ∧
        Nat.ofDigitChars 10 digits 0 = i) ∧ i < 16 := by
  unfold number?
  split
  · rename_i digits
    simp [Text.decimal?_eq_some_iff]
  · rename_i other
    simp only [reduceCtorEq, false_iff]
    rintro ⟨digits, rfl, -⟩
    exact other digits rfl

theorem index?_eq_some_iff {text : List Char} {i : Nat} : index? text = some i ↔ Names text i := by
  have look : index? text = (number? (plain text)).or (all.findIdx? (·.abiName.toList == plain text)) := by
    rw [index?, plain]
    cases number? ((Text.trim text).map Char.toLower) <;> rfl
  rw [look]
  constructor
  · intro found
    cases number : number? (plain text) with
    | some n =>
      rw [number] at found
      cases found
      obtain ⟨digits, spelled, ⟨nonempty, digital, value⟩, small⟩ := number?_eq_some_iff.1 number
      exact .numbered spelled nonempty digital value small
    | none =>
      rw [number] at found
      obtain ⟨inside, equal, -⟩ := List.findIdx?_eq_some_iff_getElem.1 found
      exact .called (List.getElem?_eq_getElem inside) (beq_iff_eq.1 equal).symm
  · intro named
    cases named with
    | called listed spelled =>
      obtain ⟨inside, -⟩ := List.getElem?_eq_some_iff.1 listed
      obtain ⟨noNumber, found⟩ := alias_listed i inside _ listed
      rw [spelled, noNumber, found, Option.none_or]
    | numbered spelled nonempty digital value small =>
      have number := number?_eq_some_iff.2 ⟨_, spelled, ⟨nonempty, digital, value⟩, small⟩
      rw [number, Option.some_or]

instance {text : List Char} {i : Nat} : Decidable (Names text i) := decidable_of_iff _ index?_eq_some_iff

end RegisterName

inductive RegisterCall where
  | write (i value : Nat)
  | writeNamed (name : List Char) (value : Nat)
  | reset
  deriving DecidableEq, Repr

namespace RegisterCall

def resets : RegisterCall → Bool
  | .reset => true
  | .write .. | .writeNamed .. => false

def valueFor? (i : Nat) : RegisterCall → Option Nat
  | .write target value => if target = i then some value else none
  | .writeNamed name value => if RegisterName.Names name i then some value else none
  | .reset => none

/-- The word that a register was given last since the start or a reset, or zero. Only the registers from one
to fifteen are given any. -/
def lastWord (calls : List RegisterCall) (i : Nat) : UInt16 :=
  if 0 < i ∧ i < 16 then UInt16.ofNat ((latest? resets (valueFor? i) calls).getD 0) else 0

theorem lastWord_within (calls : List RegisterCall) (i : Nat) :
    (if 0 < i ∧ i < 16 then lastWord calls i else 0) = lastWord calls i := by
  rw [lastWord]
  split <;> rfl

theorem lastWord_append (calls : List RegisterCall) {call : RegisterCall} (kept : call.resets = false)
    (i : Nat) :
    lastWord (calls ++ [call]) i =
      if 0 < i ∧ i < 16 then ((call.valueFor? i).map UInt16.ofNat).getD (lastWord calls i) else 0 := by
  rw [lastWord, lastWord, latest?_append, kept, if_neg Bool.false_ne_true]
  split
  · cases call.valueFor? i <;> rfl
  · rfl

theorem lastWord_reset (calls : List RegisterCall) (i : Nat) : lastWord (calls ++ [.reset]) i = 0 := by
  rw [lastWord, latest?_append]
  exact ite_self 0

end RegisterCall

namespace Registers

open RegisterCall

def call (registers : Registers) : RegisterCall → Option Bool × Registers
  | .write i value => (registers.store i value).map some id
  | .writeNamed name value => (registers.storeNamed name value).map some id
  | .reset => (none, zeroed)

def afterCalls (calls : List RegisterCall) : Registers :=
  calls.foldl (fun registers call => (registers.call call).2) zeroed

/-- What a write comes to: a value for a register from one to fifteen is stored there and nowhere else, and any
other is dropped. -/
inductive Writes (registers : Registers) (call : RegisterCall) : Option Bool × Registers → Prop
  | stored {i value : Nat} {next : Registers}
      (addressed : ∀ j, call.valueFor? j = if i = j then some value else none)
      (positive : 0 < i) (small : i < 16)
      (read : ∀ j, next.read j = if j = i then UInt16.ofNat value else registers.read j) :
      Writes registers call (some true, next)
  | dropped (unaddressed : ∀ i, 0 < i → i < 16 → call.valueFor? i = none) :
      Writes registers call (some false, registers)

theorem writable_iff {i : Nat} : writable i = true ↔ 0 < i ∧ i < 16 := decide_eq_true_iff

theorem write_of_not_writable (registers : Registers) {i : Nat} (fixed : writable i = false) (value : Nat) :
    registers.write i value = registers := by
  cases i with
  | zero => rfl
  | succ i =>
    have outside : ¬i < 15 := by simpa [writable] using fixed
    rw [write, store, if_neg outside]

theorem writes_write (registers : Registers) {call : RegisterCall} {i value : Nat}
    (addressed : ∀ j, call.valueFor? j = if i = j then some value else none) :
    registers.Writes call (some (writable i), registers.write i value) := by
  cases stores : writable i with
  | true =>
    obtain ⟨positive, small⟩ := writable_iff.1 stores
    refine .stored addressed positive small fun j => ?_
    simp [read_write, stores, eq_comm]
  | false =>
    rw [registers.write_of_not_writable stores]
    refine .dropped fun j positive small => ?_
    have other : i ≠ j := by
      rintro rfl
      exact absurd (writable_iff.2 ⟨positive, small⟩) (by simp [stores])
    rw [addressed, if_neg other]

theorem writes_call (registers : Registers) {call : RegisterCall} (kept : call.resets = false) :
    registers.Writes call (registers.call call) := by
  cases call with
  | write i value =>
    rw [Registers.call, store_eq]
    exact registers.writes_write fun _ => rfl
  | writeNamed name value =>
    rw [Registers.call, storeNamed_eq, writeNamed_eq, namesWritable]
    cases found : RegisterName.index? name with
    | some i =>
      refine registers.writes_write fun j => ?_
      simp [valueFor?, ← RegisterName.index?_eq_some_iff, found]
    | none =>
      refine .dropped fun j _ _ => ?_
      simp [valueFor?, ← RegisterName.index?_eq_some_iff, found]
  | reset => cases kept

theorem read_call {registers : Registers} {calls : List RegisterCall}
    (reads : ∀ i, registers.read i = lastWord calls i) (call : RegisterCall) (j : Nat) :
    (registers.call call).2.read j = lastWord (calls ++ [call]) j := by
  cases kept : call.resets with
  | true =>
    cases call with
    | write => cases kept
    | writeNamed => cases kept
    | reset => rw [lastWord_reset, Registers.call, read_zeroed]
  | false =>
    have writes := registers.writes_call kept
    rw [lastWord_append calls kept]
    generalize registers.call call = outcome at writes ⊢
    cases writes with
    | @stored i value next addressed positive small read =>
      rw [read, addressed]
      by_cases hit : i = j
      · subst hit
        simp [positive, small]
      · rw [if_neg (Ne.symm hit), if_neg hit, reads]
        exact (lastWord_within calls j).symm
    | dropped unaddressed =>
      rw [reads, ← lastWord_within]
      split
      · rename_i within
        rw [unaddressed j within.1 within.2]
        rfl
      · rfl

theorem read_eq_lastWord (calls : List RegisterCall) : ∀ i, (afterCalls calls).read i = lastWord calls i :=
  calls_induction (P := fun registers calls => ∀ i, Registers.read registers i = lastWord calls i)
    (by simp [lastWord, latest?, recent]) (fun _ _ call reads => read_call reads call) calls

theorem readNamed_eq (registers : Registers) {name : List Char} {i : Nat} (named : RegisterName.Names name i) :
    registers.readNamed name = registers.read i := by
  rw [readNamed, RegisterName.index?_eq_some_iff.2 named]
  rfl

theorem readNamed_of_unnamed (registers : Registers) {name : List Char}
    (unnamed : ∀ i, ¬RegisterName.Names name i) : registers.readNamed name = 0 := by
  have unknown : RegisterName.index? name = none :=
    Option.eq_none_iff_forall_ne_some.2 fun i found => unnamed i (RegisterName.index?_eq_some_iff.1 found)
  rw [readNamed, unknown]
  rfl

theorem values_eq (registers : Registers) : registers.values = (List.range 16).map registers.read := by
  apply List.ext_getElem
  · simp [values]
  · intro i inside _
    cases i with
    | zero => rfl
    | succ i =>
      have stored : i < 15 := by
        rw [values, List.length_cons, Vector.length_toList] at inside
        omega
      simp [values, read, Vector.getElem?_eq_getElem stored]

theorem nonZero_eq (registers : Registers) :
    registers.nonZero = ((List.range 16).map fun i => (i, registers.read i)).filter (·.2 != 0) := by
  have numbered : ((List.range 16).map registers.read).zipIdx =
      (List.range 16).map fun i => (registers.read i, i) := by
    apply List.ext_getElem <;> simp
  rw [nonZero, values_eq, numbered]
  simp [List.filter_map, Function.comp_def]

theorem get?_eq (registers : Registers) (i : Nat) :
    registers.get? i = RegisterName.all[i]?.map (·, registers.read i) := by
  have listed : RegisterName.all.length = 16 := rfl
  rw [get?, rows, values_eq, List.zip, List.getElem?_zipWith]
  by_cases inside : i < 16
  · simp [listed, inside]
  · simp [listed, Nat.le_of_not_lt inside]

/-- After any calls every register, read by its number, by any of its names, in the list of all values, with its
names and purpose beside it or in the list of those that are not zero, is the word that it was given last.
The next write replies whether it has stored its value, and it does so exactly if it addresses a register
from one to fifteen; otherwise it changes nothing. -/
theorem calls_address_registers (calls : List RegisterCall) :
    let registers := afterCalls calls
    (∀ name i, RegisterName.index? name = some i ↔ RegisterName.Names name i) ∧
      (∀ i, registers.read i = lastWord calls i) ∧
      (∀ name i, RegisterName.Names name i → registers.readNamed name = lastWord calls i) ∧
      (∀ name, (∀ i, ¬RegisterName.Names name i) → registers.readNamed name = 0) ∧
      registers.values = (List.range 16).map (lastWord calls) ∧
      (∀ i, registers.get? i = RegisterName.all[i]?.map (·, lastWord calls i)) ∧
      registers.nonZero = ((List.range 16).map fun i => (i, lastWord calls i)).filter (·.2 != 0) ∧
      ∀ call : RegisterCall, call.resets = false → registers.Writes call (registers.call call) := by
  intro registers
  have reads : registers.read = lastWord calls := funext (read_eq_lastWord calls)
  rw [← reads]
  refine ⟨fun _ _ => RegisterName.index?_eq_some_iff, fun _ => rfl, fun name i => registers.readNamed_eq,
    fun name => registers.readNamed_of_unnamed, registers.values_eq, registers.get?_eq,
    registers.nonZero_eq, fun call => registers.writes_call⟩

theorem calls_address_registers_renamed :
    let calls : List RegisterCall := [.write 5 7, .writeNamed "\tT0 ".toList 0x12345]
    let registers := afterCalls calls
    RegisterName.Names " X005".toList 5 ∧ registers.readNamed " X005".toList = 0x2345 ∧
      (∀ i, ¬RegisterName.Names "x16".toList i) ∧ registers.readNamed "x16".toList = 0 ∧
      RegisterCall.resets (.write 16 1) = false ∧
      registers.Writes (.write 16 1) (registers.call (.write 16 1)) := by
  intro calls registers
  obtain ⟨names, -, named, unnamed, -, -, -, writes⟩ := calls_address_registers calls
  have five : RegisterName.Names " X005".toList 5 := (names _ _).1 (by decide)
  have nameless : ∀ i, ¬RegisterName.Names "x16".toList i := by
    intro i found
    have unknown : RegisterName.index? "x16".toList = none := by decide
    exact absurd ((names _ i).2 found) (by rw [unknown]; nofun)
  exact ⟨five, (named _ 5 five).trans (by decide), nameless, unnamed _ nameless, rfl, writes _ rfl⟩

end Registers

end Harvard16
