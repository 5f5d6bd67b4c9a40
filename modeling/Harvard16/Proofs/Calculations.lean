import Harvard16.Alu
import Harvard16.Proofs.RecentCalls

/-! Calls of the arithmetic unit by code. What a call computes is told here in integers, without words:
the operands count modulo 2^16, and so does the result. A code of an operation sets all three flags, and
any other code is a fault that leaves the unit alone. Main statement: after any calls the unit shows the
last of them that succeeded and has counted the ones that succeeded, and the next call computes what its
code says or leaves everything as it is. -/
namespace Harvard16

/-- A call of the unit with two operands and a code, as a caller gives them. -/
structure AluCall where
  a : Nat
  b : Nat
  code : Nat
  deriving DecidableEq, Repr

namespace AluOp

theorem eq_code_of_ofCode? {code : Nat} {op : AluOp} (selected : ofCode? code = some op) : code = op.code := by
  unfold ofCode? at selected
  split at selected <;> cases selected <;> rfl

theorem ofCode?_eq_none_iff {code : Nat} : ofCode? code = none ↔ 6 < code := by
  match code with
  | 0 | 1 | 2 | 3 | 4 | 5 | 6 => simp [ofCode?]
  | _ + 7 => simp [ofCode?]

end AluOp

namespace AluCall

variable (call : AluCall)

/-- What is computed from the operands modulo 2^16, if the code is that of an operation. -/
def value? : Option Nat :=
  let a := call.a % 0x10000
  let b := call.b % 0x10000
  match call.code with
  | 0 => some ((a + b) % 0x10000)
  | 1 => some (((a : Int) - b) % 0x10000).toNat
  | 2 => some (a &&& b)
  | 3 => some (a ||| b)
  | 4 => some (a ^^^ b)
  | 5 => some (if a = b then 1 else 0)
  | 6 => some (if a = b then 0 else 1)
  | _ => none

/-- The flags that go with a value: overflow is the carry of a sum and of nothing else. -/
def flags (value : Nat) : Flags :=
  { zero := value = 0
    overflow := call.code = 0 ∧ 0xFFFF < call.a % 0x10000 + call.b % 0x10000
    negative := 0x8000 ≤ value }

def flags? : Option Flags := call.value?.map call.flags

def calculation? : Option Calculation :=
  (AluOp.ofCode? call.code).map (⟨·, UInt16.ofNat call.a, UInt16.ofNat call.b⟩)

theorem toNat_sub_eq (a b : UInt16) :
    (a - b).toNat = (((a.toNat : Int) - b.toNat) % 0x10000).toNat := by
  have small := a.toNat_lt
  have less := b.toNat_lt
  rw [UInt16.toNat_sub]
  omega

theorem toNat_comparison (a b : Nat) (equal different : UInt16) :
    (if UInt16.ofNat a = UInt16.ofNat b then equal else different).toNat =
      if a % 0x10000 = b % 0x10000 then equal.toNat else different.toNat := by
  rw [apply_ite UInt16.toNat]
  simp only [← UInt16.toNat_inj, UInt16.toNat_ofNat']

theorem value?_eq : call.value? = call.calculation?.map (·.result.toNat) := by
  obtain ⟨a, b, code⟩ := call
  match code with
  | 0 | 2 | 3 | 4 => simp [value?, calculation?, AluOp.ofCode?, Calculation.result, AluOp.result]
  | 1 => simp [value?, calculation?, AluOp.ofCode?, Calculation.result, AluOp.result, toNat_sub_eq]
  | 5 | 6 =>
    simp [value?, calculation?, AluOp.ofCode?, Calculation.result, AluOp.result, toNat_comparison]
  | _ + 7 => rfl

theorem flags_calculation {calculation : Calculation} (selected : call.calculation? = some calculation) :
    calculation.flags = call.flags calculation.result.toNat := by
  obtain ⟨op, chosen, rfl⟩ := Option.map_eq_some_iff.1 selected
  have code : call.code = 0 ↔ op = .add := by
    rw [AluOp.eq_code_of_ofCode? chosen]
    cases op <;> simp [AluOp.code]
  have zero (word : UInt16) : (word == 0) = decide (word.toNat = 0) := by
    rw [Bool.eq_iff_iff, beq_iff_eq, decide_eq_true_iff]
    exact UInt16.toNat_inj.symm
  simp [Calculation.flags, AluOp.carries, flags, code, zero, UInt16.le_iff_toNat_le]

theorem flags?_eq : call.flags? = call.calculation?.map (·.flags) := by
  rw [flags?, value?_eq]
  cases selected : call.calculation? with
  | none => rfl
  | some calculation => simp [flags_calculation call selected]

end AluCall

namespace Alu

def call (alu : Alu) (call : AluCall) : Except Fault UInt16 × Alu := alu.execute call.a call.b call.code

def afterCalls (calls : List AluCall) : Alu := calls.foldl (fun alu call => (alu.call call).2) initial

/-- What a call comes to. -/
inductive Answers (alu : Alu) (call : AluCall) : Except Fault UInt16 × Alu → Prop
  | computed {word : UInt16} {next : Alu} (value : call.value? = some word.toNat)
      (lastResult : next.lastResult = word) (flags : next.flags = call.flags word.toNat)
      (operations : next.operations = alu.operations + 1) : Answers alu call (.ok word, next)
  | unknown (code : 6 < call.code) : Answers alu call (.error (.unknownAluCode call.code), alu)

structure Shows (alu : Alu) (calls : List AluCall) : Prop where
  lastResult : alu.lastResult.toNat = (calls.filterMap AluCall.value?).getLast?.getD 0
  flags : alu.flags = (calls.filterMap AluCall.flags?).getLast?.getD .clear
  operations : alu.operations = (calls.filterMap AluCall.value?).length
  history : alu.history = (calls.filterMap AluCall.calculation?).foldl .push (.empty 10)

theorem call_eq (alu : Alu) (call : AluCall) :
    alu.call call =
      match call.calculation? with
      | some calculation => (.ok calculation.result, alu.perform calculation)
      | none => (.error (.unknownAluCode call.code), alu) := by
  rw [Alu.call, execute, AluCall.calculation?]
  cases AluOp.ofCode? call.code <;> rfl

theorem answers_call (alu : Alu) (call : AluCall) : alu.Answers call (alu.call call) := by
  rw [call_eq]
  cases selected : call.calculation? with
  | some calculation =>
    have value : call.value? = some calculation.result.toNat := by rw [call.value?_eq, selected]; rfl
    exact .computed value rfl (call.flags_calculation selected) rfl
  | none =>
    exact .unknown (AluOp.ofCode?_eq_none_iff.1 (Option.map_eq_none_iff.1 selected))

theorem Shows.call {alu : Alu} {calls : List AluCall} (shown : alu.Shows calls) (call : AluCall) :
    (alu.call call).2.Shows (calls ++ [call]) := by
  have value := call.value?_eq
  have flags := call.flags?_eq
  rw [call_eq]
  cases selected : call.calculation? with
  | some calculation =>
    rw [selected] at value flags
    constructor
    · simp [perform, value]
    · simp [perform, flags]
    · simp [perform, value, shown.operations]
    · simp [perform, selected, shown.history]
  | none =>
    rw [selected] at value flags
    obtain ⟨lastResult, flagged, operations, history⟩ := shown
    constructor
    · simp [value, lastResult]
    · simp [flags, flagged]
    · simp [value, operations]
    · simp [selected, history]

theorem shows_after (calls : List AluCall) : (afterCalls calls).Shows calls :=
  calls_induction ⟨rfl, rfl, rfl, rfl⟩ (fun _ _ call shown => shown.call call) calls

/-- After any calls the result and the flags are those of the last call that succeeded, and all calls that
did are counted. The next call computes what its code says, sets the flags by that and is counted, or it is
refused for its code and the unit stays what it was. -/
theorem calls_compute (calls : List AluCall) :
    (afterCalls calls).Shows calls ∧
      ∀ call, (afterCalls calls).Answers call ((afterCalls calls).call call) :=
  ⟨shows_after calls, answers_call _⟩

end Alu

end Harvard16
