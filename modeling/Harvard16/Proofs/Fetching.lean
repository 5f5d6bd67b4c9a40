import Harvard16.Proofs.Faults
import Harvard16.Proofs.Reachable

/-! Fetching from a program that is laid out. Past the program a fetch finds a zero or leaves the memory,
and either way the program is over; before its end there is a word. So no fetch of a reachable
machine is ever a fault, and a step ends the program exactly when it has come to its end. -/
namespace Harvard16

def FaultHandler.recordAll (handler : FaultHandler) (faults : List Fault) : FaultHandler :=
  faults.foldl record handler

namespace Machine

theorem fetch_of_laidOut {machine : Machine} (laid : machine.program.LaidOut) :
    machine.fetch =
      (.ok (if machine.program.stop ≤ machine.pc.toNat then none
        else machine.program.words[machine.pc.toNat]?), machine) := by
  rw [fetch_eq]
  by_cases past : machine.program.stop ≤ machine.pc.toNat
  · cases found : machine.program.words[machine.pc.toNat]? with
    | some word => simp [laid.eq_zero past found, past]
    | none => simp [past]
  · obtain ⟨word, found⟩ := laid.exists_word (Nat.lt_of_not_le past)
    simp [found, past]

theorem step_past_stop {machine : Machine} (laid : machine.program.LaidOut)
    (active : machine.isHalted = false) (past : machine.program.stop ≤ machine.pc.toNat) :
    machine.step = (.ok false, { machine with state := .halted }) := by
  simp [step, active, fetch_of_laidOut laid, past]

theorem step_before_stop {machine : Machine} (laid : machine.program.LaidOut)
    (active : machine.isHalted = false) (inside : machine.pc.toNat < machine.program.stop) :
    ∃ word, machine.program.words[machine.pc.toNat]? = some word ∧ machine.step = machine.perform word := by
  obtain ⟨word, found⟩ := laid.exists_word inside
  exact ⟨word, found, step_of_fetch active (fetch_of_getElem? found (.inr inside))⟩

theorem step_cases {machine : Machine} (laid : machine.program.LaidOut) :
    machine.step = (.ok false, machine) ∨
      machine.step = (.ok false, { machine with state := .halted }) ∨
      ∃ word, machine.program.words[machine.pc.toNat]? = some word ∧
        machine.step = machine.perform word := by
  cases active : machine.isHalted with
  | true => exact .inl (step_of_isHalted active)
  | false =>
    rcases Nat.lt_or_ge machine.pc.toNat machine.program.stop with inside | past
    · exact .inr (.inr (step_before_stop laid active inside))
    · exact .inr (.inl (step_past_stop laid active past))

/-- `Records before outcome faults`: these faults have been recorded on top of `before`, and the fault of
the outcome, if there is one, is among them. -/
structure Records {α : Type} (before : FaultHandler) (outcome : Except Fault α × Machine)
    (faults : List Fault) : Prop where
  recorded : outcome.2.faults = before.recordAll faults
  answered : ∀ fault, outcome.1 = .error fault → fault ∈ faults

def RecordsUnfetched {α : Type} (before : FaultHandler) (outcome : Except Fault α × Machine) : Prop :=
  ∃ faults, Records before outcome faults ∧ ∀ fault ∈ faults, fault.access? ≠ some .fetch

theorem recordsUnfetched_ok {α : Type} {before : FaultHandler} {answer : α} {behind : Machine}
    (kept : behind.faults = before) : RecordsUnfetched before (.ok answer, behind) :=
  ⟨[], ⟨kept, nofun⟩, nofun⟩

theorem recordsUnfetched_perform (machine : Machine) (word : UInt16) :
    RecordsUnfetched machine.faults (machine.perform word) := by
  have ending := (machine.seen word).ending_execute (Instruction.shape_decode word)
  rw [perform_eq]
  generalize (machine.seen word).execute (.decode word) = outcome at ending ⊢
  cases ending with
  | sound kept standing => exact recordsUnfetched_ok kept
  | excused fault graceful unfetched recorded standing =>
    exact ⟨[fault], ⟨recorded, nofun⟩, by simpa using unfetched⟩
  | failed fault strict unfetched =>
    exact ⟨[fault], ⟨rfl, by simp⟩, by simpa using unfetched⟩

theorem recordsUnfetched_step {machine : Machine} (laid : machine.program.LaidOut) :
    RecordsUnfetched machine.faults machine.step := by
  rcases step_cases laid with same | ended | ⟨word, -, performed⟩
  · rw [same]
    exact recordsUnfetched_ok rfl
  · rw [ended]
    exact recordsUnfetched_ok rfl
  · rw [performed]
    exact recordsUnfetched_perform machine word

theorem recordsUnfetched_run {machine : Machine} (laid : machine.program.LaidOut) (budget : Nat) :
    RecordsUnfetched machine.faults (machine.run budget) := by
  induction budget generalizing machine with
  | zero => exact recordsUnfetched_ok rfl
  | succ budget ih =>
    have stepped := recordsUnfetched_step laid
    have program := machine.program_step
    rw [run]
    generalize machine.step = outcome at stepped program
    obtain ⟨faults, ⟨recorded, answered⟩, unfetched⟩ := stepped
    obtain ⟨reply, next⟩ := outcome
    cases reply with
    | error fault => exact ⟨faults, ⟨recorded, by simpa using answered⟩, unfetched⟩
    | ok going =>
      cases going with
      | false => exact ⟨faults, ⟨recorded, by simp⟩, unfetched⟩
      | true =>
        have behind : next.program.LaidOut := by rwa [program]
        obtain ⟨others, ⟨later, ends⟩, fetchless⟩ := ih behind
        refine ⟨faults ++ others, ⟨?_, ?_⟩, ?_⟩
        · rw [later, recorded, FaultHandler.recordAll, FaultHandler.recordAll, FaultHandler.recordAll,
            List.foldl_append]
        · intro fault failed
          exact List.mem_append_right faults (ends fault failed)
        · intro fault mem
          rcases List.mem_append.1 mem with early | late
          · exact unfetched fault early
          · exact fetchless fault late

/-- The program of a reachable machine lies in a memory of the configured size, with zeros around it. A
load that succeeds puts it where it was told to and points there. At or past the end of the program
a step halts the machine and does nothing else, and no step or run answers or records a fault of
fetching. -/
theorem program_laidOut {config : Config} (valid : config.Valid) (operations : List Operation) :
    let machine := ((build config).session operations).2
    machine.program.size = config.programSize ∧ machine.program.LaidOut ∧
      (∀ program start after, machine.load program start = (.ok (), after) →
        after.pc.toNat = start ∧ after.program.Holds start program) ∧
      (machine.state ≠ .halted → machine.program.stop ≤ machine.pc.toNat →
        machine.step = (.ok false, { machine with state := .halted })) ∧
      RecordsUnfetched machine.faults machine.step ∧
      ∀ budget, RecordsUnfetched machine.faults (machine.run budget) := by
  intro machine
  have laid : machine.program.LaidOut := (reachable_session valid operations).laidOut
  have size : machine.program.size = config.programSize :=
    session_induction (P := (·.program.size = config.programSize))
      (fun machine operation same => (machine.size_program_apply operation).trans same)
      (size_program_build config) operations
  refine ⟨size, laid, ?_, ?_, recordsUnfetched_step laid, recordsUnfetched_run laid⟩
  · intro program start after loads
    obtain ⟨memory, ok, loaded⟩ | ⟨fault, -, failed⟩ := machine.load_cases program start
    · rw [loaded] at loads
      cases loads
      obtain ⟨inside, -, -⟩ := ProgramMemory.load_eq_ok_iff.1 ok
      have bound : start < 65536 := by
        rw [size] at inside
        exact Nat.lt_of_lt_of_le inside valid.programSize_le
      exact ⟨UInt16.toNat_ofNat_of_lt' bound, ProgramMemory.holds_load ok⟩
    · rw [failed] at loads
      cases loads
  · intro active past
    exact step_past_stop laid (by simpa [isHalted] using active) past

def behindLast : Machine :=
  ((build { Config.default with programSize := 4, policy := .strict }).session
    [.load [0x5117, 0xE000] 2, .step, .step]).2

theorem program_laidOut_behindLast :
    { Config.default with programSize := 4, policy := .strict }.Valid ∧
      behindLast.load [0xF000] 3 = (.ok (), (behindLast.load [0xF000] 3).2) ∧
      (behindLast.load [0xF000] 3).2.pc.toNat = 3 ∧
      behindLast.state ≠ .halted ∧ behindLast.program.stop ≤ behindLast.pc.toNat ∧
      behindLast.step = (.ok false, { behindLast with state := .halted }) := by
  have valid : { Config.default with programSize := 4, policy := .strict }.Valid :=
    Config.check_eq_ok_iff.1 rfl
  have active : behindLast.state ≠ .halted := by decide
  have past : behindLast.program.stop ≤ behindLast.pc.toNat := by decide
  obtain ⟨-, -, loads, halts, -, -⟩ :=
    program_laidOut valid [.load [0x5117, 0xE000] 2, .step, .step]
  exact ⟨valid, rfl, (loads [0xF000] 3 _ rfl).1, active, past, halts active past⟩

end Machine

end Harvard16
