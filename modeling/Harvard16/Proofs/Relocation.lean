import Harvard16.Proofs.Observation

/-! Moving the data memory. Programs reach data by its place in the window, a sum of sixteen bits that does
not know the base, so a session goes the same way wherever the window starts: faults of data and the
addresses in snapshots move with it. The base is added behind the sum and in more than sixteen bits.
So nothing wraps around there, and a place past the window is a fault at every base, and never
another word. -/
namespace Harvard16.Machine

/-- The machine is about to load from a place, or to store there. The place is the sum of a register and
an offset. -/
inductive Accesses (machine : Machine) : Access → UInt16 → Prop
  | load {word : UInt16} {rd rs1 imm : Nat} (fetched : machine.fetch.1 = .ok (some word))
      (decoded : Instruction.decode word = .i .lw rd rs1 imm) :
      Accesses machine .read (machine.registers.read rs1 + UInt16.ofNat imm)
  | store {word : UInt16} {rs2 rs1 offset : Nat} (fetched : machine.fetch.1 = .ok (some word))
      (decoded : Instruction.decode word = .s .sw rs2 rs1 offset) :
      Accesses machine .write (machine.registers.read rs1 + UInt16.ofNat offset)

/-- The step is a fault of data at this place of the window, handled as the policy says, and leaves the
data alone. -/
structure Strays (machine : Machine) (access : Access) (place : UInt16) : Prop where
  answer : machine.step.1 =
    match machine.faults.policy with
    | .strict => .error (.memory (machine.data.base.toNat + place.toNat) access (some machine.pc))
    | .graceful => .ok true
  recorded : machine.step.2.faults =
    machine.faults.record (.memory (machine.data.base.toNat + place.toNat) access (some machine.pc))
  kept : machine.step.2.data = machine.data

variable {machine : Machine}

theorem perform_of_excuse {word : UInt16} {fault : Fault} {waiting : Option Nat}
    (enacted : (machine.seen word).enact ((machine.seen word).effect (.decode word)) =
      (machine.seen word).excuse fault waiting) :
    (machine.perform word).1 =
        (match machine.faults.policy with
        | .strict => .error fault
        | .graceful => .ok true) ∧
      (machine.perform word).2.faults = machine.faults.record fault ∧
      (machine.perform word).2.data = machine.data := by
  rw [perform_eq, execute_eq_enact _ (Instruction.shape_decode word), enacted]
  cases policy : machine.faults.policy with
  | graceful =>
    have seen : (machine.seen word).faults.policy = .graceful := policy
    rw [excuse_graceful seen]
    exact ⟨rfl, rfl, rfl⟩
  | strict =>
    have seen : (machine.seen word).faults.policy = .strict := policy
    rw [excuse_strict seen]
    exact ⟨rfl, rfl, rfl⟩

theorem step_of_fetched {word : UInt16} (laid : machine.program.LaidOut)
    (active : machine.isHalted = false) (fetched : machine.fetch.1 = .ok (some word)) :
    machine.step = machine.perform word := by
  have whole : machine.fetch = (.ok (some word), machine) := by
    rw [← fetched, fetch_of_laidOut laid]
  exact step_of_fetch active whole

theorem strays_of_accesses {access : Access} {place : UInt16} (laid : machine.program.LaidOut)
    (active : machine.isHalted = false) (accesses : machine.Accesses access place)
    (outside : machine.data.size ≤ place.toNat) : machine.Strays access place := by
  cases accesses with
  | @load word rd rs1 imm fetched decoded =>
    have none : machine.data.words[Effect.place machine.registers rs1 imm]? = none :=
      Array.getElem?_eq_none outside
    have effect : (machine.seen word).effect (.decode word) =
        .strayRead (Effect.place machine.registers rs1 imm) rd := by
      rw [decoded, Machine.effect, Effect.ofInstruction]
      simp only [seen, none]
    have strays := perform_of_excuse (congrArg (machine.seen word).enact effect)
    rw [← step_of_fetched laid active fetched] at strays
    exact ⟨strays.1, strays.2.1, strays.2.2⟩
  | @store word rs2 rs1 offset fetched decoded =>
    have effect : (machine.seen word).effect (.decode word) =
        .strayWrite (Effect.place machine.registers rs1 offset) := by
      rw [decoded, Machine.effect, Effect.ofInstruction]
      exact if_neg (Nat.not_lt.2 outside)
    have strays := perform_of_excuse (congrArg (machine.seen word).enact effect)
    rw [← step_of_fetched laid active fetched] at strays
    exact ⟨strays.1, strays.2.1, strays.2.2⟩

theorem Lockstep.accesses {a b : Machine} {base other : UInt16} (h : Lockstep base other a b)
    {access : Access} {place : UInt16} (accesses : a.Accesses access place) : b.Accesses access place := by
  have pc : b.pc = a.pc := congrArg Course.pc h.courses
  have registers : b.registers = a.registers := congrArg Course.registers h.courses
  have program : b.program.loaded = a.program.loaded := congrArg Course.program h.courses
  have fetches : b.fetch.1 = a.fetch.1 := by
    rw [fetch_of_laidOut h.laid, fetch_of_laidOut h.otherLaid, ProgramMemory.wordAt?_loaded h.laid,
      ProgramMemory.wordAt?_loaded h.otherLaid, pc, program]
  cases accesses with
  | load fetched decoded =>
    rw [← registers]
    exact .load (fetches.trans fetched) decoded
  | store fetched decoded =>
    rw [← registers]
    exact .store (fetches.trans fetched) decoded

structure Relocated (base other : UInt16) (a b : Machine) : Prop where
  lockstep : Lockstep base other a b
  programSize : b.program.size = a.program.size
  cycleBudget : b.cycleBudget = a.cycleBudget

theorem Relocated.apply {a b : Machine} {base other : UInt16} (h : Relocated base other a b)
    {operation : Operation} (indirect : operation.isDirect = false) :
    (a.apply operation).1.Shifted base other (b.apply operation).1 ∧
      Relocated base other (a.apply operation).2 (b.apply operation).2 := by
  have stepped := h.lockstep.apply operation
    (fun program start _ => load_agree h.programSize program start)
    (fun direct => by simp [indirect] at direct) (fun _ => h.cycleBudget)
  obtain ⟨answers, lockstep⟩ := stepped
  refine ⟨answers, lockstep, ?_, ?_⟩
  · rw [size_program_apply, size_program_apply, h.programSize]
  · have kept := congrArg Config.cycleBudget (a.frame_apply operation)
    have otherKept := congrArg Config.cycleBudget (b.frame_apply operation)
    exact otherKept.trans (h.cycleBudget.trans kept.symm)

theorem Relocated.session {a b : Machine} {base other : UInt16} (h : Relocated base other a b)
    {operations : List Operation} (indirect : ∀ operation ∈ operations, operation.isDirect = false) :
    Relocated base other (a.session operations).2 (b.session operations).2 ∧
      List.Forall₂ (Observed.Shifted base other) (a.observe operations) (b.observe operations) := by
  induction operations generalizing a b with
  | nil => exact ⟨h, .nil⟩
  | cons operation operations ih =>
    obtain ⟨first, rest⟩ := List.forall_mem_cons.1 indirect
    obtain ⟨answers, next⟩ := h.apply first
    obtain ⟨last, shifted⟩ := ih next rest
    exact ⟨last, .cons ⟨rfl, answers, next.lockstep.snapshot⟩ shifted⟩

theorem relocated_build (config : Config) (base : UInt16) :
    Relocated config.dataBase base (build config) (build { config with dataBase := base }) := by
  refine ⟨⟨rfl, rfl, rfl, rfl, ?_, ?_⟩, rfl, rfl⟩
  · exact ProgramMemory.laidOut_blank _
  · exact ProgramMemory.laidOut_blank _

theorem mem_nonZero {memory : DataMemory} {cell : Nat × UInt16} (h : cell ∈ memory.nonZero) :
    cell.1 < memory.base.toNat + memory.size := by
  rw [DataMemory.nonZero_eq] at h
  obtain ⟨i, bound, held⟩ := List.mem_filterMap.1 h
  rw [List.mem_range] at bound
  unfold DataMemory.held? at held
  split at held
  · split at held
    · cases held
    · cases held
      simpa using bound
  · cases held

theorem data_of_mem_observe {config : Config} (valid : config.Valid) {operations : List Operation}
    {event : Observed} (member : event ∈ (build config).observe operations) {cell : Nat × UInt16}
    (held : cell ∈ event.snapshot.data) : cell.1 ≤ 0xFFFF := by
  obtain ⟨machine, framed, snapshot⟩ := snapshot_of_mem_observe
    (P := (·.frame = { config with policy := .strict }))
    (fun machine operation same => (machine.frame_apply operation).trans same) (frame_build config) member
  rw [snapshot] at held
  have bound := mem_nonZero held
  have fits := valid.data_le
  have base : machine.data.base = config.dataBase := congrArg Config.dataBase framed
  have size : machine.data.size = config.dataSize := congrArg Config.dataSize framed
  rw [base, size] at bound
  rw [addressSpace] at fits
  omega

/-- For configurations that differ in the base of data alone, and a session without direct accesses to
data: answers and snapshots are the same but for addresses of data, which are as far from one base as
from the other and lie in sixteen bits. Where the session leads to a load or store past the window,
that is a fault on both machines. -/
theorem observe_relocated {config : Config} {base : UInt16} (valid : config.Valid)
    (moved : { config with dataBase := base }.Valid) {operations : List Operation}
    (indirect : ∀ operation ∈ operations, operation.isDirect = false) :
    let here := build config
    let there := build { config with dataBase := base }
    List.Forall₂ (Observed.Shifted config.dataBase base) (here.observe operations)
        (there.observe operations) ∧
      (∀ event ∈ here.observe operations ++ there.observe operations,
        ∀ cell ∈ event.snapshot.data, cell.1 ≤ 0xFFFF) ∧
      ∀ access place, (here.session operations).2.state ≠ .halted →
        (here.session operations).2.Accesses access place → config.dataSize ≤ place.toNat →
        (here.session operations).2.Strays access place ∧
          (there.session operations).2.Strays access place := by
  intro here there
  obtain ⟨⟨lockstep, -, -⟩, shifted⟩ := (relocated_build config base).session indirect
  refine ⟨shifted, ?_, ?_⟩
  · intro event member cell held
    rcases List.mem_append.1 member with first | second
    · exact data_of_mem_observe valid first held
    · exact data_of_mem_observe moved second held
  · intro access place active accesses outside
    have halted : (here.session operations).2.isHalted = false := by simpa [isHalted] using active
    have states : (there.session operations).2.state = (here.session operations).2.state :=
      congrArg Course.state lockstep.courses
    have otherHalted : (there.session operations).2.isHalted = false := by rwa [isHalted, states]
    have size : (here.session operations).2.data.size = config.dataSize :=
      congrArg Config.dataSize ((frame_session here operations).trans (frame_build config))
    have otherSize : (there.session operations).2.data.size = config.dataSize :=
      congrArg Config.dataSize ((frame_session there operations).trans (frame_build _))
    exact ⟨strays_of_accesses lockstep.laid halted accesses (Nat.le_trans (Nat.le_of_eq size) outside),
      strays_of_accesses lockstep.otherLaid otherHalted (lockstep.accesses accesses)
        (Nat.le_trans (Nat.le_of_eq otherSize) outside)⟩

def lastWord : Config := { Config.default with
  programSize := 4, dataSize := 1, dataBase := 0xFFFF, policy := .strict }

/-- A store into the window, before a store behind it. -/
def storing : List Operation := [.load [0x9100, 0x9210] 0, .writeRegister 1 1, .step]

theorem observe_relocated_storing :
    lastWord.Valid ∧ { lastWord with dataBase := 0 }.Valid ∧
      ((build lastWord).session storing).2.step.1 = .error (.memory 0x10000 .write (some 1)) ∧
      ((build { lastWord with dataBase := 0 }).session storing).2.step.1 =
        .error (.memory 1 .write (some 1)) ∧
      List.Forall₂ (Observed.Shifted 0xFFFF 0) ((build lastWord).observe storing)
        ((build { lastWord with dataBase := 0 }).observe storing) ∧
      ((build lastWord).session storing).2.snapshot.data = [(0xFFFF, 1)] := by
  have valid : lastWord.Valid := Config.check_eq_ok_iff.1 rfl
  have moved : { lastWord with dataBase := 0 }.Valid := Config.check_eq_ok_iff.1 rfl
  have indirect : ∀ operation ∈ storing, operation.isDirect = false := by decide
  obtain ⟨shifted, -, strays⟩ := observe_relocated valid moved indirect
  have active : ((build lastWord).session storing).2.state ≠ .halted := by decide
  have accesses : ((build lastWord).session storing).2.Accesses .write 1 :=
    @Accesses.store _ 0x9210 2 1 0 rfl rfl
  obtain ⟨first, second⟩ := strays .write 1 active accesses (Nat.le_refl 1)
  exact ⟨valid, moved, first.answer, second.answer, shifted, rfl⟩

end Harvard16.Machine
